import Mathlib.Algebra.Order.Field.Basic
import Mathlib.Algebra.Order.Floor.Semiring
import Mathlib.Data.Finset.Card
import Mathlib.Order.Interval.Finset.Nat
import Mathlib.Tactic.Linarith
import Mathlib.Tactic.Positivity
import Mprtp.Lib.Pick

/-! How often each of several weights is chosen when every multiple of `1 / n` below 1 is drawn once. -/

variable {K : Type} [Field K] [LinearOrder K] [IsStrictOrderedRing K] [FloorSemiring K] {ws : List K} {n i : ℕ}

theorem mem_between_iff (hn : 0 < n) (a b : K) (r : ℕ) :
    a ≤ (r : K) / n ∧ (r : K) / n < b ↔ ⌈n * a⌉₊ ≤ r ∧ r < ⌈n * b⌉₊ := by
  have hn' : (0 : K) < n := by exact_mod_cast hn
  rw [Nat.ceil_le, Nat.lt_ceil, le_div_iff₀ hn', div_lt_iff₀ hn', mul_comm a, mul_comm b]

/-- The draws that choose a weight are those between the two sums at it. -/
theorem filter_pick (h : ∀ w ∈ ws, 0 ≤ w) (hsum : ws.sum ≤ 1) (hn : 0 < n) (hi : i < ws.length) :
    (Finset.range n).filter (fun r : ℕ => pick ((r : K) / n) ws 0 = some i) =
      Finset.Ico ⌈n * (ws.take i).sum⌉₊ ⌈n * (ws.take (i + 1)).sum⌉₊ := by
  have hn' : (0 : K) < n := by exact_mod_cast hn
  have hbelow : (ws.take (i + 1)).sum ≤ 1 := by
    have hrest : 0 ≤ (ws.drop (i + 1)).sum :=
      List.sum_nonneg fun w hw => h w (List.mem_of_mem_drop hw)
    have hsplit := List.sum_take_add_sum_drop ws (i + 1)
    linarith
  ext r
  have hr : (0 : K) ≤ (r : K) / n := by positivity
  rw [Finset.mem_filter, Finset.mem_range, Finset.mem_Ico, pick_eq_some_iff h hr, zero_add, zero_add,
    mem_between_iff hn]
  constructor
  · exact fun h => h.2.2
  · intro hmem
    refine ⟨?_, hi, hmem⟩
    have hlt := ((mem_between_iff hn _ _ r).mpr hmem).2.trans_le hbelow
    rw [div_lt_one hn'] at hlt
    exact_mod_cast hlt

/-- Each weight is chosen as often as its share of the draws, to within one. -/
theorem card_pick (h : ∀ w ∈ ws, 0 ≤ w) (hsum : ws.sum ≤ 1) (hn : 0 < n) (hi : i < ws.length) :
    |(((Finset.range n).filter fun r : ℕ => pick ((r : K) / n) ws 0 = some i).card : K) - n * ws[i]| < 1 := by
  have hfront : 0 ≤ n * (ws.take i).sum :=
    mul_nonneg n.cast_nonneg (List.sum_nonneg fun w hw => h w (List.mem_of_mem_take hw))
  have hstep : n * (ws.take (i + 1)).sum = n * (ws.take i).sum + n * ws[i] := by
    rw [List.sum_take_succ _ _ hi, mul_add]
  have hweight : 0 ≤ n * ws[i] := mul_nonneg n.cast_nonneg (h _ (List.getElem_mem hi))
  have hle : ⌈n * (ws.take i).sum⌉₊ ≤ ⌈n * (ws.take (i + 1)).sum⌉₊ := Nat.ceil_mono (by linarith)
  have hlow := Nat.le_ceil (n * (ws.take i).sum)
  have hlow' := Nat.le_ceil (n * (ws.take (i + 1)).sum)
  have hhigh := Nat.ceil_lt_add_one hfront
  have hhigh' : (⌈n * (ws.take (i + 1)).sum⌉₊ : K) < n * (ws.take (i + 1)).sum + 1 :=
    Nat.ceil_lt_add_one (by linarith)
  rw [filter_pick h hsum hn hi, Nat.card_Ico, Nat.cast_sub hle, abs_lt]
  constructor <;> linarith
