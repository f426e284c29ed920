import Mathlib.Data.Finset.Card
import Mathlib.Order.Interval.Finset.Nat

/-! The numbers that an increasing sequence leaves out. -/
namespace Gaps

/-- The first `n` numbers go up. -/
def Up (s : ℕ → ℕ) (n : ℕ) : Prop := ∀ i, i + 1 < n → s i < s (i + 1)

/-- The number behind the first `n` numbers, or the first one when there are none. -/
def next (s : ℕ → ℕ) : ℕ → ℕ
  | 0 => s 0
  | n + 1 => s n + 1

/-- The numbers behind the first `j` numbers, up to the last of the first `n`. -/
def span (s : ℕ → ℕ) (j n : ℕ) : Finset ℕ := Finset.Ico (next s j) (next s n)

/-- Those of them that are left out. -/
def missing (s : ℕ → ℕ) (j n : ℕ) : Finset ℕ := (span s j n).filter fun q => ∀ i < n, s i ≠ q

variable {s : ℕ → ℕ} {i j k n : ℕ}

theorem card_span (s : ℕ → ℕ) (j n : ℕ) : (span s j n).card = next s n - next s j := Nat.card_Ico _ _

theorem Up.mono (h : Up s n) (hk : k ≤ n) : Up s k := fun i hi => h i (Nat.lt_of_lt_of_le hi hk)

theorem Up.lt (h : Up s n) (hik : i < k) (hk : k < n) : s i < s k := by
  induction k with
  | zero => exact absurd hik (Nat.not_lt_zero i)
  | succ k ih =>
    have hstep := h k hk
    rcases Nat.lt_or_eq_of_le (Nat.le_of_lt_succ hik) with hlt | rfl
    · exact Nat.lt_trans (ih hlt (Nat.lt_of_succ_lt hk)) hstep
    · exact hstep

/-- `next` parts the numbers that have come from those still to come. -/
theorem Up.lt_next (h : Up s n) (hij : i < j) (hj : j ≤ n) : s i < next s j := by
  cases j with
  | zero => exact absurd hij (Nat.not_lt_zero i)
  | succ j =>
    apply Nat.lt_succ_of_le
    rcases Nat.lt_or_eq_of_le (Nat.le_of_lt_succ hij) with hlt | rfl
    · exact (h.lt hlt hj).le
    · exact Nat.le_refl _

theorem Up.next_le (h : Up s n) (hji : j ≤ i) (hi : i < n) : next s j ≤ s i := by
  cases j with
  | zero =>
    cases i with
    | zero => exact Nat.le_refl _
    | succ i => exact (h.lt (Nat.succ_pos i) hi).le
  | succ j => exact h.lt hji hi

/-- What is left out and what has come make up the span. -/
theorem Up.card_missing (h : Up s n) (hj : j ≤ n) :
    (missing s j n).card + (n - j) = (span s j n).card := by
  have hcome : (Finset.Ico j n).image s ⊆ span s j n := by
    intro q hq
    obtain ⟨i, hi, rfl⟩ := Finset.mem_image.mp hq
    obtain ⟨hji, hin⟩ := Finset.mem_Ico.mp hi
    exact Finset.mem_Ico.mpr ⟨h.next_le hji hin, h.lt_next hin (Nat.le_refl n)⟩
  have hcard : ((Finset.Ico j n).image s).card = n - j := by
    rw [Finset.card_image_of_injOn, Nat.card_Ico]
    intro a ha b hb hab
    have ha' := (Finset.mem_Ico.mp ha).2
    have hb' := (Finset.mem_Ico.mp hb).2
    rcases Nat.lt_trichotomy a b with hlt | heq | hgt
    · exact absurd hab (Nat.ne_of_lt (h.lt hlt hb'))
    · exact heq
    · exact absurd hab.symm (Nat.ne_of_lt (h.lt hgt ha'))
  have hrest : missing s j n = span s j n \ (Finset.Ico j n).image s := by
    ext q
    unfold missing
    rw [Finset.mem_filter, Finset.mem_sdiff, Finset.mem_image]
    refine and_congr_right fun hq => ?_
    constructor
    · intro hnone hsome
      obtain ⟨i, hi, heq⟩ := hsome
      exact hnone i (Finset.mem_Ico.mp hi).2 heq
    · intro hnone i hi heq
      refine hnone ⟨i, Finset.mem_Ico.mpr ⟨?_, hi⟩, heq⟩
      -- the numbers before the span are below it
      by_contra hlt
      have hbelow := h.lt_next (not_le.mp hlt) hj
      have hle := (Finset.mem_Ico.mp hq).1
      omega
  rw [hrest, Finset.card_sdiff_of_subset hcome, hcard]
  have hle := Finset.card_le_card hcome
  rw [hcard] at hle
  exact Nat.sub_add_cancel hle

end Gaps
