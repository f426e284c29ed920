import Mathlib.Algebra.BigOperators.Group.Finset.Basic
import Mprtp.Lib.PickCounts
import Mprtp.Sender.Draws

/-! How often `select_subflow` returns each subflow over all values of the random draw. -/
namespace Mprtp

namespace SenderData

variable {d : SenderData} {qs : List ℚ}

/-- The number of draws for which `select_subflow` returns the subflow at an index. -/
def timesSelected (d : SenderData) (k : ℕ) : ℕ :=
  ((Finset.range 101).filter fun n => (d.selectSubflow (.drawing n)).1 = some k).card

theorem drawing_draw {n : ℕ} (hn : n < 101) : (World.drawing n).draw % 101 = n := Nat.mod_eq_of_lt hn

/-- A draw below 100 picks by the percentages. -/
theorem selectSubflow_drawing (hqs : d.subflows.map Subflow.percentage = qs.map .fin) (hpos : ∀ q ∈ qs, 0 ≤ q)
    (hsum : qs.sum = 1) {n : ℕ} (hn : n < 100) :
    (d.selectSubflow (.drawing n)).1 = pick ((n : ℚ) / (100 : ℕ)) qs 0 := by
  have hrnd : (0 : ℚ) ≤ (n : ℚ) / (100 : ℕ) := by positivity
  have hbelow : (n : ℚ) / (100 : ℕ) < 1 := by
    rw [div_lt_one (by norm_num)]
    exact_mod_cast hn
  obtain ⟨k, hk⟩ : ∃ k, pick ((n : ℚ) / (100 : ℕ)) qs 0 = some k := by
    rw [← Option.ne_none_iff_exists', ne_eq, pick_eq_none_iff hpos hrnd, hsum, not_le, zero_add]
    exact hbelow
  rw [hk]
  apply selectSubflow_of_some
  rw [drawing_draw (by omega), selectFrom_zero hqs]
  exact hk

theorem timesSelected_eq (hqs : d.subflows.map Subflow.percentage = qs.map .fin) (hpos : ∀ q ∈ qs, 0 ≤ q)
    (hsum : qs.sum = 1) (k : ℕ) : d.timesSelected k =
      ((Finset.range 100).filter fun n : ℕ => pick ((n : ℚ) / (100 : ℕ)) qs 0 = some k).card +
        if k = 0 then 1 else 0 := by
  have hlast : (d.selectSubflow (.drawing 100)).1 = some 0 := selectSubflow_of_eq hqs hpos hsum rfl
  have hrest : (Finset.range 100).filter (fun n => (d.selectSubflow (.drawing n)).1 = some k) =
      (Finset.range 100).filter fun n : ℕ => pick ((n : ℚ) / (100 : ℕ)) qs 0 = some k := by
    apply Finset.filter_congr
    intro n hn
    rw [selectSubflow_drawing hqs hpos hsum (Finset.mem_range.mp hn)]
  unfold timesSelected
  rw [Finset.range_add_one, Finset.filter_insert, hlast, hrest]
  by_cases hk : k = 0
  · rw [if_pos hk, if_pos (by rw [hk]), Finset.card_insert_of_notMem]
    intro hmem
    exact absurd (Finset.mem_range.mp (Finset.mem_filter.mp hmem).1) (by decide)
  · rw [if_neg hk, if_neg fun h => hk (Option.some.inj h).symm, Nat.add_zero]

/-- Over all values of the random draw, every subflow is returned as often as its share of a hundred, to within
one, and the first subflow once more; every draw returns one. -/
theorem selected_in_proportion (hqs : d.subflows.map Subflow.percentage = qs.map .fin) (hpos : ∀ q ∈ qs, 0 ≤ q)
    (hsum : qs.sum = 1) :
    (∀ (k : ℕ) (q : ℚ), qs[k]? = some q →
      |(d.timesSelected k : ℚ) - (100 * q + if k = 0 then 1 else 0)| < 1) ∧
    ∑ k ∈ Finset.range qs.length, d.timesSelected k = 101 := by
  constructor
  · intro k q hk
    obtain ⟨hlt, rfl⟩ := List.getElem?_eq_some_iff.mp hk
    have hcard := card_pick hpos hsum.le (n := 100) (by norm_num) hlt
    rw [timesSelected_eq hqs hpos hsum k, Nat.cast_add, Nat.cast_ite, Nat.cast_one, Nat.cast_zero]
    rw [Nat.cast_ofNat] at hcard
    have hsame : ∀ a b c : ℚ, a + c - (b + c) = a - b := fun a b c => by ring
    rw [hsame]
    exact hcard
  · have hsome : ∀ n ∈ Finset.range 101, ∃ k ∈ Finset.range qs.length,
        (d.selectSubflow (.drawing n)).1 = some k := by
      intro n hn
      rcases Nat.lt_or_ge n 100 with hlt | hge
      · obtain ⟨k, sf, hk, hsf, -⟩ := selectSubflow_of_lt hqs hpos hsum (w := .drawing n)
          (by rwa [drawing_draw (Finset.mem_range.mp hn)])
        refine ⟨k, ?_, hk⟩
        have hlen := congrArg List.length hqs
        rw [List.length_map, List.length_map] at hlen
        exact Finset.mem_range.mpr (hlen ▸ (List.getElem?_eq_some_iff.mp hsf).1)
      · have hn' : n = 100 := le_antisymm (Nat.le_of_lt_succ (Finset.mem_range.mp hn)) hge
        refine ⟨0, Finset.mem_range.mpr (List.length_pos_iff.mpr ?_), ?_⟩
        · rintro rfl
          cases hsum
        · rw [hn']
          exact selectSubflow_of_eq hqs hpos hsum rfl
    have hmaps : ∀ n ∈ Finset.range 101, ((d.selectSubflow (.drawing n)).1.getD 0) ∈ Finset.range qs.length := by
      intro n hn
      obtain ⟨k, hk, heq⟩ := hsome n hn
      rw [heq]
      exact hk
    have hcard := Finset.card_eq_sum_card_fiberwise hmaps
    rw [Finset.card_range] at hcard
    rw [hcard]
    apply Finset.sum_congr rfl
    intro k _
    unfold timesSelected
    congr 1
    apply Finset.filter_congr
    intro n hn
    obtain ⟨j, -, heq⟩ := hsome n hn
    rw [heq]
    simp

/-- Shares of a third and two thirds. -/
theorem sharesOf_proportion :
    |((sharesOf (1 / 3) (2 / 3)).timesSelected 1 : ℚ) - (100 * (2 / 3) + 0)| < 1 ∧
      ∑ k ∈ Finset.range 2, (sharesOf (1 / 3) (2 / 3)).timesSelected k = 101 := by
  have hpos : ∀ q ∈ ([1 / 3, 2 / 3] : List ℚ), 0 ≤ q := by norm_num
  have hqs : (sharesOf (1 / 3) (2 / 3)).subflows.map Subflow.percentage = [1 / 3, 2 / 3].map .fin := rfl
  obtain ⟨htimes, hall⟩ := selected_in_proportion hqs hpos (by norm_num)
  exact ⟨htimes 1 _ rfl, hall⟩

end SenderData

end Mprtp
