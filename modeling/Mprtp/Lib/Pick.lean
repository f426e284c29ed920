import Mathlib.Algebra.Order.BigOperators.Group.List
import Mathlib.Algebra.Order.Group.Defs

/-! Choosing one of several weights by a draw: the first at which the sum of the weights is above it. -/

variable {M : Type} [AddCommGroup M] [LinearOrder M] [IsOrderedAddMonoid M]

/-- The index of the first weight at which the sum, starting from `p`, is above `x`. -/
def pick (x : M) : List M → M → Option ℕ
  | [], _ => none
  | w :: ws, p => if x < p + w then some 0 else (pick x ws (p + w)).map (· + 1)

variable {x p : M} {ws : List M} {i : ℕ}

/-- The draw lies between the sums in front of the chosen weight and behind it. -/
theorem pick_eq_some_iff (h : ∀ w ∈ ws, 0 ≤ w) (hp : p ≤ x) : pick x ws p = some i ↔
    i < ws.length ∧ p + (ws.take i).sum ≤ x ∧ x < p + (ws.take (i + 1)).sum := by
  induction ws generalizing p i with
  | nil => simp [pick]
  | cons w ws ih =>
    have hrest : ∀ v ∈ ws, 0 ≤ v := fun v hv => h v (List.mem_cons_of_mem w hv)
    unfold pick
    by_cases hhit : x < p + w
    · rw [if_pos hhit, Option.some.injEq]
      cases i with
      | zero => simpa using ⟨hp, hhit⟩
      | succ i =>
        have hfront : 0 ≤ (ws.take i).sum :=
          List.sum_nonneg fun v hv => hrest v (List.mem_of_mem_take hv)
        refine iff_of_false (by simp) fun hle => ?_
        have hsum := hle.2.1
        rw [List.take_succ_cons, List.sum_cons, ← add_assoc] at hsum
        exact absurd (lt_of_lt_of_le hhit (le_add_of_nonneg_right hfront)) (not_lt.mpr hsum)
    · rw [if_neg hhit, Option.map_eq_some_iff]
      cases i with
      | zero => simpa using fun _ => not_lt.mp hhit
      | succ i =>
        have hiff := ih hrest (not_lt.mp hhit) (i := i)
        simp only [Nat.add_right_cancel_iff, exists_eq_right, hiff, List.length_cons,
          Nat.add_lt_add_iff_right, List.take_succ_cons, List.sum_cons, ← add_assoc]

/-- Nothing is chosen when the draw is not below the sum of all weights. -/
theorem pick_eq_none_iff (h : ∀ w ∈ ws, 0 ≤ w) (hp : p ≤ x) : pick x ws p = none ↔ p + ws.sum ≤ x := by
  induction ws generalizing p with
  | nil => simpa [pick] using hp
  | cons w ws ih =>
    have hrest : ∀ v ∈ ws, 0 ≤ v := fun v hv => h v (List.mem_cons_of_mem w hv)
    unfold pick
    by_cases hhit : x < p + w
    · have hsum : p + w ≤ p + (w :: ws).sum := by
        rw [List.sum_cons, ← add_assoc]
        exact le_add_of_nonneg_right (List.sum_nonneg hrest)
      rw [if_pos hhit]
      exact iff_of_false (by simp) (not_le.mpr (lt_of_lt_of_le hhit hsum))
    · rw [if_neg hhit, Option.map_eq_none_iff, ih hrest (not_lt.mp hhit), List.sum_cons, add_assoc]

/-- A weight that is chosen is positive. -/
theorem pos_of_pick (h : ∀ w ∈ ws, 0 ≤ w) (hp : p ≤ x) (hi : pick x ws p = some i) :
    ∃ w, ws[i]? = some w ∧ 0 < w := by
  obtain ⟨hlt, hle, hgt⟩ := (pick_eq_some_iff h hp).mp hi
  refine ⟨ws[i], List.getElem?_eq_getElem hlt, ?_⟩
  rw [List.sum_take_succ _ _ hlt, ← add_assoc] at hgt
  exact (lt_add_iff_pos_right _).mp (lt_of_le_of_lt hle hgt)
