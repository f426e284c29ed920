import Mathlib.Algebra.BigOperators.Group.List.Basic
import Mathlib.Algebra.BigOperators.Ring.List
import Mathlib.Algebra.Order.Field.Basic
import Mathlib.Tactic.Abel

/-! Sums over lists. -/

/-- A sum over a list in which one element is replaced. -/
theorem sum_map_set {α M : Type} [AddCommMonoid M] (f : α → M) {l : List α} {k : ℕ} {a b : α}
    (h : l[k]? = some a) : ((l.set k b).map f).sum + f a = (l.map f).sum + f b := by
  induction l generalizing k with
  | nil => cases h
  | cons c l ih =>
    cases k with
    | zero =>
      cases h
      rw [List.set_cons_zero, List.map_cons, List.map_cons, List.sum_cons, List.sum_cons]
      abel
    | succ k =>
      have hrest := ih h
      rw [List.set_cons_succ, List.map_cons, List.map_cons, List.sum_cons, List.sum_cons,
        add_assoc, hrest, add_assoc]

section

variable {α M : Type} [AddCommMonoid M]

/-- A sum over what a predicate selects and a sum over the others. -/
theorem sum_map_filter_not (p : α → Bool) (f : α → M) (l : List α) :
    ((l.filter p).map f).sum + ((l.filter fun a => !p a).map f).sum = (l.map f).sum := by
  have hsplit := List.sum_map_filter_add_sum_map_filter_not (fun a => p a = true) f l
  simpa using hsplit

theorem sum_map_cond (p : α → Bool) (f g : α → M) (l : List α) :
    (l.map fun a => if p a then f a else g a).sum =
      ((l.filter p).map f).sum + ((l.filter fun a => !p a).map g).sum := by
  have hsplit := List.sum_map_ite (fun a => p a = true) f g l
  simpa using hsplit

end

section

variable {α K : Type} [Field K] {l : List α} {f : α → K}

theorem sum_map_div (l : List α) (f : α → K) (s : K) :
    (l.map fun a => f a / s).sum = (l.map f).sum / s := by
  simp only [div_eq_mul_inv]
  exact List.sum_map_mul_right l f s⁻¹

/-- The shares of a total are the whole. -/
theorem sum_shares (h : (l.map f).sum ≠ 0) : (l.map fun a => f a / (l.map f).sum).sum = 1 := by
  rw [sum_map_div]
  exact div_self h

variable [LinearOrder K] [IsStrictOrderedRing K]

/-- What limits leave of values, and what they cut off. -/
theorem sum_min_add_sum_max (l : List α) (f g : α → K) :
    (l.map fun a => min (f a) (g a)).sum + (l.map fun a => max 0 (f a - g a)).sum = (l.map f).sum := by
  rw [← List.sum_map_add]
  congr 1
  apply List.map_congr_left
  intro a _
  rcases le_total (f a) (g a) with h | h
  · rw [min_eq_left h, max_eq_left (sub_nonpos.mpr h), add_zero]
  · rw [min_eq_right h, max_eq_right (sub_nonneg.mpr h), add_sub_cancel]

end
