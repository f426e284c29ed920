import Mathlib.Data.Rat.Defs
import Mathlib.Algebra.Order.Field.Rat
import Mathlib.Algebra.BigOperators.Group.List.Basic

/-! Rationals with infinities and NaN: the arithmetic of doubles without the rounding.
Zero has no sign. -/

/-- A value of type `double`. -/
inductive ExtRat where
  | fin (q : ℚ)
  | inf (neg : Bool)
  | nan
  deriving DecidableEq

namespace ExtRat

instance : Zero ExtRat := ⟨fin 0⟩
instance : One ExtRat := ⟨fin 1⟩

protected def add : ExtRat → ExtRat → ExtRat
  | fin a, fin b => fin (a + b)
  | fin _, inf s => inf s
  | inf s, fin _ => inf s
  | inf s, inf t => if s = t then inf s else nan
  | nan, _ => nan
  | _, nan => nan

protected def neg : ExtRat → ExtRat
  | fin a => fin (-a)
  | inf s => inf (!s)
  | nan => nan

protected def mul : ExtRat → ExtRat → ExtRat
  | fin a, fin b => fin (a * b)
  | fin a, inf s => if a = 0 then nan else inf (xor (decide (a < 0)) s)
  | inf s, fin b => if b = 0 then nan else inf (xor s (decide (b < 0)))
  | inf s, inf t => inf (xor s t)
  | nan, _ => nan
  | _, nan => nan

protected def div : ExtRat → ExtRat → ExtRat
  | fin a, fin b => if b ≠ 0 then fin (a / b) else if a = 0 then nan else inf (decide (a < 0))
  | fin _, inf _ => 0
  | inf s, fin b => inf (xor s (decide (b < 0)))
  | inf _, inf _ => nan
  | nan, _ => nan
  | _, nan => nan

instance : Add ExtRat := ⟨ExtRat.add⟩
instance : Neg ExtRat := ⟨ExtRat.neg⟩
instance : Sub ExtRat := ⟨fun a b => a + -b⟩
instance : Mul ExtRat := ⟨ExtRat.mul⟩
instance : Div ExtRat := ⟨ExtRat.div⟩

/-- The comparison of doubles, false when a side is a NaN. -/
protected def ltBool : ExtRat → ExtRat → Bool
  | fin a, fin b => decide (a < b)
  | fin _, inf s => !s
  | inf s, fin _ => s
  | inf s, inf t => s && !t
  | _, _ => false

instance : LT ExtRat := ⟨fun a b => a.ltBool b = true⟩
instance (a b : ExtRat) : Decidable (a < b) := inferInstanceAs (Decidable (_ = true))

/-- `std::min`. -/
def stdMin (a b : ExtRat) : ExtRat := if b < a then b else a

variable {a b : ℚ}

@[simp] theorem fin_add_fin : (fin a + fin b : ExtRat) = fin (a + b) := rfl

@[simp] theorem fin_sub_fin : (fin a - fin b : ExtRat) = fin (a - b) := by
  rw [sub_eq_add_neg]
  rfl

@[simp] theorem fin_mul_fin : (fin a * fin b : ExtRat) = fin (a * b) := rfl

theorem fin_div_fin (h : b ≠ 0) : (fin a / fin b : ExtRat) = fin (a / b) := if_pos h

@[simp] theorem fin_lt_fin : (fin a < fin b) ↔ a < b := by
  change decide (a < b) = true ↔ _
  simp

@[simp] theorem fin_eq_zero : fin a = 0 ↔ a = 0 := by
  change fin a = fin 0 ↔ _
  rw [fin.injEq]

theorem stdMin_fin : stdMin (fin a) (fin b) = fin (min a b) := by
  unfold stdMin
  by_cases h : b < a
  · rw [if_pos (fin_lt_fin.mpr h), min_eq_right h.le]
  · rw [if_neg (mt fin_lt_fin.mp h), min_eq_left (not_lt.mp h)]

/-- A finite value is the smaller one unless it is greater. -/
theorem stdMin_eq_left_iff {x : ExtRat} : stdMin (fin a) x = fin a ↔ ¬ x < fin a := by
  unfold stdMin
  by_cases h : x < fin a
  · rw [if_pos h, iff_false_right (not_not.mpr h)]
    intro heq
    rw [heq, fin_lt_fin] at h
    exact lt_irrefl a h
  · rw [if_neg h]
    exact iff_of_true rfl h

/-- The value of a finite double. -/
def toRat : ExtRat → ℚ
  | fin q => q
  | _ => 0

@[simp] theorem toRat_fin : (fin a).toRat = a := rfl

/-- A loop that adds up finite values. -/
theorem foldl_add_fin {α : Type} {f : α → ExtRat} {q : α → ℚ} {l : List α}
    (h : ∀ x ∈ l, f x = fin (q x)) (z : ℚ) :
    l.foldl (fun s x => s + f x) (fin z) = fin (z + (l.map q).sum) := by
  induction l generalizing z with
  | nil => rw [List.foldl_nil, List.map_nil, List.sum_nil, add_zero]
  | cons x xs ih =>
    have hrest := ih (fun y hy => h y (by simp [hy])) (z + q x)
    rw [List.foldl_cons, h x (by simp), fin_add_fin, hrest, List.map_cons, List.sum_cons, add_assoc]

/-- A loop that adds up finite values that are not negative. -/
theorem foldl_add_nonneg {α : Type} {f : α → ExtRat} {l : List α}
    (h : ∀ x ∈ l, ∃ q, f x = fin q ∧ 0 ≤ q) {z : ℚ} (hz : 0 ≤ z) :
    ∃ s, l.foldl (fun s x => s + f x) (fin z) = fin s ∧ 0 ≤ s ∧
      (s = 0 ↔ z = 0 ∧ ∀ x ∈ l, f x = 0) := by
  induction l generalizing z with
  | nil => exact ⟨z, rfl, hz, by simp⟩
  | cons x xs ih =>
    obtain ⟨q, hq, hq0⟩ := h x (by simp)
    have hrest : ∀ y ∈ xs, ∃ q, f y = fin q ∧ 0 ≤ q := fun y hy => h y (by simp [hy])
    obtain ⟨s, hs, hs0, hiff⟩ := ih hrest (add_nonneg hz hq0)
    refine ⟨s, ?_, hs0, ?_⟩
    · rw [List.foldl_cons, hq, fin_add_fin, hs]
    · rw [hiff, List.forall_mem_cons, hq, fin_eq_zero, add_eq_zero_iff_of_nonneg hz hq0, and_assoc]

end ExtRat
