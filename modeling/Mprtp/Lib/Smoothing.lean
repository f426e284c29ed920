import Mathlib.Algebra.Order.Field.Basic
import Mathlib.Data.Nat.SuccPred
import Mathlib.Order.PartialSups
import Mathlib.Tactic.Linarith
import Mathlib.Tactic.Ring

/-! Exponential smoothing: an estimate that goes a fixed part of the way to each new value. -/

variable {K : Type*} [Field K]

/-- The estimate `x`, moved by the part `g` towards `d`. -/
def smooth (g x d : K) : K := x + (d - x) * g

variable {g x d d' h : K}

theorem smooth_eq : smooth g x d = (1 - g) * x + g * d := by
  unfold smooth
  ring

theorem smooth_right_inj (hg : g ≠ 0) : smooth g x d = smooth g x d' ↔ d = d' := by
  rw [smooth_eq, smooth_eq, add_right_inj]
  exact mul_right_inj' hg

variable [LinearOrder K] [IsStrictOrderedRing K]

theorem smooth_nonneg (hg₀ : 0 ≤ g) (hg₁ : g ≤ 1) (hx : 0 ≤ x) (hd : 0 ≤ d) : 0 ≤ smooth g x d := by
  rw [smooth_eq]
  exact add_nonneg (mul_nonneg (sub_nonneg.mpr hg₁) hx) (mul_nonneg hg₀ hd)

theorem smooth_le (hg₀ : 0 ≤ g) (hg₁ : g ≤ 1) (hx : x ≤ h) (hd : d ≤ h) : smooth g x d ≤ h := by
  have hx' := mul_le_mul_of_nonneg_left hx (sub_nonneg.mpr hg₁)
  have hd' := mul_le_mul_of_nonneg_left hd hg₀
  calc
    smooth g x d = (1 - g) * x + g * d := smooth_eq
    _ ≤ (1 - g) * h + g * h := add_le_add hx' hd'
    _ = h := by ring

/-- An estimate that starts at 0 stays between 0 and the largest value so far. -/
theorem smooth_run_le {x d : ℕ → K} (hg₀ : 0 ≤ g) (hg₁ : g ≤ 1) (hx : x 0 = 0)
    (hstep : ∀ i, x (i + 1) = smooth g (x i) (d i)) (hd : ∀ i, 0 ≤ d i) (i : ℕ) :
    0 ≤ x (i + 1) ∧ x (i + 1) ≤ partialSups d i := by
  induction i with
  | zero =>
    rw [hstep, hx, partialSups_zero]
    exact ⟨smooth_nonneg hg₀ hg₁ le_rfl (hd 0), smooth_le hg₀ hg₁ (hd 0) le_rfl⟩
  | succ i ih =>
    obtain ⟨hpos, hle⟩ := ih
    have hsup : partialSups d (i + 1) = max (partialSups d i) (d (i + 1)) := partialSups_succ d i
    rw [hstep, hsup]
    constructor
    · exact smooth_nonneg hg₀ hg₁ hpos (hd _)
    · exact smooth_le hg₀ hg₁ (hle.trans (le_max_left _ _)) (le_max_right _ _)
