import Mathlib.Algebra.Order.Group.Nat
import Mathlib.Tactic.Ring

/-! Counts in one unit that are scaled to a finer one, rounded down, and back again. -/

/-- A count of `a`-ths in whole `b`-ths. -/
def rescale (a b m : ℕ) : ℕ := m * b / a

variable {a b m : ℕ}

theorem rescale_lt (hm : m < a) : rescale a b m < b ∨ b = 0 := by
  rcases Nat.eq_zero_or_pos b with hb | hb
  · exact Or.inr hb
  · left
    unfold rescale
    rw [Nat.div_lt_iff_lt_mul (Nat.zero_lt_of_lt hm), Nat.mul_comm b a]
    exact Nat.mul_lt_mul_of_pos_right hm hb

/-- The way back loses one unit unless the way there was exact. -/
theorem rescale_rescale (ha : 0 < a) (hab : a ≤ b) :
    rescale b a (rescale a b m) = if a ∣ m * b then m else m - 1 := by
  have hb : 0 < b := Nat.lt_of_lt_of_le ha hab
  have hdiv := Nat.div_add_mod (m * b) a
  have hlt := Nat.mod_lt (m * b) ha
  have hback : rescale a b m * a = m * b - m * b % a := by
    unfold rescale
    rw [Nat.mul_comm]
    omega
  unfold rescale at hback ⊢
  rw [hback]
  by_cases hdvd : a ∣ m * b
  · rw [if_pos hdvd, Nat.mod_eq_zero_of_dvd hdvd, Nat.sub_zero, Nat.mul_div_cancel m hb]
  · rw [if_neg hdvd]
    have hpos : 0 < m * b % a := Nat.pos_of_ne_zero fun h => hdvd (Nat.dvd_of_mod_eq_zero h)
    obtain ⟨n, rfl⟩ : ∃ n, m = n + 1 := by
      apply Nat.exists_eq_succ_of_ne_zero
      rintro rfl
      exact hdvd (by simp)
    rw [Nat.add_sub_cancel]
    apply Nat.div_eq_of_lt_le
    · have hexp : (n + 1) * b = n * b + b := by ring
      omega
    · exact Nat.sub_lt (Nat.mul_pos (Nat.succ_pos n) hb) hpos

theorem rescale_rescale_eq_iff (ha : 0 < a) (hab : a ≤ b) :
    rescale b a (rescale a b m) = m ↔ a ∣ m * b := by
  rw [rescale_rescale ha hab]
  split
  · exact iff_of_true rfl ‹_›
  · refine iff_of_false ?_ ‹_›
    rename_i hdvd
    intro hm
    obtain rfl : m = 0 := by omega
    exact hdvd (by simp)
