import Mathlib.Data.Int.ModEq
import Mathlib.Tactic.NormNum

/-! Integers cut to 32 bits. -/

namespace UInt32

theorem toNat_ofInt (x : ℤ) : ((UInt32.ofInt x).toNat : ℤ) = x % 2 ^ 32 := by
  unfold UInt32.ofInt
  rw [UInt32.toNat_ofNat']
  omega

@[simp] theorem ofInt_natCast (n : ℕ) : UInt32.ofInt n = UInt32.ofNat n := by
  have h := toNat_ofInt n
  rw [← UInt32.toNat_inj, UInt32.toNat_ofNat']
  omega

/-- A difference that does not wrap, and what wrapping makes of its negative. -/
theorem toNat_sub_neg {a b : UInt32} (h : b < a) : ((a - b).toNat : ℤ) = a.toNat - b.toNat ∧
    ((-(a - b)).toNat : ℤ) = 2 ^ 32 - (a.toNat - b.toNat) := by
  have ha := a.toNat_lt
  have hlt := UInt32.lt_iff_toNat_lt.mp h
  have hsub := UInt32.toNat_sub_of_le a b (UInt32.le_of_lt h)
  have hneg : (-(a - b)).toNat = 2 ^ 32 - (a - b).toNat := by
    rw [UInt32.toNat_neg]
    exact Nat.mod_eq_of_lt (by unfold UInt32.size; omega)
  omega

/-- The low 16 bits are cleared. -/
theorem toNat_and_high (x : UInt32) : (x &&& 0xFFFF0000).toNat = x.toNat - x.toNat % 65536 := by
  have hx := x.toNat_lt
  have hcycles : x.toNat - x.toNat % 65536 = (x.toNat >>> 16) <<< 16 := by
    rw [Nat.shiftLeft_eq, Nat.shiftRight_eq_div_pow]
    omega
  have hmask : (0xFFFF0000 : UInt32).toNat = (2 ^ 16 - 1) <<< 16 := by decide
  rw [UInt32.toNat_and, hmask, hcycles]
  apply Nat.eq_of_testBit_eq
  intro i
  simp only [Nat.testBit_and, Nat.testBit_shiftLeft, Nat.testBit_shiftRight,
    Nat.testBit_two_pow_sub_one]
  by_cases hi : 16 ≤ i
  · by_cases hlow : i - 16 < 16
    · simp [hi, hlow]
    · have hle : 2 ^ 32 ≤ 2 ^ i := Nat.pow_le_pow_right (by decide) (by omega)
      have hbit : x.toNat.testBit i = false := Nat.testBit_lt_two_pow (Nat.lt_of_lt_of_le hx hle)
      simp [hi, hlow, hbit]
  · simp [hi]

end UInt32
