import Mathlib.Data.Nat.Bitwise
import Mprtp.Basic

/-! Subnets of addresses, and the addresses of the example programs. -/
namespace Mprtp

/-- `in_same_subnet`; a shift by 32 bits or more is undefined. -/
def inSameSubnet (addr1 addr2 : Endpoint) (bits : UInt32) : Option Bool :=
  if 32 - bits < 32 then
    let mask := (0xFFFFFFFF : UInt32) <<< (32 - bits)
    some (addr1.ip &&& mask = addr2.ip &&& mask)
  else none

theorem land_shiftLeft_ones {x k : ℕ} (hx : x < 2 ^ 32) :
    x &&& ((2 ^ 32 - 1) <<< k % 2 ^ 32) = (x >>> k) <<< k := by
  apply Nat.eq_of_testBit_eq
  intro i
  have hhigh : 32 ≤ i → x.testBit i = false := fun hi =>
    Nat.testBit_eq_false_of_lt (hx.trans_le (Nat.pow_le_pow_right (by omega) hi))
  simp only [Nat.testBit_and, Nat.testBit_mod_two_pow, Nat.testBit_shiftLeft, Nat.testBit_two_pow_sub_one,
    Nat.testBit_shiftRight]
  by_cases hik : k ≤ i
  · by_cases hi : i < 32
    · have hsub : i - k < 32 := by omega
      simp [hi, hik, hsub]
    · simp [hi, hik, hhigh (by omega)]
  · simp [hik]

/-- The function is defined for prefixes of 1 to 32 bits, and compares that many leading bits. -/
theorem inSameSubnet_eq (addr1 addr2 : Endpoint) (bits : UInt32) :
    inSameSubnet addr1 addr2 bits =
      if 1 ≤ bits.toNat ∧ bits.toNat ≤ 32 then
        some (decide (addr1.ip.toNat / 2 ^ (32 - bits.toNat) = addr2.ip.toNat / 2 ^ (32 - bits.toNat)))
      else none := by
  have hdefined : 32 - bits < 32 ↔ 1 ≤ bits.toNat ∧ bits.toNat ≤ 32 := by
    rw [UInt32.lt_iff_toNat_lt, UInt32.toNat_sub]
    have hbits := bits.toNat_lt
    change (2 ^ 32 - bits.toNat + 32) % 2 ^ 32 < 32 ↔ _
    omega
  unfold inSameSubnet
  dsimp only
  by_cases h : 1 ≤ bits.toNat ∧ bits.toNat ≤ 32
  · rw [if_pos (hdefined.mpr h), if_pos h]
    have hshift : (32 - bits).toNat % 32 = 32 - bits.toNat := by
      rw [UInt32.toNat_sub]
      change (2 ^ 32 - bits.toNat + 32) % 2 ^ 32 % 32 = _
      omega
    have hmask : ∀ ip : UInt32, (ip &&& (0xFFFFFFFF : UInt32) <<< (32 - bits)).toNat =
        ip.toNat / 2 ^ (32 - bits.toNat) * 2 ^ (32 - bits.toNat) := by
      intro ip
      rw [UInt32.toNat_and, UInt32.toNat_shiftLeft, hshift]
      change ip.toNat &&& ((2 ^ 32 - 1) <<< (32 - bits.toNat) % 2 ^ 32) = _
      rw [land_shiftLeft_ones ip.toNat_lt, Nat.shiftLeft_eq, Nat.shiftRight_eq_div_pow]
    congr 1
    rw [decide_eq_decide, ← UInt32.toNat_inj, hmask, hmask]
    exact Nat.mul_left_inj (by positivity)
  · rw [if_neg fun hlt => h (hdefined.mp hlt), if_neg h]

def portServerBase : UInt16 := 22000
def portClientBase : UInt16 := 23000

/-- The loops over the addresses of a command line: each gets the second port behind the one before. -/
def endpoints : List UInt32 → UInt16 → List Endpoint
  | [], _ => []
  | addr :: addrs, port => ⟨addr, port⟩ :: endpoints addrs (port + 2)

theorem getElem?_endpoints (addrs : List UInt32) (port : UInt16) (i : ℕ) :
    (endpoints addrs port)[i]? = addrs[i]?.map fun addr => ⟨addr, port + 2 * UInt16.ofNat i⟩ := by
  induction addrs generalizing port i with
  | nil => rfl
  | cons addr addrs ih =>
    unfold endpoints
    cases i with
    | zero =>
      have hport : port + 2 * UInt16.ofNat 0 = port := UInt16.add_zero port
      rw [List.getElem?_cons_zero, List.getElem?_cons_zero, Option.map_some, hport]
    | succ i =>
      have hport : port + 2 + 2 * UInt16.ofNat i = port + 2 * UInt16.ofNat (i + 1) := by
        rw [UInt16.ofNat_add, UInt16.mul_add, UInt16.add_assoc, UInt16.add_comm (2 * UInt16.ofNat i)]
        rfl
      rw [List.getElem?_cons_succ, List.getElem?_cons_succ, ih, hport]

end Mprtp
