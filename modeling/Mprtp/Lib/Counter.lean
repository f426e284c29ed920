import Mathlib.Data.List.Basic

/-! Numbers of 16 bits that a counter gives out one after another. -/

/-- The numbers go up by one from `start` on, modulo 2^16. -/
def CountsFrom (start : UInt16) (l : List UInt16) : Prop :=
  ∀ (k : ℕ) (q : UInt16), l[k]? = some q → q = start + UInt16.ofNat k

theorem UInt16.add_ofNat_succ (start : UInt16) (n : ℕ) :
    start + UInt16.ofNat (n + 1) = start + UInt16.ofNat n + 1 := by
  rw [UInt16.ofNat_add, ← UInt16.add_assoc]
  rfl

namespace CountsFrom

variable {start : UInt16} {l : List UInt16}

theorem nil (start : UInt16) : CountsFrom start [] := by
  intro k q hk
  cases hk

theorem concat (h : CountsFrom start l) : CountsFrom start (l ++ [start + UInt16.ofNat l.length]) := by
  intro k q hk
  rcases Nat.lt_trichotomy k l.length with hlt | rfl | hgt
  · rw [List.getElem?_append_left hlt] at hk
    exact h k q hk
  · rw [List.getElem?_concat_length] at hk
    exact (Option.some.inj hk).symm
  · rw [List.getElem?_eq_none (by simp; omega)] at hk
    cases hk

/-- A number comes again after 2^16 numbers, but not before. -/
theorem ne_of_near (h : CountsFrom start l) {j k : ℕ} {a b : UInt16} (hj : l[j]? = some a)
    (hk : l[k]? = some b) (hlt : j < k) (hnear : k < j + 65536) : a ≠ b := by
  intro heq
  rw [h j a hj, h k b hk] at heq
  have hnat := congrArg UInt16.toNat heq
  simp only [UInt16.toNat_add, UInt16.toNat_ofNat'] at hnat
  omega

end CountsFrom
