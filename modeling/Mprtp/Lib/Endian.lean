import Mathlib.Data.List.GetD
import Mprtp.Lib.Reader

/-! Big-endian fields: reading them from a memory, and the bytes that hold them. -/

/-- A buffer in memory: its own bytes, then whatever lies behind it. -/
def memOf (l : List UInt8) (beyond : ℕ → UInt8) : ℕ → UInt8 := fun i => l.getD i (beyond i)

/-- The bytes alone in memory. -/
def alone (l : List UInt8) : ℕ → UInt8 := memOf l fun _ => 0

theorem memOf_of_lt {l : List UInt8} {beyond beyond' : ℕ → UInt8} {i : ℕ} (h : i < l.length) :
    memOf l beyond i = memOf l beyond' i := by
  simp [memOf, List.getD_eq_getElem?_getD, List.getElem?_eq_getElem h]

theorem memOf_append_left {a b : List UInt8} {beyond : ℕ → UInt8} {i : ℕ} (h : i < a.length) :
    memOf (a ++ b) beyond i = memOf a beyond i := by
  simp [memOf, List.getD_eq_getElem?_getD, List.getElem?_append_left h,
    List.getElem?_eq_getElem h]

/-- The 16-bit big-endian number at offset `i`. -/
def be16 (m : ℕ → UInt8) (i : ℕ) : UInt16 :=
  UInt16.ofNat ((m i).toNat * 256 + (m (i + 1)).toNat)

/-- The 32-bit big-endian number at offset `i`. -/
def be32 (m : ℕ → UInt8) (i : ℕ) : UInt32 :=
  UInt32.ofNat ((m i).toNat * 16777216 + (m (i + 1)).toNat * 65536 +
    (m (i + 2)).toNat * 256 + (m (i + 3)).toNat)

def bytes16 (v : UInt16) : List UInt8 :=
  [UInt8.ofNat (v.toNat / 256), UInt8.ofNat v.toNat]

def bytes32 (v : UInt32) : List UInt8 :=
  [UInt8.ofNat (v.toNat / 16777216), UInt8.ofNat (v.toNat / 65536),
    UInt8.ofNat (v.toNat / 256), UInt8.ofNat v.toNat]

@[simp] theorem bytes16_length (v : UInt16) : (bytes16 v).length = 2 := rfl

@[simp] theorem bytes32_length (v : UInt32) : (bytes32 v).length = 4 := rfl

/-- The bytes of a 16-bit number read back as that number. -/
theorem be16_bytes16 {m : ℕ → UInt8} {i : ℕ} {v : UInt16}
    (h : ∀ k < 2, m (i + k) = (bytes16 v).getD k 0) : be16 m i = v := by
  have h0 := h 0 (by omega)
  have h1 := h 1 (by omega)
  simp only [bytes16, Nat.add_zero, List.getD_cons_zero, List.getD_cons_succ] at h0 h1
  have hv := v.toNat_lt
  rw [be16, h0, h1, ← UInt16.toNat_inj]
  simp only [UInt16.toNat_ofNat', UInt8.toNat_ofNat']
  omega

/-- The bytes of a 32-bit number read back as that number. -/
theorem be32_bytes32 {m : ℕ → UInt8} {i : ℕ} {v : UInt32}
    (h : ∀ k < 4, m (i + k) = (bytes32 v).getD k 0) : be32 m i = v := by
  have h0 := h 0 (by omega)
  have h1 := h 1 (by omega)
  have h2 := h 2 (by omega)
  have h3 := h 3 (by omega)
  simp only [bytes32, Nat.add_zero, List.getD_cons_zero, List.getD_cons_succ] at h0 h1 h2 h3
  have hv := v.toNat_lt
  rw [be32, h0, h1, h2, h3, ← UInt32.toNat_inj]
  simp only [UInt32.toNat_ofNat', UInt8.toNat_ofNat']
  omega

/-- A 32-bit number is put together from four bytes in one way. -/
theorem be32_inj {m m' : ℕ → UInt8} {i j : ℕ} :
    be32 m i = be32 m' j ↔ ∀ k < 4, m (i + k) = m' (j + k) := by
  constructor
  · intro h
    have hnat := congrArg UInt32.toNat h
    simp only [be32, UInt32.toNat_ofNat'] at hnat
    have h0 := (m i).toNat_lt
    have h1 := (m (i + 1)).toNat_lt
    have h2 := (m (i + 2)).toNat_lt
    have h3 := (m (i + 3)).toNat_lt
    have h0' := (m' j).toNat_lt
    have h1' := (m' (j + 1)).toNat_lt
    have h2' := (m' (j + 2)).toNat_lt
    have h3' := (m' (j + 3)).toNat_lt
    intro k hk
    rw [← UInt8.toNat_inj]
    obtain rfl | rfl | rfl | rfl : k = 0 ∨ k = 1 ∨ k = 2 ∨ k = 3 := by omega
    · simp only [Nat.add_zero]
      omega
    · omega
    · omega
    · omega
  · intro h
    have h0 := h 0 (by omega)
    simp only [Nat.add_zero] at h0
    simp only [be32, h0, h 1 (by omega), h 2 (by omega), h 3 (by omega)]

/-- Three bytes in a 32-bit number do not overlap, so `or` is a sum. -/
theorem or24_toNat (a b c : UInt8) : (a.toUInt32 ||| b.toUInt32 <<< 8 ||| c.toUInt32 <<< 16).toNat =
    a.toNat + b.toNat * 256 + c.toNat * 65536 := by
  have ha := a.toNat_lt
  have hb := b.toNat_lt
  have hc := c.toNat_lt
  have hmid : (b.toUInt32 <<< 8).toNat = b.toNat <<< 8 := by
    rw [UInt32.toNat_shiftLeft, UInt8.toNat_toUInt32]
    simp only [Nat.shiftLeft_eq, UInt32.reduceToNat, Nat.reduceMod, Nat.reducePow]
    omega
  have hhigh : (c.toUInt32 <<< 16).toNat = c.toNat <<< 16 := by
    rw [UInt32.toNat_shiftLeft, UInt8.toNat_toUInt32]
    simp only [Nat.shiftLeft_eq, UInt32.reduceToNat, Nat.reduceMod, Nat.reducePow]
    omega
  have hlow : a.toNat < 2 ^ 8 := ha
  have hboth : b.toNat <<< 8 + a.toNat < 2 ^ 16 := by
    rw [Nat.shiftLeft_eq]
    omega
  rw [UInt32.toNat_or, UInt32.toNat_or, hmid, hhigh, UInt8.toNat_toUInt32, Nat.or_comm,
    Nat.or_comm a.toNat, ← Nat.shiftLeft_add_eq_or_of_lt hlow, ← Nat.shiftLeft_add_eq_or_of_lt hboth,
    Nat.shiftLeft_eq, Nat.shiftLeft_eq]
  omega

theorem or24_inj {a b c a' b' c' : UInt8} : a.toUInt32 ||| b.toUInt32 <<< 8 ||| c.toUInt32 <<< 16 =
    a'.toUInt32 ||| b'.toUInt32 <<< 8 ||| c'.toUInt32 <<< 16 ↔ a = a' ∧ b = b' ∧ c = c' := by
  constructor
  · intro h
    have hnat := congrArg UInt32.toNat h
    rw [or24_toNat, or24_toNat] at hnat
    have ha := a.toNat_lt
    have hb := b.toNat_lt
    have hc := c.toNat_lt
    have ha' := a'.toNat_lt
    have hb' := b'.toNat_lt
    have hc' := c'.toNat_lt
    simp only [← UInt8.toNat_inj]
    omega
  · intro h
    obtain ⟨rfl, rfl, rfl⟩ := h
    rfl

/-- The three low bytes of a 32-bit number, put together again. -/
theorem or_bytes24 (x : UInt32) : x.toUInt8.toUInt32 ||| (x >>> 8).toUInt8.toUInt32 <<< 8 |||
    (x >>> 16).toUInt8.toUInt32 <<< 16 = x % 0x1000000 := by
  have hmid : (x >>> 8).toUInt8.toNat = x.toNat / 256 % 256 := by
    rw [UInt32.toNat_toUInt8, UInt32.toNat_shiftRight]
    simp only [Nat.shiftRight_eq_div_pow, UInt32.reduceToNat, Nat.reduceMod, Nat.reducePow]
  have hhigh : (x >>> 16).toUInt8.toNat = x.toNat / 65536 % 256 := by
    rw [UInt32.toNat_toUInt8, UInt32.toNat_shiftRight]
    simp only [Nat.shiftRight_eq_div_pow, UInt32.reduceToNat, Nat.reduceMod, Nat.reducePow]
  have hmod : (x % 0x1000000).toNat = x.toNat % 2 ^ 24 := rfl
  rw [← UInt32.toNat_inj, or24_toNat, hmid, hhigh, UInt32.toNat_toUInt8, hmod]
  omega

/-- The bytes stand in memory at `p`. -/
def BytesAt (m : ℕ → UInt8) (p : ℕ) (l : List UInt8) : Prop :=
  ∀ i < l.length, m (p + i) = l.getD i 0

section

variable {m : ℕ → UInt8} {p : ℕ}

theorem bytesAt_memOf (l : List UInt8) (beyond : ℕ → UInt8) : BytesAt (memOf l beyond) 0 l := by
  intro i hi
  rw [Nat.zero_add, memOf_of_lt hi]
  rfl

theorem bytesAt_append {a b : List UInt8} :
    BytesAt m p (a ++ b) ↔ BytesAt m p a ∧ BytesAt m (p + a.length) b := by
  unfold BytesAt
  rw [List.length_append]
  constructor
  · intro h
    constructor
    · intro i hi
      rw [h i (by omega), List.getD_append _ _ _ _ hi]
    · intro i hi
      rw [Nat.add_assoc, h (a.length + i) (by omega), List.getD_append_right _ _ _ _ (by omega),
        Nat.add_sub_cancel_left]
  · intro h' i hi
    obtain ⟨ha, hb⟩ := h'
    by_cases hlt : i < a.length
    · rw [ha i hlt, List.getD_append _ _ _ _ hlt]
    · have hi' := hb (i - a.length) (by omega)
      rw [Nat.add_assoc, Nat.add_sub_of_le (by omega)] at hi'
      rw [hi', List.getD_append_right _ _ _ _ (by omega)]

theorem bytesAt_cons {x : UInt8} {l : List UInt8} :
    BytesAt m p (x :: l) ↔ m p = x ∧ BytesAt m (p + 1) l := by
  rw [← List.singleton_append, bytesAt_append]
  refine and_congr_left fun _ => ?_
  constructor
  · intro h
    exact h 0 (by simp)
  · intro h i hi
    obtain rfl : i = 0 := by simpa using hi
    exact h

/-- Bytes that stand in memory read there as they do alone. -/
theorem BytesAt.byte_at {l : List UInt8} (h : BytesAt m p l) (beyond : ℕ → UInt8) {k : ℕ}
    (hk : k < l.length) : m (p + k) = memOf l beyond k := by
  have hbeyond : memOf l beyond k = memOf l (fun _ => 0) k := memOf_of_lt hk
  rw [hbeyond]
  exact h k hk

/-- Reading as many bytes as the list has gives the list. -/
theorem BytesAt.map_range {l : List UInt8} (h : BytesAt m p l) :
    (List.range l.length).map (fun i => m (p + i)) = l := by
  apply List.ext_getElem
  · rw [List.length_map, List.length_range]
  · intro i hi hi'
    rw [List.getElem_map, List.getElem_range, h i hi', List.getD_eq_getElem _ _ hi']

theorem BytesAt.be16_at {l : List UInt8} (h : BytesAt m p l) (beyond : ℕ → UInt8) {k : ℕ}
    (hk : k + 2 ≤ l.length) : be16 m (p + k) = be16 (memOf l beyond) k := by
  unfold be16
  rw [Nat.add_assoc, h.byte_at beyond (by omega), h.byte_at beyond (by omega)]

theorem BytesAt.be32_at {l : List UInt8} (h : BytesAt m p l) (beyond : ℕ → UInt8) {k : ℕ}
    (hk : k + 4 ≤ l.length) : be32 m (p + k) = be32 (memOf l beyond) k := by
  have hbyte : ∀ j < 4, m (p + k + j) = memOf l beyond (k + j) := by
    intro j hj
    rw [Nat.add_assoc]
    exact h.byte_at beyond (by omega)
  have hfirst := hbyte 0 (by omega)
  rw [Nat.add_zero, Nat.add_zero] at hfirst
  unfold be32
  rw [hfirst, hbyte 1 (by omega), hbyte 2 (by omega), hbyte 3 (by omega)]

theorem BytesAt.be16 {v : UInt16} (h : BytesAt m p (bytes16 v)) : be16 m p = v := be16_bytes16 h

theorem BytesAt.be32 {v : UInt32} (h : BytesAt m p (bytes32 v)) : be32 m p = v := be32_bytes32 h

end

namespace ByteReader

/-- `ntohs` of the two bytes at `off`. -/
def u16 (off : ℕ) : ByteReader UInt16 := do
  let a ← byte off
  let b ← byte (off + 1)
  pure (UInt16.ofNat (a.toNat * 256 + b.toNat))

/-- `ntohl` of the four bytes at `off`. -/
def u32 (off : ℕ) : ByteReader UInt32 := do
  let a ← byte off
  let b ← byte (off + 1)
  let c ← byte (off + 2)
  let d ← byte (off + 3)
  pure (UInt32.ofNat (a.toNat * 16777216 + b.toNat * 65536 + c.toNat * 256 + d.toNat))

variable {m : ℕ → UInt8} {P : ℕ → Prop}

@[simp] theorem eval_u16 (off : ℕ) : (u16 off).eval m = be16 m off := by
  simp [u16, be16]

@[simp] theorem eval_u32 (off : ℕ) : (u32 off).eval m = be32 m off := by
  simp [u32, be32]

@[simp] theorem readsIn_u16 (off : ℕ) : (u16 off).ReadsIn P m ↔ P off ∧ P (off + 1) := by
  simp [u16]

@[simp] theorem readsIn_u32 (off : ℕ) :
    (u32 off).ReadsIn P m ↔ P off ∧ P (off + 1) ∧ P (off + 2) ∧ P (off + 3) := by
  simp [u32]

end ByteReader
