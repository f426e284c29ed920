import Mprtp.Packet.Splits

/-! The subflow fields of two datagrams that have their headers in common. -/
namespace Mprtp

open ByteReader

namespace RawPacket

/-- The number of words that the header extension declares. -/
def extensionWords (raw : RawPacket) : ℕ := (be16 raw.mem (raw.extensionOffset + 2)).toNat

/-- The MPRTP extension declares less than two words, and a subflow field lies behind it. -/
def ShortMprtp (raw : RawPacket) : Prop := raw.HasMprtp ∧ raw.extensionWords < 2

instance (raw : RawPacket) : Decidable raw.ShortMprtp := inferInstanceAs (Decidable (_ ∧ _))

/-- The fixed header, the CSRC list and the whole header extension are the same. -/
def SameHeaders (raw raw' : RawPacket) : Prop :=
  raw'.data.take raw.payloadOffset = raw.data.take raw.payloadOffset

variable {raw raw' : RawPacket}

theorem extensionOffset_bounds (raw : RawPacket) :
    12 ≤ raw.extensionOffset ∧ raw.extensionOffset ≤ 72 := by
  have hcount : csrccountOf (raw.mem 0) < 16 := Nat.mod_lt _ (by decide)
  have hoff := raw.offsets_le.1
  omega

theorem HasMprtp.payloadOffset (h : raw.HasMprtp) :
    raw.payloadOffset = raw.extensionOffset + (4 + 4 * raw.extensionWords) := if_neg h.1

theorem SameHeaders.mem (h : raw.SameHeaders raw') (hfits : raw.payloadOffset ≤ raw.dataLen) {i : ℕ}
    (hi : i < raw.payloadOffset) : raw'.mem i = raw.mem i := by
  have hlen := congrArg List.length h
  rw [List.length_take, List.length_take] at hlen
  have hfits' : raw.payloadOffset ≤ raw.data.length := hfits
  have hi₁ : i < raw.data.length := by omega
  have hi₂ : i < raw'.data.length := by omega
  have hget : (raw'.data.take raw.payloadOffset)[i]? = (raw.data.take raw.payloadOffset)[i]? :=
    congrArg (fun l : List UInt8 => l[i]?) h
  rw [List.getElem?_take_of_lt hi, List.getElem?_take_of_lt hi, List.getElem?_eq_getElem hi₁,
    List.getElem?_eq_getElem hi₂] at hget
  unfold RawPacket.mem memOf
  rw [List.getD_eq_getElem _ _ hi₁, List.getD_eq_getElem _ _ hi₂]
  exact Option.some.inj hget

theorem SameHeaders.word (h : raw.SameHeaders raw') (hfits : raw.payloadOffset ≤ raw.dataLen) {i : ℕ}
    (hi : i + 2 ≤ raw.payloadOffset) : be16 raw'.mem i = be16 raw.mem i := by
  unfold be16
  rw [h.mem hfits (by omega), h.mem hfits (by omega)]

/-- What the headers say is the same. -/
theorem SameHeaders.headers (h : raw.SameHeaders raw') (hfits : raw.payloadOffset ≤ raw.dataLen) :
    raw'.mem 0 = raw.mem 0 ∧ raw'.extensionOffset = raw.extensionOffset ∧
      (raw'.HasMprtp ↔ raw.HasMprtp) ∧ raw'.payloadOffset = raw.payloadOffset := by
  obtain ⟨hoff, hle⟩ := raw.offsets_le
  have h₀ : raw'.mem 0 = raw.mem 0 := h.mem hfits (by omega)
  have hoffset : raw'.extensionOffset = raw.extensionOffset := by
    unfold extensionOffset
    rw [h₀]
  refine ⟨h₀, hoffset, ?_⟩
  unfold HasMprtp RawPacket.payloadOffset
  rw [h₀, hoffset]
  by_cases hx : extensionOf (raw.mem 0) = 0
  · simp [hx]
  · have hpayload : raw.payloadOffset = raw.extensionOffset + (4 + 4 * raw.extensionWords) := if_neg hx
    rw [h.word hfits (by omega), h.word hfits (by omega)]
    exact ⟨Iff.rfl, rfl⟩

/-- Behind two words of extension, both fields are part of it. -/
theorem SameHeaders.fields (h : raw.SameHeaders raw') (hfits : raw.payloadOffset ≤ raw.dataLen)
    (hm : raw.HasMprtp) (hwords : 2 ≤ raw.extensionWords) :
    raw'.subflowIdField = raw.subflowIdField ∧ raw'.subflowSeqField = raw.subflowSeqField := by
  have hpayload := hm.payloadOffset
  have hsize : sizeofRtpExtensionHeader = 4 := rfl
  unfold subflowIdField subflowSeqField
  rw [(h.headers hfits).2.1, hsize]
  exact ⟨h.word hfits (by omega), h.word hfits (by omega)⟩

end RawPacket

/-- An accepted datagram reaches to the end of its extension, whatever its length. -/
theorem RtpPacket.parse_fits {raw : RawPacket} {pkt : RtpPacket} (h : RtpPacket.parse raw = .ok pkt) :
    ¬ raw.RefusedEarly ∧ raw.payloadOffset ≤ raw.dataLen := by
  refine ⟨?_, ?_⟩
  · intro hr
    obtain ⟨e, he⟩ := parse_refused hr
    rw [he] at h
    cases h
  · have hoffset := raw.parseExtension_payloadoffset
    have hmod : (raw.dataLen : ℤ).bmod (2 ^ 32) ≤ raw.dataLen := by
      rw [Int.bmod_def]
      split <;> omega
    unfold RtpPacket.parse parsePacket at h
    split_ifs at h
    · cases h
    · cases h
    · simp only [eval_bind, eval_byte, eval_ite, eval_pure] at h
      split_ifs at h
      unfold parsePayload at h
      extract_lets payloadlength at h
      split at h
      · cases h
      · rename_i hpos
        change ¬ (raw.dataLen : ℤ).bmod (2 ^ 32) - _ -
          ((parseExtension (raw.mem 0) raw.extensionOffset).eval raw.mem).payloadoffset < 0 at hpos
        rw [hoffset] at hpos
        omega

namespace RawPacket

/-- The headers of a datagram, and behind them six bytes `x` and one byte that counts as padding
where there is any. -/
def behindHeaders (raw : RawPacket) (x : UInt8) : RawPacket :=
  { raw with data := raw.data.take raw.payloadOffset ++ (List.replicate 6 x ++ [1]) }

variable {raw : RawPacket}

theorem behindHeaders_same (hfits : raw.payloadOffset ≤ raw.dataLen) (x : UInt8) :
    raw.SameHeaders (raw.behindHeaders x) := by
  have hlen : (raw.data.take raw.payloadOffset).length = raw.payloadOffset := List.length_take_of_le hfits
  exact List.take_left' hlen

theorem behindHeaders_mem (hfits : raw.payloadOffset ≤ raw.dataLen) (x : UInt8) :
    BytesAt (raw.behindHeaders x).mem raw.payloadOffset (List.replicate 6 x ++ [1]) := by
  have hlen : (raw.data.take raw.payloadOffset).length = raw.payloadOffset := List.length_take_of_le hfits
  have hat := bytesAt_memOf (raw.behindHeaders x).data (raw.behindHeaders x).beyond
  have hsplit := (bytesAt_append.mp hat).2
  rwa [Nat.zero_add, hlen] at hsplit

/-- It is accepted, and an MPRTP extension that is too short takes its sequence number from the
bytes `x`. -/
theorem behindHeaders_parsed {pkt : RtpPacket} (hpkt : RtpPacket.parse raw = .ok pkt)
    (hshort : raw.ShortMprtp) (x : UInt8) : ∃ pkt', RtpPacket.parse (raw.behindHeaders x) = .ok pkt' ∧
      pkt'.subflowExtseqnr = (UInt16.ofNat (x.toNat * 257)).toUInt32 := by
  obtain ⟨hr, hfits⟩ := RtpPacket.parse_fits hpkt
  obtain ⟨hm, hwords⟩ := hshort
  have hpayload := hm.payloadOffset
  have hsame := behindHeaders_same hfits x
  obtain ⟨h₀, hoffset, hm', hpayload'⟩ := hsame.headers hfits
  have hat := behindHeaders_mem hfits x
  have hbounds := raw.extensionOffset_bounds
  have hlen : (raw.behindHeaders x).dataLen = raw.payloadOffset + 7 := by
    change (raw.data.take raw.payloadOffset ++ (List.replicate 6 x ++ [1])).length = _
    rw [List.length_append, List.length_take_of_le hfits]
    simp
  have hbyte : ∀ i < 6, (raw.behindHeaders x).mem (raw.payloadOffset + i) = x := by
    intro i hi
    rw [hat i (by simp; omega), List.getD_append _ _ _ _ (by simpa using hi), List.getD_replicate _ hi]
  have hlast : (raw.behindHeaders x).mem ((raw.behindHeaders x).dataLen - 1) = 1 := by
    rw [hlen]
    exact hat 6 (by simp)
  have hr' : ¬ (raw.behindHeaders x).RefusedEarly := by
    unfold RefusedEarly at hr ⊢
    have hrtcp : (raw.behindHeaders x).isrtcp = raw.isrtcp := rfl
    rw [hrtcp, h₀, hsame.mem hfits (by omega), hlast]
    simp only [not_or] at hr ⊢
    obtain ⟨h₁, h₂, h₃, h₄, -⟩ := hr
    refine ⟨h₁, ?_, h₃, h₄, by simp⟩
    unfold sizeofRtpHeader
    omega
  have hpad : (raw.behindHeaders x).paddingSize ≤ 1 := by
    unfold paddingSize
    rw [hlast]
    split <;> decide
  have hparse := RtpPacket.parse_of_accepted hr' (by omega)
  rw [if_pos (by omega)] at hparse
  obtain ⟨pkt', hpkt', -⟩ := hparse
  refine ⟨pkt', hpkt', ?_⟩
  have hseq : (raw.behindHeaders x).subflowSeqField = UInt16.ofNat (x.toNat * 257) := by
    have hsize : sizeofRtpExtensionHeader = 4 := rfl
    obtain ⟨i, hi, hplace⟩ : ∃ i, i < 5 ∧ raw.extensionOffset + 4 + 4 = raw.payloadOffset + i :=
      ⟨4 - 4 * raw.extensionWords, by omega, by omega⟩
    unfold subflowSeqField be16
    rw [hoffset, hsize, hplace, hbyte i (by omega), Nat.add_assoc, hbyte (i + 1) (by omega)]
    rfl
  rw [(RtpPacket.parse_fields hpkt').subflowExtseqnr, if_pos (hm'.mpr hm), hseq]

end RawPacket

/-- The subflow id and the subflow sequence number of an accepted datagram are the same for all
accepted datagrams with its headers exactly when it has no MPRTP extension of less than two words. -/
theorem RtpPacket.subflow_fields_iff {raw : RawPacket} {pkt : RtpPacket}
    (hpkt : RtpPacket.parse raw = .ok pkt) :
    (∀ (raw' : RawPacket) (pkt' : RtpPacket), RtpPacket.parse raw' = .ok pkt' → raw.SameHeaders raw' →
      pkt'.subflowId = pkt.subflowId ∧ pkt'.subflowExtseqnr = pkt.subflowExtseqnr) ↔
    ¬ raw.ShortMprtp := by
  have hfields := parse_fields hpkt
  have hfits := (parse_fits hpkt).2
  constructor
  · intro h hshort
    obtain ⟨pkt₀, hpkt₀, hseq₀⟩ := RawPacket.behindHeaders_parsed hpkt hshort 0
    obtain ⟨pkt₁, hpkt₁, hseq₁⟩ := RawPacket.behindHeaders_parsed hpkt hshort 1
    have heq₀ := (h _ pkt₀ hpkt₀ (RawPacket.behindHeaders_same hfits 0)).2
    have heq₁ := (h _ pkt₁ hpkt₁ (RawPacket.behindHeaders_same hfits 1)).2
    rw [← heq₁, hseq₀, hseq₁] at heq₀
    exact absurd heq₀ (by decide)
  · intro hlong raw' pkt' hpkt' hsame
    have hfields' := parse_fields hpkt'
    obtain ⟨-, -, hm', -⟩ := hsame.headers hfits
    rw [hfields'.subflowId, hfields'.subflowExtseqnr, hfields.subflowId, hfields.subflowExtseqnr]
    by_cases hm : raw.HasMprtp
    · have hwords : 2 ≤ raw.extensionWords := by
        by_contra hlt
        exact hlong ⟨hm, by omega⟩
      obtain ⟨hid, hseq⟩ := hsame.fields hfits hm hwords
      rw [if_pos hm, if_pos (hm'.mpr hm), if_pos hm, if_pos (hm'.mpr hm), hid, hseq]
      exact ⟨rfl, rfl⟩
    · rw [if_neg hm, if_neg (mt hm'.mp hm), if_neg hm, if_neg (mt hm'.mp hm)]
      exact ⟨rfl, rfl⟩

/-- An MPRTP packet of one byte of payload, with the extension that a sender writes. -/
def twoWordRaw : RawPacket where
  data := [0x90, 0, 0, 1, 0, 0, 0, 0, 0, 0, 0xDE, 0xAD, 0xBE, 0xDE, 0, 2, 4, 4, 0, 1, 0, 7, 0, 0, 65]
  beyond := fun _ => 0
  fromAddr := ⟨0x0A000001, 23000⟩
  isrtcp := false
  recvtime := 1

theorem twoWordRaw_fields : ∃ pkt, RtpPacket.parse twoWordRaw = .ok pkt ∧ pkt.subflowId = 1 ∧
    ∀ (raw' : RawPacket) (pkt' : RtpPacket), RtpPacket.parse raw' = .ok pkt' →
      twoWordRaw.SameHeaders raw' →
        pkt'.subflowId = pkt.subflowId ∧ pkt'.subflowExtseqnr = pkt.subflowExtseqnr := by
  have hlong : ¬ twoWordRaw.ShortMprtp := by decide
  exact ⟨_, rfl, rfl, (RtpPacket.subflow_fields_iff rfl).mpr hlong⟩

/-- An MPRTP extension without a word, and six bytes of payload behind it. -/
def shortRaw (payload : List UInt8) : RawPacket :=
  { twoWordRaw with
    data := [0x90, 0, 0, 1, 0, 0, 0, 0, 0, 0, 0xDE, 0xAD, 0xBE, 0xDE, 0, 0] ++ payload }

/-- The subflow fields are read from the payload. -/
theorem subflow_fields_of_payload :
    ¬ ∀ (raw raw' : RawPacket) (pkt pkt' : RtpPacket), RtpPacket.parse raw = .ok pkt →
      RtpPacket.parse raw' = .ok pkt' → raw.SameHeaders raw' →
        pkt'.subflowId = pkt.subflowId ∧ pkt'.subflowExtseqnr = pkt.subflowExtseqnr := by
  intro h
  have hsame : (shortRaw [0, 0, 0, 1, 0, 1]).SameHeaders (shortRaw [0, 0, 0, 2, 0, 1]) := rfl
  have hid := (h _ _ _ _ rfl rfl hsame).1
  exact absurd hid (by decide)

end Mprtp
