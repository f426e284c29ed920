import Mprtp.Packet.Bounds
import Mprtp.Packet.Fields

/-! The parts of an RTP datagram, and that `parse_packet` accepts what splits into them. -/
namespace Mprtp

open ByteReader

/-- The parts of an RTP datagram, in order. -/
structure RtpParts where
  header : List UInt8
  csrcs : List UInt8
  extension : List UInt8
  payload : List UInt8
  padding : List UInt8

namespace RtpParts

def bytes (parts : RtpParts) : List UInt8 :=
  parts.header ++ (parts.csrcs ++ (parts.extension ++ (parts.payload ++ parts.padding)))

def byte0 (parts : RtpParts) : UInt8 := alone parts.header 0

def byte1 (parts : RtpParts) : UInt8 := alone parts.header 1

/-- Each part has the size that the datagram says: the CSRC count for the CSRC list, the length
field for the extension, the last byte for the padding. -/
structure WellFormed (parts : RtpParts) : Prop where
  header : parts.header.length = 12
  version : versionOf parts.byte0 = 2
  notRtcp : ¬ (markerOf parts.byte1 ≠ 0 ∧
    (payloadtypeOf parts.byte1 = 72 ∨ payloadtypeOf parts.byte1 = 73))
  csrcs : parts.csrcs.length = 4 * csrccountOf parts.byte0
  noExtension : extensionOf parts.byte0 = 0 → parts.extension = []
  extension : extensionOf parts.byte0 ≠ 0 →
    parts.extension.length = 4 + 4 * (be16 (alone parts.extension) 2).toNat
  noPadding : paddingOf parts.byte0 = 0 → parts.padding = []
  padding : paddingOf parts.byte0 ≠ 0 → 1 ≤ parts.padding.length ∧
    parts.padding.length = (alone parts.padding (parts.padding.length - 1)).toNat

end RtpParts

namespace RawPacket

variable (raw : RawPacket)

/-- The offset behind the extension. -/
def payloadOffset : ℕ :=
  if extensionOf (raw.mem 0) = 0 then raw.extensionOffset
  else raw.extensionOffset + (4 + 4 * (be16 raw.mem (raw.extensionOffset + 2)).toNat)

/-- The number of padding bytes. -/
def paddingSize : ℕ :=
  if paddingOf (raw.mem 0) = 0 then 0 else (raw.mem (raw.dataLen - 1)).toNat

theorem parseExtension_payloadoffset :
    ((parseExtension (raw.mem 0) raw.extensionOffset).eval raw.mem).payloadoffset =
      raw.payloadOffset := by
  unfold parseExtension payloadOffset
  by_cases hx : extensionOf (raw.mem 0) = 0
  · rw [if_pos hx, if_pos hx, eval_pure]
  · have hsize : sizeofRtpExtensionHeader = 4 := rfl
    rw [if_neg hx, if_neg hx]
    simp only [eval_bind, eval_u16, eval_ite, eval_pure, hsize]
    split
    · dsimp only
      omega
    · dsimp only
      omega

theorem parsePadding_size : ((parsePadding raw (raw.mem 0)).eval raw.mem).toNat = raw.paddingSize := by
  rw [parsePadding_eval]
  unfold paddingSize
  by_cases hp : paddingOf (raw.mem 0) = 0
  · rw [if_neg (not_not.mpr hp), if_pos hp]
    rfl
  · rw [if_pos hp, if_neg hp]

end RawPacket

theorem RtpPacket.parse_refused {raw : RawPacket} (hr : raw.RefusedEarly) :
    ∃ e, RtpPacket.parse raw = .error e := by
  have hpad := parsePadding_eval raw (raw.mem 0)
  unfold RawPacket.RefusedEarly at hr
  unfold RtpPacket.parse parsePacket
  simp only [eval_ite, eval_bind, eval_byte, eval_pure]
  split_ifs with h₁ h₂ h₃ h₄ h₅
  · exact ⟨_, rfl⟩
  · exact ⟨_, rfl⟩
  · exact ⟨_, rfl⟩
  · exact ⟨_, rfl⟩
  · exact ⟨_, rfl⟩
  · rcases hr with h | h | h | h | ⟨hp, hlast⟩
    · exact absurd h h₁
    · exact absurd h h₂
    · exact absurd h h₃
    · exact absurd h h₄
    · rw [if_pos hp, hlast] at hpad
      exact absurd ⟨hp, hpad⟩ h₅

/-- What `parse_packet` reports of a packet that it accepts. -/
structure RtpPacket.PartsOf (raw : RawPacket) (pkt : RtpPacket) : Prop where
  rawpack : pkt.rawpack = raw
  numcsrcs : pkt.numcsrcs = csrccountOf (raw.mem 0)
  payload : pkt.payload = raw.payloadOffset
  payloadlength : pkt.payloadlength = raw.dataLen - raw.paddingSize - raw.payloadOffset

/-- The payload is what the extension and the padding leave of the datagram. -/
theorem parsePayload_eval {raw : RawPacket} (hlen : raw.dataLen < 2 ^ 31) (b1 : UInt8) :
    let result := (parsePayload raw (raw.mem 0) b1 ((parsePadding raw (raw.mem 0)).eval raw.mem)
      ((parseExtension (raw.mem 0) raw.extensionOffset).eval raw.mem)).eval raw.mem
    if raw.payloadOffset + raw.paddingSize ≤ raw.dataLen then
      ∃ pkt, result = .ok pkt ∧ pkt.PartsOf raw
    else result = .error (-7) := by
  have hoffset := raw.parseExtension_payloadoffset
  have hsize := raw.parsePadding_size
  have hmod : (raw.dataLen : ℤ).bmod (2 ^ 32) = raw.dataLen := by
    apply Int.bmod_eq_of_le <;> omega
  dsimp only
  generalize (parseExtension (raw.mem 0) raw.extensionOffset).eval raw.mem = ext at hoffset ⊢
  generalize (parsePadding raw (raw.mem 0)).eval raw.mem = numpadbytes at hsize ⊢
  unfold parsePayload
  extract_lets payloadlength
  have hpayload : payloadlength = raw.dataLen - raw.paddingSize - raw.payloadOffset := by
    change (raw.dataLen : ℤ).bmod (2 ^ 32) - numpadbytes.toNat - ext.payloadoffset = _
    rw [hmod, hoffset, hsize]
  by_cases hfits : raw.payloadOffset + raw.paddingSize ≤ raw.dataLen
  · rw [if_pos hfits, if_neg (by omega)]
    simp only [eval_bind, eval_u16, eval_u32, eval_pure]
    refine ⟨_, rfl, rfl, rfl, hoffset, ?_⟩
    dsimp only
    omega
  · rw [if_neg hfits, if_pos (by omega), eval_pure]

/-- Behind the early returns, the payload length decides. -/
theorem RtpPacket.parse_of_accepted {raw : RawPacket} (hr : ¬ raw.RefusedEarly)
    (hlen : raw.dataLen < 2 ^ 31) :
    if raw.payloadOffset + raw.paddingSize ≤ raw.dataLen then
      ∃ pkt, RtpPacket.parse raw = .ok pkt ∧ pkt.PartsOf raw
    else RtpPacket.parse raw = .error (-7) := by
  have hpadding := parsePadding_eval raw (raw.mem 0)
  unfold RawPacket.RefusedEarly at hr
  simp only [not_or] at hr
  obtain ⟨hrtcp, hmin, hversion, hmark, hpad⟩ := hr
  have hpad' : ¬ (paddingOf (raw.mem 0) ≠ 0 ∧ (parsePadding raw (raw.mem 0)).eval raw.mem = 0) := by
    intro h
    obtain ⟨hp, hz⟩ := h
    rw [hpadding, if_pos hp] at hz
    exact hpad ⟨hp, hz⟩
  unfold RtpPacket.parse parsePacket
  rw [if_neg hrtcp, if_neg hmin]
  simp only [eval_bind, eval_byte]
  rw [if_neg hversion]
  simp only [eval_bind, eval_byte]
  rw [if_neg hmark]
  simp only [eval_bind]
  rw [if_neg hpad']
  simp only [eval_bind]
  exact parsePayload_eval hlen _

section

variable {raw : RawPacket} {parts : RtpParts}

/-- Where the parts stand in the datagram. -/
theorem RtpParts.bytesAt (hdata : raw.data = parts.bytes) :
    BytesAt raw.mem 0 parts.header ∧ BytesAt raw.mem parts.header.length parts.csrcs ∧
      BytesAt raw.mem (parts.header.length + parts.csrcs.length) parts.extension ∧
      BytesAt raw.mem (parts.header.length + parts.csrcs.length + parts.extension.length) parts.payload ∧
      BytesAt raw.mem (parts.header.length + parts.csrcs.length + parts.extension.length +
        parts.payload.length) parts.padding := by
  have hat : BytesAt raw.mem 0 parts.bytes := hdata ▸ bytesAt_memOf raw.data raw.beyond
  unfold bytes at hat
  simp only [bytesAt_append, Nat.zero_add] at hat
  exact hat

theorem RtpParts.dataLen_eq (hdata : raw.data = parts.bytes) :
    raw.dataLen = parts.header.length + parts.csrcs.length + parts.extension.length +
      parts.payload.length + parts.padding.length := by
  unfold RawPacket.dataLen
  rw [hdata]
  unfold bytes
  simp only [List.length_append]
  omega

/-- The two bytes of bit-fields. -/
theorem RtpParts.header_mem (hdata : raw.data = parts.bytes) (hheader : parts.header.length = 12) :
    raw.mem 0 = parts.byte0 ∧ raw.mem 1 = parts.byte1 := by
  have hat := (bytesAt hdata).1
  have h₀ : raw.mem (0 + 0) = parts.byte0 := hat.byte_at (k := 0) (fun _ => 0) (by omega)
  have h₁ : raw.mem (0 + 1) = parts.byte1 := hat.byte_at (k := 1) (fun _ => 0) (by omega)
  exact ⟨h₀, h₁⟩

theorem RtpParts.padding_mem (hdata : raw.data = parts.bytes) (hpadding : 1 ≤ parts.padding.length) :
    raw.mem (raw.dataLen - 1) = alone parts.padding (parts.padding.length - 1) := by
  obtain ⟨-, -, -, -, hat⟩ := bytesAt hdata
  rw [dataLen_eq hdata, Nat.add_sub_assoc hpadding]
  exact hat.byte_at _ (by omega)

/-- The sizes that `parse_packet` works with are those of the parts. -/
theorem RtpParts.WellFormed.sizes (h : parts.WellFormed) (hdata : raw.data = parts.bytes) :
    raw.payloadOffset = 12 + parts.csrcs.length + parts.extension.length ∧
      raw.paddingSize = parts.padding.length := by
  obtain ⟨-, -, hextension, -⟩ := bytesAt hdata
  obtain ⟨h₀, -⟩ := header_mem hdata h.header
  have hoff : raw.extensionOffset = 12 + parts.csrcs.length := by
    unfold RawPacket.extensionOffset sizeofRtpHeader
    rw [h₀, h.csrcs, Nat.mul_comm]
  constructor
  · unfold RawPacket.payloadOffset
    rw [h₀]
    by_cases hx : extensionOf parts.byte0 = 0
    · rw [if_pos hx, hoff, h.noExtension hx]
      rfl
    · have hlength := h.extension hx
      have hword : be16 raw.mem (raw.extensionOffset + 2) = be16 (alone parts.extension) 2 := by
        rw [hoff, ← h.header]
        exact hextension.be16_at _ (by omega)
      rw [if_neg hx, hword, hoff, hlength]
  · unfold RawPacket.paddingSize
    rw [h₀]
    by_cases hp : paddingOf parts.byte0 = 0
    · rw [if_pos hp, h.noPadding hp]
      rfl
    · obtain ⟨hpos, hlast⟩ := h.padding hp
      rw [if_neg hp, padding_mem hdata hpos, ← hlast]

theorem RtpParts.WellFormed.not_refused (h : parts.WellFormed) (hdata : raw.data = parts.bytes)
    (hrtcp : raw.isrtcp = false) : ¬ raw.RefusedEarly := by
  obtain ⟨h₀, h₁⟩ := header_mem hdata h.header
  have hlen := dataLen_eq hdata
  have hheader := h.header
  intro hr
  unfold RawPacket.RefusedEarly at hr
  rw [h₀, h₁, hrtcp] at hr
  rcases hr with hr | hr | hr | hr | ⟨hp, hzero⟩
  · cases hr
  · unfold sizeofRtpHeader at hr
    omega
  · exact hr h.version
  · exact h.notRtcp hr
  · obtain ⟨hpos, hlast⟩ := h.padding hp
    rw [padding_mem hdata hpos] at hzero
    rw [hzero] at hlast
    rw [hlast] at hpos
    cases hpos

end

/-- Consecutive parts of a list. -/
theorem take_drop_append {α : Type} (l : List α) {a b : ℕ} (hab : a ≤ b) :
    (l.drop a).take (b - a) ++ l.drop b = l.drop a := by
  have hdrop : l.drop b = (l.drop a).drop (b - a) := by
    rw [List.drop_drop, Nat.add_sub_of_le hab]
  rw [hdrop, List.take_append_drop]

/-- A datagram cut where `parse_packet` cuts it. -/
def RawPacket.parts (raw : RawPacket) : RtpParts where
  header := raw.data.take 12
  csrcs := (raw.data.drop 12).take (raw.extensionOffset - 12)
  extension := (raw.data.drop raw.extensionOffset).take (raw.payloadOffset - raw.extensionOffset)
  payload := (raw.data.drop raw.payloadOffset).take
    (raw.dataLen - raw.paddingSize - raw.payloadOffset)
  padding := raw.data.drop (raw.dataLen - raw.paddingSize)

theorem RawPacket.offsets_le (raw : RawPacket) :
    raw.extensionOffset = 12 + 4 * csrccountOf (raw.mem 0) ∧
      raw.extensionOffset ≤ raw.payloadOffset := by
  have hoff : raw.extensionOffset = 12 + csrccountOf (raw.mem 0) * 4 := rfl
  refine ⟨by omega, ?_⟩
  unfold payloadOffset
  split <;> omega

theorem RawPacket.parts_bytes {raw : RawPacket}
    (hfits : raw.payloadOffset + raw.paddingSize ≤ raw.dataLen) : raw.data = raw.parts.bytes := by
  obtain ⟨hoff, hle⟩ := raw.offsets_le
  unfold parts RtpParts.bytes
  rw [take_drop_append _ (by omega), take_drop_append _ hle,
    take_drop_append _ (by omega), List.take_append_drop]

theorem RawPacket.parts_length {raw : RawPacket}
    (hfits : raw.payloadOffset + raw.paddingSize ≤ raw.dataLen) :
    raw.parts.header.length = 12 ∧ raw.parts.csrcs.length = 4 * csrccountOf (raw.mem 0) ∧
      raw.parts.extension.length = raw.payloadOffset - raw.extensionOffset ∧
      raw.parts.padding.length = raw.paddingSize := by
  obtain ⟨hoff, hle⟩ := raw.offsets_le
  have hdata : raw.dataLen = raw.data.length := rfl
  unfold parts
  simp only [List.length_take, List.length_drop]
  omega

/-- A datagram that is accepted splits. -/
theorem RawPacket.parts_wellFormed {raw : RawPacket} (hr : ¬ raw.RefusedEarly)
    (hfits : raw.payloadOffset + raw.paddingSize ≤ raw.dataLen) : raw.parts.WellFormed := by
  have hdata := parts_bytes hfits
  obtain ⟨hheader, hcsrcs, hextension, hpadding⟩ := parts_length hfits
  obtain ⟨h₀, h₁⟩ := RtpParts.header_mem hdata hheader
  obtain ⟨hoff, hle⟩ := raw.offsets_le
  unfold RefusedEarly at hr
  simp only [not_or, ne_eq, not_not] at hr
  obtain ⟨-, -, hversion, hmark, hlast⟩ := hr
  constructor
  · exact hheader
  · rw [← h₀]
    exact hversion
  · rw [← h₁]
    exact hmark
  · rw [hcsrcs, h₀]
  · intro hx
    rw [← h₀] at hx
    apply List.eq_nil_of_length_eq_zero
    rw [hextension]
    unfold payloadOffset
    rw [if_pos hx, Nat.sub_self]
  · intro hx
    rw [← h₀] at hx
    have hlength : raw.parts.extension.length =
        4 + 4 * (be16 raw.mem (raw.extensionOffset + 2)).toNat := by
      rw [hextension]
      unfold payloadOffset
      rw [if_neg hx, Nat.add_sub_cancel_left]
    obtain ⟨-, -, hat, -⟩ := RtpParts.bytesAt hdata
    have hword : be16 raw.mem (raw.extensionOffset + 2) = be16 (alone raw.parts.extension) 2 := by
      rw [hoff, ← hheader, ← hcsrcs]
      exact hat.be16_at _ (by omega)
    rw [hlength, hword]
  · intro hp
    rw [← h₀] at hp
    apply List.eq_nil_of_length_eq_zero
    rw [hpadding]
    exact if_pos hp
  · intro hp
    rw [← h₀] at hp
    have hsize : raw.parts.padding.length = (raw.mem (raw.dataLen - 1)).toNat := by
      rw [hpadding]
      exact if_neg hp
    have hpos : 1 ≤ raw.parts.padding.length := by
      rw [hsize, Nat.one_le_iff_ne_zero]
      intro hzero
      exact hlast ⟨hp, UInt8.toNat_inj.mp hzero⟩
    exact ⟨hpos, hsize.trans (congrArg _ (RtpParts.padding_mem hdata hpos))⟩

/-- A datagram that splits is accepted. -/
theorem RtpParts.WellFormed.accepted {raw : RawPacket} {parts : RtpParts} (h : parts.WellFormed)
    (hdata : raw.data = parts.bytes) (hrtcp : raw.isrtcp = false) (hlen : raw.dataLen < 2 ^ 31) :
    ∃ pkt, RtpPacket.parse raw = .ok pkt ∧ pkt.PartsOf raw := by
  obtain ⟨hoffset, hsize⟩ := h.sizes hdata
  have hlength := dataLen_eq hdata
  have hparse := RtpPacket.parse_of_accepted (h.not_refused hdata hrtcp) hlen
  rw [h.header] at hlength
  rwa [if_pos (by omega)] at hparse

theorem RtpPacket.parts_of_parse {raw : RawPacket} {pkt : RtpPacket}
    (hpkt : RtpPacket.parse raw = .ok pkt) (hlen : raw.dataLen < 2 ^ 31) :
    ∃ parts : RtpParts, parts.WellFormed ∧ raw.data = parts.bytes := by
  have hr : ¬ raw.RefusedEarly := by
    intro hr
    obtain ⟨e, he⟩ := parse_refused hr
    rw [he] at hpkt
    cases hpkt
  have hparse := parse_of_accepted hr hlen
  by_cases hfits : raw.payloadOffset + raw.paddingSize ≤ raw.dataLen
  · exact ⟨raw.parts, RawPacket.parts_wellFormed hr hfits, RawPacket.parts_bytes hfits⟩
  · rw [if_neg hfits, hpkt] at hparse
    cases hparse

/-- The payload and the CSRC words are those of the split. -/
theorem RtpPacket.PartsOf.parts {raw : RawPacket} {pkt : RtpPacket} {parts : RtpParts}
    (hpkt : pkt.PartsOf raw) (h : parts.WellFormed) (hdata : raw.data = parts.bytes) :
    pkt.payload = (parts.header ++ parts.csrcs ++ parts.extension).length ∧
      pkt.payloadlength = parts.payload.length ∧
      pkt.payloadData = parts.payload ∧
      4 * pkt.csrcCount = parts.csrcs.length ∧
      ∀ i < pkt.csrcCount, pkt.csrc i = be32 (alone parts.csrcs) (4 * i) := by
  obtain ⟨hoffset, hsize⟩ := h.sizes hdata
  obtain ⟨h₀, -⟩ := RtpParts.header_mem hdata h.header
  obtain ⟨-, hat, -, hpayloadAt, -⟩ := RtpParts.bytesAt hdata
  have hlength := RtpParts.dataLen_eq hdata
  have hpayload : pkt.payload = parts.header.length + parts.csrcs.length + parts.extension.length := by
    rw [hpkt.payload, hoffset, h.header]
  have hcount : 4 * pkt.csrcCount = parts.csrcs.length := by
    unfold csrcCount
    rw [hpkt.numcsrcs, h₀, h.csrcs]
  rw [h.header] at hlength
  have hpayloadlength : pkt.payloadlength = parts.payload.length := by
    rw [hpkt.payloadlength, hoffset, hsize]
    omega
  refine ⟨?_, hpayloadlength, ?_, hcount, ?_⟩
  · rw [hpayload, List.length_append, List.length_append]
  · unfold payloadData
    rw [hpkt.rawpack, hpayload, hpayloadlength]
    exact hpayloadAt.map_range
  · intro i hi
    have hword : be32 raw.mem (parts.header.length + 4 * i) = be32 (alone parts.csrcs) (4 * i) :=
      hat.be32_at _ (by omega)
    unfold csrc
    rw [hpkt.rawpack, ← hword, h.header, Nat.mul_comm i 4]
    rfl

/-- `parse_packet` accepts the datagrams that split into well-formed parts, whatever lies in memory
behind them; it finds the payload of the split, and `get_csrc` its CSRC words. A datagram comes from
`recvfrom` with a buffer of 65535 bytes, so its length fits an `int`. -/
theorem RtpPacket.parse_ok_iff {raw : RawPacket} (hrtcp : raw.isrtcp = false)
    (hlen : raw.dataLen < 2 ^ 31) :
    ((∃ pkt, RtpPacket.parse raw = .ok pkt) ↔
      ∃ parts : RtpParts, parts.WellFormed ∧ raw.data = parts.bytes) ∧
    ∀ (pkt : RtpPacket) (parts : RtpParts), RtpPacket.parse raw = .ok pkt →
      parts.WellFormed → raw.data = parts.bytes →
      pkt.payload = (parts.header ++ parts.csrcs ++ parts.extension).length ∧
      pkt.payloadlength = parts.payload.length ∧
      (raw.data.drop pkt.payload).take pkt.payloadlength = parts.payload ∧
      pkt.payloadData = parts.payload ∧
      4 * pkt.csrcCount = parts.csrcs.length ∧
      ∀ i < pkt.csrcCount, pkt.csrc i = be32 (alone parts.csrcs) (4 * i) := by
  constructor
  · constructor
    · intro h
      obtain ⟨pkt, hpkt⟩ := h
      exact parts_of_parse hpkt hlen
    · intro h
      obtain ⟨parts, hparts, hdata⟩ := h
      obtain ⟨pkt, hpkt, -⟩ := hparts.accepted hdata hrtcp hlen
      exact ⟨pkt, hpkt⟩
  · intro pkt parts hpkt hparts hdata
    obtain ⟨pkt', hpkt', hof⟩ := hparts.accepted hdata hrtcp hlen
    rw [hpkt'] at hpkt
    cases hpkt
    obtain ⟨hpayload, hpayloadlength, hpayloadData, hcount, hcsrc⟩ := hof.parts hparts hdata
    refine ⟨hpayload, hpayloadlength, ?_, hpayloadData, hcount, hcsrc⟩
    rw [hpayload, hpayloadlength, hdata]
    unfold RtpParts.bytes
    rw [← List.append_assoc, ← List.append_assoc, List.drop_left, List.take_left]

/-- Two CSRCs, an extension of one word, the payload 1 2 3 and two bytes of padding. -/
def paddedParts : RtpParts where
  header := [0xB2, 96, 0, 7, 0, 0, 0, 1, 0, 0, 0xDE, 0xAD]
  csrcs := [0, 0, 0, 5, 1, 2, 3, 4]
  extension := [0xAB, 0xCD, 0, 1, 9, 9, 9, 9]
  payload := [1, 2, 3]
  padding := [0, 2]

theorem paddedParts_wellFormed : paddedParts.WellFormed := by
  constructor <;> decide

def paddedRaw : RawPacket := ⟨paddedParts.bytes, fun _ => 0xFF, ⟨0x0A000001, 23000⟩, false, 1⟩

theorem paddedRaw_parsed : ∃ pkt, RtpPacket.parse paddedRaw = .ok pkt ∧
    pkt.payload = 28 ∧ pkt.payloadlength = 3 ∧ pkt.payloadData = [1, 2, 3] ∧
      pkt.csrcCount = 2 ∧ pkt.csrc 1 = 0x01020304 := by
  have hlen : paddedRaw.dataLen < 2 ^ 31 := by decide
  have hrtcp : paddedRaw.isrtcp = false := rfl
  obtain ⟨hiff, hparsed⟩ := RtpPacket.parse_ok_iff hrtcp hlen
  obtain ⟨pkt, hpkt⟩ := hiff.mpr ⟨paddedParts, paddedParts_wellFormed, rfl⟩
  obtain ⟨hpayload, hpayloadlength, -, hpayloadData, hcount, hcsrc⟩ :=
    hparsed pkt paddedParts hpkt paddedParts_wellFormed rfl
  have hcount' : 4 * pkt.csrcCount = 8 := hcount
  refine ⟨pkt, hpkt, hpayload, hpayloadlength, hpayloadData, by omega, ?_⟩
  rw [hcsrc 1 (by omega)]
  decide

end Mprtp
