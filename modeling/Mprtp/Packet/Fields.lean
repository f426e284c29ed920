import Mprtp.Packet

/-! The fields of an accepted RTP packet, as the bytes of its datagram give them. -/
namespace Mprtp

open ByteReader

namespace RawPacket

variable (raw : RawPacket)

/-- The sequence number in the fixed header. -/
def headerSequence : UInt16 := be16 raw.mem 2

/-- The offset of the header extension, behind the CSRC list. -/
def extensionOffset : ℕ := sizeofRtpHeader + csrccountOf (raw.mem 0) * 4

/-- The datagram has the X bit set and a header extension with the MPRTP id. -/
def HasMprtp : Prop :=
  extensionOf (raw.mem 0) ≠ 0 ∧ be16 raw.mem raw.extensionOffset = mprtpExtensionId

instance : Decidable raw.HasMprtp := inferInstanceAs (Decidable (_ ∧ _))

/-- The field `subflow_seq` of an MPRTP extension. -/
def subflowSeqField : UInt16 := be16 raw.mem (raw.extensionOffset + sizeofRtpExtensionHeader + 4)

/-- The field `subflow_id` of an MPRTP extension. -/
def subflowIdField : UInt16 := be16 raw.mem (raw.extensionOffset + sizeofRtpExtensionHeader + 2)

end RawPacket

theorem parseExtension_eval (raw : RawPacket) :
    let ext := (parseExtension (raw.mem 0) raw.extensionOffset).eval raw.mem
    (extensionOf (raw.mem 0) ≠ 0 ∧ ext.extid = mprtpExtensionId ↔ raw.HasMprtp) ∧
      ext.subflowExtseqnr = (if raw.HasMprtp then raw.subflowSeqField else 0).toUInt32 ∧
      ext.subflowId = if raw.HasMprtp then raw.subflowIdField else 0 := by
  unfold parseExtension RawPacket.HasMprtp
  by_cases hx : extensionOf (raw.mem 0) = 0
  · simp [hx]
  · by_cases hid : be16 raw.mem raw.extensionOffset = mprtpExtensionId
    · simp [hx, hid, RawPacket.subflowSeqField, RawPacket.subflowIdField]
    · simp [hx, hid]

/-- What an accepted packet holds. -/
structure RtpPacket.FieldsOf (raw : RawPacket) (pkt : RtpPacket) : Prop where
  rawpack : pkt.rawpack = raw
  isMprtpPacket : pkt.isMprtpPacket = true ↔ raw.HasMprtp
  extseqnr : pkt.extseqnr = raw.headerSequence.toUInt32
  subflowExtseqnr :
    pkt.subflowExtseqnr = (if raw.HasMprtp then raw.subflowSeqField else 0).toUInt32
  subflowId : pkt.subflowId = if raw.HasMprtp then raw.subflowIdField else 0
  timestamp : pkt.timestamp = be32 raw.mem 4
  ssrc : pkt.ssrc = be32 raw.mem 8

theorem parsePayload_fields {raw : RawPacket} {b1 numpadbytes : UInt8} {pkt : RtpPacket}
    (h : (parsePayload raw (raw.mem 0) b1 numpadbytes
      ((parseExtension (raw.mem 0) raw.extensionOffset).eval raw.mem)).eval raw.mem = .ok pkt) :
    pkt.FieldsOf raw := by
  obtain ⟨hm, hseq, hid⟩ := parseExtension_eval raw
  unfold parsePayload at h
  extract_lets payloadlength at h
  split at h
  · cases h
  · simp only [eval_bind, eval_u16, eval_u32, eval_pure] at h
    cases h
    refine ⟨rfl, ?_, rfl, hseq, hid, rfl, rfl⟩
    rw [← hm]
    simp [RtpPacket.isMprtpPacket]

theorem RtpPacket.parse_fields {raw : RawPacket} {pkt : RtpPacket}
    (h : RtpPacket.parse raw = .ok pkt) : pkt.FieldsOf raw := by
  unfold RtpPacket.parse parsePacket at h
  split_ifs at h
  · cases h
  · cases h
  · simp only [eval_bind, eval_byte, eval_ite, eval_pure] at h
    split_ifs at h
    exact parsePayload_fields h

end Mprtp
