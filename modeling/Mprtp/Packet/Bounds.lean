import Mprtp.Packet
import Mathlib.Tactic.Tauto

/-! Which bytes `parse_packet` reads: the fixed header is checked first, the header
extension is not. -/
namespace Mprtp

open ByteReader

/-- The extension header behind the CSRC list, and for MPRTP the subflow id and the subflow
sequence number, lie inside the datagram. -/
def RawPacket.ExtensionInside (raw : RawPacket) : Prop :=
  let off := sizeofRtpHeader + csrccountOf (raw.mem 0) * 4
  off + 4 ≤ raw.dataLen ∧ (be16 raw.mem off = mprtpExtensionId → off + 10 ≤ raw.dataLen)

/-- `parse_packet` returns before it looks at the X bit. -/
def RawPacket.RefusedEarly (raw : RawPacket) : Prop :=
  raw.isrtcp ∨ raw.dataLen < sizeofRtpHeader ∨ versionOf (raw.mem 0) ≠ rtpVersion ∨
    (markerOf (raw.mem 1) ≠ 0 ∧ (payloadtypeOf (raw.mem 1) = 72 ∨ payloadtypeOf (raw.mem 1) = 73)) ∨
    (paddingOf (raw.mem 0) ≠ 0 ∧ raw.mem (raw.dataLen - 1) = 0)

theorem parsePadding_eval (raw : RawPacket) (b0 : UInt8) :
    (parsePadding raw b0).eval raw.mem =
      if paddingOf b0 ≠ 0 then raw.mem (raw.dataLen - 1) else 0 := by
  simp [parsePadding]

theorem parsePadding_readsIn (raw : RawPacket) (b0 : UInt8) (h : sizeofRtpHeader ≤ raw.dataLen) :
    (parsePadding raw b0).ReadsIn (· < raw.dataLen) raw.mem := by
  have hlast : raw.dataLen - 1 < raw.dataLen := by
    simp only [sizeofRtpHeader] at h
    omega
  unfold parsePadding
  split <;> simp [hlast]

theorem parseExtension_readsIn (raw : RawPacket) (b0 : UInt8) (off : ℕ) :
    (parseExtension b0 off).ReadsIn (· < raw.dataLen) raw.mem ↔
      (extensionOf b0 ≠ 0 →
        off + 4 ≤ raw.dataLen ∧ (be16 raw.mem off = mprtpExtensionId → off + 10 ≤ raw.dataLen)) := by
  by_cases hx : extensionOf b0 = 0
  · simp [parseExtension, hx]
  · by_cases hid : be16 raw.mem off = mprtpExtensionId
    · simp [parseExtension, hx, hid, sizeofRtpExtensionHeader]
      omega
    · simp [parseExtension, hx, hid]
      omega

theorem parsePacket_readsIn_of_refused (raw : RawPacket) (hr : raw.RefusedEarly) :
    (parsePacket raw).ReadsIn (· < raw.dataLen) raw.mem := by
  by_cases hrtcp : raw.isrtcp
  · simp [parsePacket, hrtcp]
  by_cases hlen : raw.dataLen < sizeofRtpHeader
  · simp [parsePacket, hlen]
  have hin : ∀ i < sizeofRtpHeader, i < raw.dataLen := fun i hi => by omega
  have hpay := parsePadding_readsIn raw (raw.mem 0) (not_lt.mp hlen)
  simp only [sizeofRtpHeader] at hin
  unfold parsePacket
  rw [if_neg hrtcp, if_neg hlen]
  by_cases hver : versionOf (raw.mem 0) = rtpVersion
  · by_cases hmark : markerOf (raw.mem 1) ≠ 0 ∧
        (payloadtypeOf (raw.mem 1) = 72 ∨ payloadtypeOf (raw.mem 1) = 73)
    · simp [hver, hmark, hin]
    · obtain ⟨hp, hz⟩ : paddingOf (raw.mem 0) ≠ 0 ∧ raw.mem (raw.dataLen - 1) = 0 := by
        simp only [RawPacket.RefusedEarly] at hr
        tauto
      simp [hver, hmark, hin, hpay, parsePadding_eval, hp, hz]
  · simp [hver, hin]

theorem parsePayload_readsIn (raw : RawPacket) (b0 b1 numpadbytes : UInt8) (ext : Extension)
    (h : sizeofRtpHeader ≤ raw.dataLen) :
    (parsePayload raw b0 b1 numpadbytes ext).ReadsIn (· < raw.dataLen) raw.mem := by
  have hin : ∀ i < sizeofRtpHeader, i < raw.dataLen := fun i hi => by omega
  simp only [sizeofRtpHeader] at hin
  unfold parsePayload
  extract_lets payloadlength
  split <;> simp [hin]

/-- Behind the early returns, the extension is the only part whose reads are not guarded. -/
theorem parsePacket_readsIn_of_accepted (raw : RawPacket) (hr : ¬ raw.RefusedEarly) :
    (parsePacket raw).ReadsIn (· < raw.dataLen) raw.mem ↔
      (extensionOf (raw.mem 0) ≠ 0 → raw.ExtensionInside) := by
  simp only [RawPacket.RefusedEarly, not_or, not_lt, not_not, ne_eq] at hr
  obtain ⟨hrtp, hlen, hver, hmark, hpad⟩ := hr
  have hpadv : ¬ (paddingOf (raw.mem 0) ≠ 0 ∧ (parsePadding raw (raw.mem 0)).eval raw.mem = 0) := by
    intro h
    obtain ⟨hp, hz⟩ := h
    rw [parsePadding_eval, if_pos hp] at hz
    exact hpad ⟨hp, hz⟩
  have h0 : 0 < raw.dataLen := lt_of_lt_of_le (by decide) hlen
  have h1 : 1 < raw.dataLen := lt_of_lt_of_le (by decide) hlen
  unfold parsePacket
  rw [if_neg hrtp, if_neg (not_lt.mpr hlen)]
  simp only [readsIn_bind, readsIn_byte, eval_byte, hver, ne_eq,
    not_true_eq_false, if_false, hmark, parsePadding_readsIn raw _ hlen, hpadv,
    parseExtension_readsIn, parsePayload_readsIn raw _ _ _ _ hlen, h0, h1, true_and, and_true,
    RawPacket.ExtensionInside]

/-- `parse_packet` reads inside the datagram exactly when it returns before the X bit, or the
X bit is clear, or the extension header and the MPRTP fields it announces are there. -/
theorem parsePacket_readsIn_iff (raw : RawPacket) :
    (parsePacket raw).ReadsIn (· < raw.dataLen) raw.mem ↔
      raw.RefusedEarly ∨ extensionOf (raw.mem 0) = 0 ∨ raw.ExtensionInside := by
  by_cases hr : raw.RefusedEarly
  · refine ⟨fun _ => .inl hr, fun _ => ?_⟩
    exact parsePacket_readsIn_of_refused raw hr
  · rw [parsePacket_readsIn_of_accepted raw hr]
    tauto

/-- A fixed header with the X bit and nothing behind it. -/
def headerOnlyPacket : RawPacket where
  data := [0x90, 0, 0, 1, 0, 0, 0, 0, 0, 0, 0xDE, 0xAD]
  beyond := fun _ => 0
  fromAddr := ⟨0x0A000001, 23000⟩
  isrtcp := false
  recvtime := 1

theorem parsePacket_reads_behind_datagram :
    ¬ ∀ raw : RawPacket, raw.isrtcp = false →
      (parsePacket raw).ReadsIn (· < raw.dataLen) raw.mem := by
  intro h
  exact absurd (h headerOnlyPacket rfl) (by decide)

end Mprtp
