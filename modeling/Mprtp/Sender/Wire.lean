import Mprtp.Sender
import Mprtp.Packet.Splits
import Mathlib.Tactic.IntervalCases

/-! The datagram that `send_data` builds, parsed by its receiver. -/
namespace Mprtp

open ByteReader SenderData

section

variable (seq : UInt16) (timestamp ssrc : UInt32) (subflowId subflowSeq : UInt16)
  (payload : List UInt8)

/-- The 24 bytes in front of the payload. -/
def rtpPrefix : List UInt8 := rtpBytes seq timestamp ssrc subflowId subflowSeq []

theorem rtpPrefix_length : (rtpPrefix seq timestamp ssrc subflowId subflowSeq).length = 24 := rfl

theorem rtpBytes_eq : rtpBytes seq timestamp ssrc subflowId subflowSeq payload =
    rtpPrefix seq timestamp ssrc subflowId subflowSeq ++ payload := by
  unfold rtpPrefix rtpBytes
  simp only [List.append_assoc, List.append_nil]

theorem rtpBytes_length : (rtpBytes seq timestamp ssrc subflowId subflowSeq payload).length =
    24 + payload.length := by
  rw [rtpBytes_eq, List.length_append, rtpPrefix_length]

/-- Cutting a datagram behind its header cuts the payload. -/
theorem take_rtpBytes {n : ℕ} (hn : 24 ≤ n) :
    (rtpBytes seq timestamp ssrc subflowId subflowSeq payload).take n =
      rtpBytes seq timestamp ssrc subflowId subflowSeq (payload.take (n - 24)) := by
  rw [rtpBytes_eq, rtpBytes_eq, List.take_append, rtpPrefix_length,
    List.take_of_length_le (by rw [rtpPrefix_length]; exact hn)]

end

variable {seq : UInt16} {timestamp ssrc : UInt32} {subflowId subflowSeq : UInt16}
  {payload : List UInt8} {raw : RawPacket}

theorem mem_rtpBytes (hdata : raw.data = rtpBytes seq timestamp ssrc subflowId subflowSeq payload)
    {i : ℕ} (hi : i < 24) :
    raw.mem i = (rtpPrefix seq timestamp ssrc subflowId subflowSeq).getD i 0 := by
  have hlt : i < (rtpPrefix seq timestamp ssrc subflowId subflowSeq).length := hi
  unfold RawPacket.mem
  rw [hdata, rtpBytes_eq, memOf_append_left hlt]
  exact (memOf_of_lt hlt : memOf _ _ i = memOf _ (fun _ => 0) i)

theorem be16_rtpBytes (hdata : raw.data = rtpBytes seq timestamp ssrc subflowId subflowSeq payload)
    {i : ℕ} {v : UInt16} (hi : i + 1 < 24)
    (hv : ∀ k < 2, (rtpPrefix seq timestamp ssrc subflowId subflowSeq).getD (i + k) 0 =
      (bytes16 v).getD k 0) : be16 raw.mem i = v := by
  apply be16_bytes16
  intro k hk
  rw [mem_rtpBytes hdata (by omega), hv k hk]

/-- What the receiver finds in the datagram. -/
structure RawPacket.Carries (raw : RawPacket) (seq : UInt16) (ssrc : UInt32)
    (subflowId subflowSeq : UInt16) : Prop where
  headerSequence : raw.headerSequence = seq
  hasMprtp : raw.HasMprtp
  subflowId : raw.subflowIdField = subflowId
  subflowSeq : raw.subflowSeqField = subflowSeq
  ssrc : be32 raw.mem 8 = ssrc

theorem carries_rtpBytes
    (hdata : raw.data = rtpBytes seq timestamp ssrc subflowId subflowSeq payload) :
    raw.Carries seq ssrc subflowId subflowSeq := by
  have hb0 : raw.mem 0 = 0x90 := mem_rtpBytes hdata (by decide)
  have hoff : raw.extensionOffset = 12 := by
    unfold RawPacket.extensionOffset
    rw [hb0]
    rfl
  refine ⟨?_, ⟨?_, ?_⟩, ?_, ?_, ?_⟩
  · apply be16_rtpBytes hdata (by decide)
    intro k hk
    interval_cases k <;> rfl
  · rw [hb0]
    decide
  · rw [hoff]
    apply be16_rtpBytes hdata (by decide)
    intro k hk
    interval_cases k <;> rfl
  · unfold RawPacket.subflowIdField
    rw [hoff]
    apply be16_rtpBytes hdata (by decide)
    intro k hk
    interval_cases k <;> rfl
  · unfold RawPacket.subflowSeqField
    rw [hoff]
    apply be16_rtpBytes hdata (by decide)
    intro k hk
    interval_cases k <;> rfl
  · apply be32_bytes32
    intro k hk
    rw [mem_rtpBytes hdata (by omega)]
    interval_cases k <;> rfl

/-- A receiver that accepts the datagram finds the numbers it was built with. -/
theorem parse_numbers {pkt : RtpPacket}
    (hdata : raw.data = rtpBytes seq timestamp ssrc subflowId subflowSeq payload)
    (hparse : RtpPacket.parse raw = .ok pkt) :
    pkt.ssrc = ssrc ∧ pkt.subflowId = subflowId ∧ pkt.subflowExtseqnr = subflowSeq.toUInt32 := by
  have hfields := RtpPacket.parse_fields hparse
  have hcarries := carries_rtpBytes hdata
  refine ⟨?_, ?_, ?_⟩
  · rw [hfields.ssrc, hcarries.ssrc]
  · rw [hfields.subflowId, if_pos hcarries.hasMprtp, hcarries.subflowId]
  · rw [hfields.subflowExtseqnr, if_pos hcarries.hasMprtp, hcarries.subflowSeq]

theorem timestamp_rtpBytes
    (hdata : raw.data = rtpBytes seq timestamp ssrc subflowId subflowSeq payload) :
    be32 raw.mem 4 = timestamp := by
  apply be32_bytes32
  intro k hk
  rw [mem_rtpBytes hdata (by omega)]
  interval_cases k <;> rfl

theorem payloadAt_rtpBytes
    (hdata : raw.data = rtpBytes seq timestamp ssrc subflowId subflowSeq payload) :
    BytesAt raw.mem 24 payload := by
  have hat : BytesAt raw.mem 0 (rtpBytes seq timestamp ssrc subflowId subflowSeq payload) :=
    hdata ▸ bytesAt_memOf raw.data raw.beyond
  rw [rtpBytes_eq, bytesAt_append, rtpPrefix_length, Nat.zero_add] at hat
  exact hat.2

/-- The receiver accepts the datagram and finds the payload behind the 24 bytes. -/
theorem parse_rtpBytes (hrtcp : raw.isrtcp = false)
    (hdata : raw.data = rtpBytes seq timestamp ssrc subflowId subflowSeq payload)
    (hlen : payload.length + 24 < 2 ^ 31) :
    ∃ pkt, RtpPacket.parse raw = .ok pkt ∧ pkt.payload = 24 ∧
      pkt.payloadlength = payload.length ∧ pkt.payloadData = payload := by
  have hb0 : raw.mem 0 = 0x90 := mem_rtpBytes hdata (by decide)
  have hb1 : raw.mem 1 = 0 := mem_rtpBytes hdata (by decide)
  have hdatalen : raw.dataLen = 24 + payload.length := by
    unfold RawPacket.dataLen
    rw [hdata, rtpBytes_length]
  have hoff : raw.extensionOffset = 12 := by
    unfold RawPacket.extensionOffset
    rw [hb0]
    rfl
  have hword : be16 raw.mem 14 = 2 := by
    apply be16_rtpBytes hdata (by decide)
    intro k hk
    interval_cases k <;> rfl
  have hpayload : raw.payloadOffset = 24 := by
    unfold RawPacket.payloadOffset
    rw [hb0, hoff, hword]
    rfl
  have hpadding : raw.paddingSize = 0 := by
    unfold RawPacket.paddingSize
    rw [hb0]
    rfl
  have hr : ¬ raw.RefusedEarly := by
    have hbits : versionOf 0x90 = rtpVersion ∧ markerOf 0 = 0 ∧ paddingOf 0x90 = 0 := by decide
    obtain ⟨hversion, hmarker, hnone⟩ := hbits
    unfold RawPacket.RefusedEarly sizeofRtpHeader
    rw [hrtcp, hdatalen, hb0, hb1, hversion, hmarker, hnone]
    simp only [Bool.false_eq_true, ne_eq, not_true_eq_false, false_and, or_false, false_or]
    omega
  have hparse := RtpPacket.parse_of_accepted hr (by omega)
  rw [if_pos (by omega)] at hparse
  obtain ⟨pkt, hpkt, hparts⟩ := hparse
  have hoffset : pkt.payload = 24 := hparts.payload.trans hpayload
  have hpayloadlength : pkt.payloadlength = payload.length := by
    rw [hparts.payloadlength, hpadding, hpayload, hdatalen, Nat.sub_zero, Nat.add_sub_cancel_left]
  refine ⟨pkt, hpkt, hoffset, hpayloadlength, ?_⟩
  unfold RtpPacket.payloadData
  rw [hparts.rawpack, hoffset, hpayloadlength]
  exact (payloadAt_rtpBytes hdata).map_range

end Mprtp
