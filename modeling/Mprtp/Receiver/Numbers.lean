import Mprtp.Receiver.Runs

/-! The sequence numbers of the packets that `fetch_packet` returns. -/
namespace Mprtp

/-- The numbers that a packet reports are those of its own header and MPRTP extension. -/
def RtpPacket.HasOwnNumbers (p : RtpPacket) : Prop :=
  p.sequenceNumber = p.rawpack.headerSequence ∧
    (p.rawpack.HasMprtp → p.subflowSequenceNumber = p.rawpack.subflowSeqField)

instance (p : RtpPacket) : Decidable p.HasOwnNumbers := inferInstanceAs (Decidable (_ ∧ _))

/-- The subflow number as it is read from the datagram, 0 for plain RTP. -/
def RawPacket.subflowSequence (raw : RawPacket) : UInt16 :=
  if raw.HasMprtp then raw.subflowSeqField else 0

theorem RtpPacket.FieldsOf.sequenceNumber {raw : RawPacket} {q : RtpPacket}
    (h : q.FieldsOf raw) : q.sequenceNumber = raw.headerSequence := by
  unfold RtpPacket.sequenceNumber
  rw [h.extseqnr]
  exact UInt16.toUInt16_toUInt32 _

theorem RtpPacket.FieldsOf.subflowSequenceNumber {raw : RawPacket} {q : RtpPacket}
    (h : q.FieldsOf raw) : q.subflowSequenceNumber = raw.subflowSequence := by
  unfold RtpPacket.subflowSequenceNumber
  rw [h.subflowExtseqnr]
  exact UInt16.toUInt16_toUInt32 _

/-- A packet keeps its own numbers exactly when it is not the first of its subflow, or both
numbers are the same anyway. -/
theorem Renumbered.hasOwnNumbers_iff {before : List RtpPacket} {q p : RtpPacket}
    (h : Renumbered before q p) : p.HasOwnNumbers ↔
      (∃ q' ∈ before, q'.ssrc = q.ssrc ∧ q'.subflowId = q.subflowId) ∨
        p.rawpack.headerSequence = p.rawpack.subflowSequence := by
  have hfields := RtpPacket.parse_fields h.parsed
  have hsub : p.rawpack.HasMprtp → p.subflowSequenceNumber = p.rawpack.subflowSeqField := by
    intro hm
    rw [h.subflowNumber, hfields.subflowSequenceNumber, RawPacket.subflowSequence, if_pos hm]
  have hnum := h.number
  rw [hfields.sequenceNumber, hfields.subflowSequenceNumber] at hnum
  unfold RtpPacket.HasOwnNumbers
  by_cases hseen : ∃ q' ∈ before, q'.ssrc = q.ssrc ∧ q'.subflowId = q.subflowId
  · rw [if_pos hseen] at hnum
    exact iff_of_true ⟨hnum, hsub⟩ (Or.inl hseen)
  · rw [if_neg hseen] at hnum
    rw [hnum]
    constructor
    · exact fun hp => Or.inr hp.1.symm
    · exact fun hp => ⟨(hp.resolve_left hseen).symm, hsub⟩

namespace Receiver

/-- In every run, a packet that `fetch_packet` returns has the numbers of its own datagram
exactly when a packet of the same source and subflow was handled before it, or its sequence
number equals its subflow number (0 for plain RTP). -/
theorem fetched_hasOwnNumbers_iff {timestampUnit : ℚ} {ssrc : UInt32} {w : World}
    {H : List ReceiverEvent} {r : Option Receiver}
    (hrun : Run step (fun _ _ _ => True) (new timestampUnit ssrc w) H r)
    {n : ℕ} {p : RtpPacket} (hn : H[n]? = some (.fetched p)) :
    let before := (handledRtp (H.take n)).take (fetchedPackets (H.take n)).length
    ∃ q, (handledRtp (H.take n))[(fetchedPackets (H.take n)).length]? = some q ∧
      RtpPacket.parse p.rawpack = .ok q ∧
      (p.HasOwnNumbers ↔ (∃ q' ∈ before, q'.ssrc = q.ssrc ∧ q'.subflowId = q.subflowId) ∨
        p.rawpack.headerSequence = p.rawpack.subflowSequence) := by
  obtain ⟨q, hq, hr⟩ := run_told hrun hn
  exact ⟨q, hq, hr.parsed, hr.hasOwnNumbers_iff⟩

/-- Two packets of subflow 1 with the sequence numbers 100 and 101, numbered 7 and 8 in the
subflow. -/
def twoPackets : List Step :=
  [.addInterface ⟨0x0A000002, 22000⟩ true,
    .poll 1 (.arrive false ⟨0x0A000001, 23000⟩
      [[0x90, 0, 0, 100, 0, 0, 0, 0, 0, 0, 0xDE, 0xAD, 0xBE, 0xDE, 0, 2, 4, 4, 0, 1, 0, 7, 0, 0, 65],
        [0x90, 0, 0, 101, 0, 0, 0, 0, 0, 0, 0xDE, 0xAD, 0xBE, 0xDE, 0, 2, 4, 4, 0, 1, 0, 8, 0, 0, 66]]),
    .fetchPacket, .fetchPacket]

def twoPacketsLog : List ReceiverEvent :=
  (twoPackets.foldlM step (new 1 1 (.ticking 1000))).log

/-- The second of the two packets keeps its numbers. -/
theorem twoPackets_second_hasOwnNumbers :
    ∃ p, twoPacketsLog[4]? = some (.fetched p) ∧ p.HasOwnNumbers := by
  have hsome : (twoPacketsLog[4]?.bind ReceiverEvent.fetched?).isSome = true := by decide +kernel
  obtain ⟨p, hp⟩ := Option.isSome_iff_exists.mp hsome
  obtain ⟨e, he, hep⟩ := Option.bind_eq_some_iff.mp hp
  rw [ReceiverEvent.eq_fetched hep] at he
  have hseen : ∀ q ∈ (handledRtp (twoPacketsLog.take 4))[(fetchedPackets (twoPacketsLog.take 4)).length]?,
      ∃ q' ∈ (handledRtp (twoPacketsLog.take 4)).take (fetchedPackets (twoPacketsLog.take 4)).length,
        q'.ssrc = q.ssrc ∧ q'.subflowId = q.subflowId := by decide +kernel
  obtain ⟨q, hq, -, hiff⟩ :=
    fetched_hasOwnNumbers_iff (Run.foldlM (new 1 1 (.ticking 1000)) twoPackets) he
  exact ⟨p, he, hiff.mpr (Or.inl (hseen q hq))⟩

/-- The first one has lost its sequence number. -/
theorem fetched_number_overwritten :
    ¬ ∀ (timestampUnit : ℚ) (ssrc : UInt32) (w : World) (H : List ReceiverEvent)
      (r : Option Receiver), Run step (fun _ _ _ => True) (new timestampUnit ssrc w) H r →
        ∀ p ∈ fetchedPackets H, p.HasOwnNumbers := by
  intro h
  have hall := h 1 1 (.ticking 1000) _ _ (Run.foldlM _ twoPackets)
  exact absurd hall (by decide +kernel)

end Receiver

end Mprtp
