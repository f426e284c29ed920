import Mprtp.Stat

/-! The 16-bit numbers that `process_packet` leaves on a packet. -/
namespace Mprtp

namespace SourceStats

/-- The cycle counter counts whole cycles. -/
def WholeCycles (st : SourceStats) : Prop := st.numCycles % 65536 = 0

theorem WholeCycles.toNat {st : SourceStats} (h : st.WholeCycles) :
    st.numCycles.toNat % 65536 = 0 := by
  unfold WholeCycles at h
  rw [← UInt32.toNat_inj] at h
  simpa only [UInt32.toNat_mod, UInt32.reduceToNat] using h

theorem WholeCycles.of_toNat {st : SourceStats} (h : st.numCycles.toNat % 65536 = 0) :
    st.WholeCycles := by
  unfold WholeCycles
  rw [← UInt32.toNat_inj]
  simpa only [UInt32.toNat_mod, UInt32.reduceToNat] using h

theorem WholeCycles.extendSequence {st : SourceStats} (h : st.WholeCycles) (q : UInt32) :
    (st.extendSequence q).numCycles.toNat % 65536 = 0 ∧
      (st.extendSequence q).extseqnr.toUInt16 = q.toUInt16 := by
  have hc := h.toNat
  have hadd : ∀ c : UInt32, c.toNat % 65536 = 0 → (c + q).toUInt16 = q.toUInt16 := by
    intro c hc
    rw [← UInt16.toNat_inj]
    simp only [UInt32.toNat_toUInt16, UInt32.toNat_add]
    omega
  have hnext : (st.numCycles + 0x00010000).toNat % 65536 = 0 := by
    simp only [UInt32.toNat_add, UInt32.reduceToNat]
    omega
  unfold SourceStats.extendSequence
  split
  · exact ⟨hc, hadd _ hc⟩
  · split
    · exact ⟨hnext, hadd _ hnext⟩
    · exact ⟨hc, hadd _ hc⟩

theorem firstPacket_exthighseqnr (st : SourceStats) (q timestamp : UInt32) (recvtime : RtpTime) :
    (st.firstPacket q timestamp recvtime).exthighseqnr.toUInt16 = q.toUInt16 := by
  unfold firstPacket
  by_cases hq : q = 0
  · simp [hq]
  · simp [hq]

variable {st : SourceStats} (pack : RtpPacket) (subflow : Bool) (tsunit : ℚ)

@[simp] theorem processPacket_receivedData :
    (st.processPacket pack subflow tsunit).1.receivedData = true := by
  unfold processPacket
  cases h : st.receivedData <;> simp [firstPacket]

theorem WholeCycles.processPacket (h : st.WholeCycles) :
    (st.processPacket pack subflow tsunit).1.WholeCycles := by
  apply WholeCycles.of_toNat
  unfold SourceStats.processPacket
  by_cases hr : st.receivedData
  · simp only [hr]
    exact (h.extendSequence _).1
  · simp only [hr]
    unfold firstPacket
    by_cases hq : packSequenceNumber pack subflow = 0
    · simp [hq]
    · simp [hq, h.toNat]

/-- Only the numbers of the packet change. -/
theorem processPacket_pack : ∃ ext subflowExt, (st.processPacket pack subflow tsunit).2 =
    { pack with extseqnr := ext, subflowExtseqnr := subflowExt } := by
  unfold processPacket
  by_cases hr : st.receivedData
  · cases subflow
    · exact ⟨_, _, by simp only [hr]; rfl⟩
    · exact ⟨_, _, by simp only [hr]; rfl⟩
  · exact ⟨_, _, by simp only [hr]; rfl⟩

theorem processPacket_subflowExtseqnr :
    (st.processPacket pack false tsunit).2.subflowExtseqnr = pack.subflowExtseqnr := by
  unfold processPacket
  by_cases hr : st.receivedData
  · simp only [hr]
    rfl
  · simp only [hr]
    rfl

/-- The statistics of a subflow do not look at the number that the stream has given a packet. -/
theorem processPacket_extseqnr (ext : UInt32) :
    (st.processPacket { pack with extseqnr := ext } true tsunit).1 =
      (st.processPacket pack true tsunit).1 := by
  unfold processPacket
  cases st.receivedData <;> rfl

/-- The stream gives a packet another number and changes nothing else. -/
theorem processPacket_stream_pack : ∃ ext, (st.processPacket pack false tsunit).2 =
    { pack with extseqnr := ext } := by
  unfold processPacket
  cases st.receivedData
  · exact ⟨_, rfl⟩
  · exact ⟨_, rfl⟩

/-- The statistics of the stream leave both numbers as they are. -/
theorem processPacket_stream (h : st.WholeCycles) :
    (st.processPacket pack false tsunit).2.sequenceNumber = pack.sequenceNumber ∧
      (st.processPacket pack false tsunit).2.subflowExtseqnr = pack.subflowExtseqnr := by
  refine ⟨?_, processPacket_subflowExtseqnr pack tsunit⟩
  unfold processPacket RtpPacket.sequenceNumber
  by_cases hr : st.receivedData
  · simp only [hr]
    exact (h.extendSequence pack.extseqnr).2
  · simp only [hr]
    exact firstPacket_exthighseqnr st pack.extseqnr pack.timestamp pack.recvtime

/-- So do the statistics of a subflow, but for its first packet. -/
theorem processPacket_subflow (h : st.WholeCycles) (hr : st.receivedData = true) :
    (st.processPacket pack true tsunit).2.sequenceNumber = pack.sequenceNumber ∧
      (st.processPacket pack true tsunit).2.subflowSequenceNumber =
        pack.subflowSequenceNumber := by
  unfold processPacket RtpPacket.sequenceNumber RtpPacket.subflowSequenceNumber
  simp only [hr]
  exact ⟨rfl, (h.extendSequence pack.subflowExtseqnr).2⟩

/-- The first packet of a subflow gets the number of the subflow as its sequence number. -/
theorem processPacket_subflow_first (hr : st.receivedData = false) :
    (st.processPacket pack true tsunit).2.sequenceNumber = pack.subflowSequenceNumber ∧
      (st.processPacket pack true tsunit).2.subflowSequenceNumber =
        pack.subflowSequenceNumber := by
  unfold processPacket RtpPacket.sequenceNumber RtpPacket.subflowSequenceNumber
  simp only [hr]
  exact ⟨firstPacket_exthighseqnr st pack.subflowExtseqnr pack.timestamp pack.recvtime, rfl⟩

end SourceStats

end Mprtp
