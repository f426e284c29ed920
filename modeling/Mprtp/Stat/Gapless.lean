import Mprtp.Stat.Numbers

/-! Statistics of packets that come in order and without a gap. -/
namespace Mprtp

namespace SourceStats

/-- No packet has come. -/
structure Untouched (st : SourceStats) : Prop where
  receivedData : st.receivedData = false
  numCycles : st.numCycles = 0
  packetsReceived : st.packetsReceived = 0
  numNewPackets : st.numNewPackets = 0

/-- The packets have come one behind the other, the last one with the number `last`. -/
structure Gapless (st : SourceStats) (last : UInt16) : Prop where
  receivedData : st.receivedData = true
  wholeCycles : st.WholeCycles
  exthighseqnr : st.exthighseqnr = st.numCycles + last.toUInt32
  received : st.exthighseqnr - st.baseseqnr = st.packetsReceived
  interval : st.exthighseqnr - st.savedExtSeqnr = st.numNewPackets

variable {st : SourceStats} {last q : UInt16}

theorem Untouched.startNewInterval (h : st.Untouched) : st.startNewInterval.Untouched :=
  ⟨h.receivedData, h.numCycles, h.packetsReceived, rfl⟩

theorem Gapless.startNewInterval (h : st.Gapless last) : st.startNewInterval.Gapless last :=
  ⟨h.receivedData, h.wholeCycles, h.exthighseqnr, h.received, UInt32.sub_self _⟩

theorem Gapless.maxseq16 (h : st.Gapless last) : st.maxseq16 = last := by
  have hc := h.wholeCycles.toNat
  have hlast := last.toNat_lt
  unfold SourceStats.maxseq16
  rw [h.exthighseqnr, ← UInt16.toNat_inj]
  simp only [UInt32.toNat_toUInt16, UInt32.toNat_add, UInt16.toNat_toUInt32]
  omega

/-- The next number is one higher, with a cycle more behind 65535. -/
theorem Gapless.extendSequence (h : st.Gapless last) :
    let ext := st.extendSequence (last + 1).toUInt32
    ext.numCycles.toNat % 65536 = 0 ∧ ext.exthighseqnr = ext.numCycles + (last + 1).toUInt32 ∧
      ext.exthighseqnr = st.exthighseqnr + 1 := by
  have hc := h.wholeCycles.toNat
  have hwhole := (h.wholeCycles.extendSequence (last + 1).toUInt32).1
  have hlast := last.toNat_lt
  refine ⟨hwhole, ?_⟩
  unfold SourceStats.extendSequence
  rw [h.maxseq16, h.exthighseqnr]
  by_cases htop : last = 65535
  · subst htop
    have hbelow : ¬ (65535 + 1 : UInt16).toUInt32 ≥ (65535 : UInt16).toUInt32 := by decide
    have hwrap : wrapped 65535 (65535 + 1 : UInt16).toUInt32.toUInt16 := by decide
    rw [if_neg hbelow, if_pos hwrap]
    refine ⟨rfl, ?_⟩
    dsimp only
    rw [UInt32.add_assoc, UInt32.add_assoc]
    rfl
  · have hne : last.toNat ≠ 65535 := fun he => htop (UInt16.toNat_inj.mp he)
    have hnext : (last + 1).toUInt32.toNat = last.toNat + 1 := by
      simp only [UInt16.toNat_toUInt32, UInt16.toNat_add, UInt16.reduceToNat]
      omega
    have hge : (last + 1).toUInt32 ≥ last.toUInt32 := by
      rw [ge_iff_le, UInt32.le_iff_toNat_le, hnext, UInt16.toNat_toUInt32]
      omega
    rw [if_pos hge]
    refine ⟨rfl, ?_⟩
    rw [← UInt32.toNat_inj]
    simp only [UInt32.toNat_add, hnext, UInt16.toNat_toUInt32, UInt32.reduceToNat]
    omega

theorem firstPacket_gapless (h : st.Untouched) (timestamp : UInt32) (recvtime : RtpTime) :
    (st.firstPacket q.toUInt32 timestamp recvtime).Gapless q := by
  have hone : ∀ x : UInt32, x + 1 - x = 1 := by
    intro x
    rw [UInt32.add_comm, UInt32.add_sub_cancel]
  unfold firstPacket
  by_cases hq : q = 0
  · subst hq
    have hzero : (0 : UInt16).toUInt32 = 0 := rfl
    simp only [hzero, if_true, h.packetsReceived, h.numNewPackets]
    have hwhole : (0x00010000 : UInt32) % 65536 = 0 := by decide
    exact ⟨rfl, hwhole, rfl, hone _, hone _⟩
  · have hne : ¬ q.toUInt32 = 0 := by
      intro he
      apply hq
      rw [← UInt16.toNat_inj]
      exact congrArg UInt32.toNat he
    simp only [hne, if_false, h.numCycles, h.packetsReceived, h.numNewPackets]
    refine ⟨rfl, rfl, ?_, hone _, hone _⟩
    dsimp only
    rw [UInt32.sub_add_cancel, UInt32.zero_add]

/-- The first packet, whatever its number. -/
theorem Untouched.processPacket (h : st.Untouched) {pack : RtpPacket}
    (hp : pack.subflowExtseqnr = q.toUInt32) (tsunit : ℚ) :
    (st.processPacket pack true tsunit).1.Gapless q := by
  have hfirst := firstPacket_gapless (q := q) h pack.timestamp pack.recvtime
  unfold SourceStats.processPacket packSequenceNumber
  rw [h.receivedData, if_pos rfl, hp]
  exact hfirst

/-- The next packet. -/
theorem Gapless.processPacket (h : st.Gapless last) {pack : RtpPacket}
    (hp : pack.subflowExtseqnr = (last + 1).toUInt32) (tsunit : ℚ) :
    (st.processPacket pack true tsunit).1.Gapless (last + 1) := by
  obtain ⟨hwhole, hhigh, hnext⟩ := h.extendSequence
  have hsucc : ∀ x y : UInt32, x + 1 - y = x - y + 1 := by
    intro x y
    rw [UInt32.sub_eq_add_neg, UInt32.sub_eq_add_neg, UInt32.add_assoc, UInt32.add_comm 1,
      UInt32.add_assoc]
  have hreceived := hsucc st.exthighseqnr st.baseseqnr
  have hinterval := hsucc st.exthighseqnr st.savedExtSeqnr
  rw [h.received, ← hnext] at hreceived
  rw [h.interval, ← hnext] at hinterval
  unfold SourceStats.processPacket packSequenceNumber
  rw [h.receivedData, if_neg (by decide), if_pos rfl, hp]
  exact ⟨rfl, .of_toNat hwhole, hhigh, hreceived, hinterval⟩

/-- As long as packets have come since the last report, the next one tells of no loss. -/
theorem Gapless.fillReceiverReport (h : st.Gapless last) (hnew : st.numNewPackets ≠ 0) (w : World) :
    fractionLost (st.exthighseqnr - st.savedExtSeqnr) st.numNewPackets w = 0 ∧
      st.exthighseqnr - st.baseseqnr - st.packetsReceived = 0 := by
  constructor
  · rw [h.interval]
    unfold fractionLost
    rw [if_neg (UInt32.lt_irrefl _), if_neg hnew, UInt32.sub_self]
    have hzero : ⌊((0 : UInt32).toNat : ℚ) / st.numNewPackets.toNat * 256⌋ = 0 := by simp
    rw [hzero]
    rfl
  · rw [h.received, UInt32.sub_self]

end SourceStats

end Mprtp
