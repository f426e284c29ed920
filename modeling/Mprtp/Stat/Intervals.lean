import Mathlib.Tactic.Ring
import Mprtp.Stat

/-! What the statistics count between two reports. -/
namespace Mprtp

namespace SourceStats

section

variable (st : SourceStats) (pack : RtpPacket) (subflow : Bool) (tsunit : ℚ)

@[simp] theorem processPacket_packetsReceived :
    (st.processPacket pack subflow tsunit).1.packetsReceived = st.packetsReceived + 1 := by
  unfold processPacket
  split <;> rfl

@[simp] theorem processPacket_numNewPackets :
    (st.processPacket pack subflow tsunit).1.numNewPackets = st.numNewPackets + 1 := by
  unfold processPacket
  split <;> rfl

end

variable {st : SourceStats} {n : ℕ}

/-- The first packet starts the interval just before it. -/
theorem processPacket_first (hst : st.receivedData = false) (pack : RtpPacket) (subflow : Bool)
    (tsunit : ℚ) : let st' := (st.processPacket pack subflow tsunit).1
    st'.exthighseqnr = st'.baseseqnr + 1 ∧ st'.savedExtSeqnr = st'.baseseqnr := by
  unfold processPacket
  rw [hst]
  exact ⟨rfl, rfl⟩

/-- A later packet leaves both starting points as they are. -/
theorem processPacket_later (hst : st.receivedData = true) (pack : RtpPacket) (subflow : Bool)
    (tsunit : ℚ) : let st' := (st.processPacket pack subflow tsunit).1
    st'.baseseqnr = st.baseseqnr ∧ st'.savedExtSeqnr = st.savedExtSeqnr := by
  unfold processPacket
  rw [hst]
  exact ⟨rfl, rfl⟩

/-- The packets that `fill_receiver_report` expects in the interval. -/
def expected (st : SourceStats) : UInt32 := st.exthighseqnr - st.savedExtSeqnr

/-- The packets lost since the start, as `fill_receiver_report` computes them. -/
def packlost (st : SourceStats) : UInt32 := st.exthighseqnr - st.baseseqnr - st.packetsReceived

/-- Where `fill_receiver_report` divides by `expected`, that is not zero. -/
def DividesSafely (st : SourceStats) : Prop := ¬ st.expected < st.numNewPackets → st.expected ≠ 0

instance (st : SourceStats) : Decidable st.DividesSafely :=
  inferInstanceAs (Decidable (_ → _))

theorem expected_eq_zero_iff : st.expected = 0 ↔ st.exthighseqnr = st.savedExtSeqnr := by
  have h₁ := st.exthighseqnr.toNat_lt
  have h₂ := st.savedExtSeqnr.toNat_lt
  rw [expected, ← UInt32.toNat_inj, ← UInt32.toNat_inj, UInt32.toNat_sub]
  change _ = 0 ↔ _
  omega

/-- The division is by zero when nothing is expected and nothing was received. -/
theorem dividesSafely_iff : st.DividesSafely ↔
    ¬ (st.numNewPackets = 0 ∧ st.exthighseqnr = st.savedExtSeqnr) := by
  rw [← expected_eq_zero_iff]
  unfold DividesSafely
  constructor
  · intro h hz
    obtain ⟨hnum, hexp⟩ := hz
    have hnot : ¬ st.expected < st.numNewPackets := by
      rw [hnum, hexp]
      exact UInt32.lt_irrefl 0
    exact h hnot hexp
  · intro h hnot hexp
    refine h ⟨?_, hexp⟩
    rw [hexp, UInt32.lt_iff_toNat_lt] at hnot
    rw [← UInt32.toNat_inj]
    exact Nat.eq_zero_of_not_pos hnot

/-- `n` packets have come since the last report. -/
structure Interval (st : SourceStats) (n : ℕ) : Prop where
  numNewPackets : st.numNewPackets = UInt32.ofNat n
  idle : n = 0 → st.exthighseqnr = st.savedExtSeqnr

theorem Interval.start (st : SourceStats) : st.startNewInterval.Interval 0 := ⟨rfl, fun _ => rfl⟩

/-- Every packet is counted. -/
theorem Interval.processPacket (h : st.Interval n) (pack : RtpPacket) (subflow : Bool) (tsunit : ℚ) :
    (st.processPacket pack subflow tsunit).1.Interval (n + 1) := by
  constructor
  · rw [processPacket_numNewPackets, h.numNewPackets, UInt32.ofNat_add]
    rfl
  · intro hn
    exact absurd hn (Nat.succ_ne_zero n)

/-- The counter wraps, so it is 0 also after whole rounds of it. -/
theorem Interval.dividesSafely_iff (h : st.Interval n) : st.DividesSafely ↔
    ¬ (n = 0 ∨ 2 ^ 32 ∣ n ∧ st.exthighseqnr = st.savedExtSeqnr) := by
  have hzero : st.numNewPackets = 0 ↔ 2 ^ 32 ∣ n := by
    rw [h.numNewPackets, ← UInt32.toNat_inj, UInt32.toNat_ofNat', Nat.dvd_iff_mod_eq_zero]
    rfl
  rw [SourceStats.dividesSafely_iff, hzero, not_iff_not]
  constructor
  · exact Or.inr
  · intro h'
    rcases h' with rfl | h'
    · exact ⟨Nat.dvd_zero _, h.idle rfl⟩
    · exact h'

/-- The fraction lost is the quotient in whole 256ths, where packets were received and no more than
were expected. -/
theorem fractionLost_toNat {expected num : UInt32} (hnum : num ≠ 0) (hle : num ≤ expected) (w : World) :
    ⌊((expected - num).toNat : ℚ) / expected.toNat * 256⌋ =
        (256 * (expected.toNat - num.toNat) / expected.toNat : ℕ) ∧
      (fractionLost expected num w).toNat = 256 * (expected.toNat - num.toNat) / expected.toNat ∧
      256 * (expected.toNat - num.toNat) / expected.toNat < 256 := by
  have hnum' : num.toNat ≠ 0 := fun h => hnum (UInt32.toNat_inj.mp h)
  have hle' : num.toNat ≤ expected.toNat := UInt32.le_iff_toNat_le.mp hle
  have hexp : expected ≠ 0 := by
    rintro rfl
    exact hnum' (Nat.le_zero.mp hle')
  have hfloor : ⌊((expected - num).toNat : ℚ) / expected.toNat * 256⌋ =
      (256 * (expected.toNat - num.toNat) / expected.toNat : ℕ) := by
    rw [UInt32.toNat_sub_of_le _ _ hle, Int.natCast_div, ← Rat.floor_natCast_div_natCast]
    congr 1
    push_cast
    ring
  have hlt : 256 * (expected.toNat - num.toNat) / expected.toNat < 256 := by
    rw [Nat.div_lt_iff_lt_mul (by omega)]
    omega
  refine ⟨hfloor, ?_, hlt⟩
  unfold fractionLost
  rw [if_neg (UInt32.not_lt.mpr hle), if_neg hexp, hfloor]
  generalize 256 * (expected.toNat - num.toNat) / expected.toNat = q at hlt ⊢
  unfold UInt8.ofInt
  rw [UInt8.toNat_ofNat']
  omega

end SourceStats

end Mprtp
