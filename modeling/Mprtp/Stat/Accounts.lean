import Mprtp.Stat.Runs
import Mprtp.Stat.Sequence

/-! Every packet and every expected number is counted in one interval between reports. -/
namespace Mprtp

namespace SourceStats

/-- What the reports have counted and what the statistics hold for the next one. -/
structure Accounted (H : List StatEvent) (st : SourceStats) : Prop where
  untouched : packetsIn H = 0 → st.receivedData = false ∧ st.exthighseqnr = 0 ∧ st.baseseqnr = 0
  touched : packetsIn H ≠ 0 → st.receivedData = true
  saved : (((sinceFirst H).map StatEvent.expected).sum + st.baseseqnr.toNat) % 2 ^ 32 =
    st.savedExtSeqnr.toNat
  received : ((H.map StatEvent.received).sum + st.numNewPackets.toNat) % 2 ^ 32 = st.packetsReceived.toNat

variable {H : List StatEvent} {st : SourceStats} {subflow : Bool} {tsunit : ℚ}

theorem accounted_new : Accounted [] {} := by
  constructor
  · exact fun _ => ⟨rfl, rfl, rfl⟩
  · exact fun h => absurd rfl h
  · rfl
  · rfl

theorem Accounted.packet (h : Accounted H st) (pack : RtpPacket) :
    Accounted (H ++ [.packet pack]) (st.processPacket pack subflow tsunit).1 := by
  have hcount : packetsIn (H ++ [.packet pack]) = packetsIn H + 1 := packetsIn_packet
  constructor
  · intro hzero
    omega
  · intro _
    exact processPacket_receivedData pack subflow tsunit
  · by_cases hfirst : packetsIn H = 0
    · obtain ⟨-, hsaved⟩ := processPacket_first (h.untouched hfirst).1 pack subflow tsunit
      rw [sinceFirst_first hfirst, hsaved]
      have hbase := (st.processPacket pack subflow tsunit).1.baseseqnr.toNat_lt
      change (0 + 0 + _) % _ = _
      omega
    · obtain ⟨hbase, hsaved⟩ := processPacket_later (h.touched hfirst) pack subflow tsunit
      rw [sinceFirst_later hfirst, List.map_append, List.sum_append, hbase, hsaved]
      exact h.saved
  · have hreceived := h.received
    rw [List.map_append, List.sum_append, processPacket_numNewPackets, processPacket_packetsReceived,
      UInt32.toNat_add, UInt32.toNat_add]
    change (_ + 0 + _) % _ = _
    omega

theorem Accounted.report (h : Accounted H st) (rr : RtcpReceiverReport) :
    Accounted (H ++ [.report st rr]) st.startNewInterval := by
  have hcount : packetsIn (H ++ [.report st rr]) = packetsIn H := packetsIn_report
  have hsaved := h.saved
  constructor
  · intro hzero
    exact h.untouched (hcount.symm.trans hzero)
  · intro hne
    exact h.touched (hcount ▸ hne)
  · by_cases hfirst : packetsIn H = 0
    · rw [sinceFirst_of_zero (hcount.trans hfirst)]
      obtain ⟨-, hhigh, hbase⟩ := h.untouched hfirst
      change (0 + st.baseseqnr.toNat) % _ = st.exthighseqnr.toNat
      rw [hhigh, hbase]
      rfl
    · -- the saved number moves on by what the report has used
      rw [sinceFirst_later hfirst, List.map_append, List.sum_append]
      have hexp : st.expected.toNat = (2 ^ 32 - st.savedExtSeqnr.toNat + st.exthighseqnr.toNat) % 2 ^ 32 :=
        UInt32.toNat_sub ..
      have h₁ := st.exthighseqnr.toNat_lt
      have h₂ := st.savedExtSeqnr.toNat_lt
      change (_ + (st.expected.toNat + 0) + st.baseseqnr.toNat) % _ = st.exthighseqnr.toNat
      omega
  · rw [List.map_append, List.sum_append]
    change (_ + (st.numNewPackets.toNat + 0) + 0) % _ = st.packetsReceived.toNat
    exact h.received

/-- The intervals of the reports since the first packet and the pending one make up what is expected
in all, and the intervals of all reports and the pending one what is received, modulo 2^32. -/
theorem intervals_accounted
    (hrun : Run (step subflow tsunit) (fun _ _ _ => True) {} H (some st)) :
    (((sinceFirst H).map StatEvent.expected).sum + (st.exthighseqnr - st.savedExtSeqnr).toNat) % 2 ^ 32 =
        (st.exthighseqnr - st.baseseqnr).toNat ∧
      ((H.map StatEvent.received).sum + st.numNewPackets.toNat) % 2 ^ 32 = st.packetsReceived.toNat := by
  have hk : KeptByStats subflow tsunit (fun _ _ _ => True) (fun _ _ => True) Accounted := by
    constructor
    · exact fun H st pack _ h => ⟨trivial, h.packet pack⟩
    · exact fun H st ssrc sr w _ h => ⟨trivial, h.report _⟩
  have h := (hk.run accounted_new hrun).2 st rfl
  have hsaved := h.saved
  have h₁ := st.exthighseqnr.toNat_lt
  have h₂ := st.savedExtSeqnr.toNat_lt
  have h₃ := st.baseseqnr.toNat_lt
  refine ⟨?_, h.received⟩
  rw [UInt32.toNat_sub, UInt32.toNat_sub]
  omega

/-- A report before the first packet, one behind two packets of which one is missing between them, and
a late packet. -/
def mixedSteps : List StatStep :=
  [.report 1 none (.ticking 1000), .packet (plainPacket 5), .packet (plainPacket 7),
    .report 1 none (.ticking 1000), .packet (plainPacket 6)]

def mixedRun : Exec StatEvent SourceStats := mixedSteps.foldlM (step false 1) {}

theorem mixedRun_run : Run (step false 1) (fun _ _ _ => True) {} mixedRun.log mixedRun.res :=
  Run.foldlM _ mixedSteps

theorem mixedRun_accounted : ∃ st, mixedRun.res = some st ∧ st.packetsReceived = 3 ∧
    ((mixedRun.log.map StatEvent.received).sum + st.numNewPackets.toNat) % 2 ^ 32 =
      st.packetsReceived.toNat ∧
    (((sinceFirst mixedRun.log).map StatEvent.expected).sum +
      (st.exthighseqnr - st.savedExtSeqnr).toNat) % 2 ^ 32 = (st.exthighseqnr - st.baseseqnr).toNat := by
  obtain ⟨hexpected, hreceived⟩ := intervals_accounted mixedRun_run
  exact ⟨_, rfl, rfl, hreceived, hexpected⟩

/-- What is known of a report, and of the statistics it is filled from, behind the log so far. -/
def CountsInterval (H : List StatEvent) : StatEvent → Prop
  | .packet _ => True
  | .report st rr => st.Interval (packetsIn H - reportedIn H) ∧
      ∃ ssrc sr w, rr = (st.fillReceiverReport ssrc sr w).1

theorem run_countsInterval {ok : List StatEvent → SourceStats → StatStep → Prop} {r : Option SourceStats}
    (hrun : Run (step subflow tsunit) ok {} H r) {n : ℕ} {e : StatEvent} (hn : H[n]? = some e) :
    CountsInterval (H.take n) e := by
  have hk : KeptByStats subflow tsunit ok CountsInterval fun H st =>
      st.Interval (packetsIn H - reportedIn H) := by
    constructor
    · intro H st pack _ h
      refine ⟨trivial, ?_⟩
      rw [packetsIn_packet, reportedIn_packet, Nat.sub_add_comm (reportedIn_le H)]
      exact h.processPacket pack subflow tsunit
    · intro H st ssrc sr w _ h
      refine ⟨⟨h, ssrc, sr, w, rfl⟩, ?_⟩
      rw [packetsIn_report, reportedIn_report, Nat.sub_self]
      exact .start st
  exact (hk.run ⟨rfl, fun _ => rfl⟩ hrun).1 n e hn

/-- With less than 2^32 packets, a report that expects something has a packet in its interval; where
it takes the quotient, that is in `[0, 1)`, and its 256ths fit the field. -/
theorem report_fraction_fits {r : Option SourceStats}
    (hrun : Run (step subflow tsunit) (fun _ _ _ => True) {} H r) {n : ℕ} {rr : RtcpReceiverReport}
    (hn : H[n]? = some (.report st rr)) (hfew : packetsIn H < 2 ^ 32) (hexp : st.expected ≠ 0) :
    (reportedIn (H.take n) < packetsIn (H.take n) ∧ st.numNewPackets ≠ 0) ∧
    (¬ st.expected < st.numNewPackets →
      let q : ℚ := (st.expected - st.numNewPackets).toNat / st.expected.toNat
      0 ≤ q ∧ q < 1 ∧ 0 ≤ ⌊q * 256⌋ ∧ ⌊q * 256⌋ ≤ 255 ∧ (rr.fractionlost.toNat : ℤ) = ⌊q * 256⌋) := by
  obtain ⟨hint, ssrc, sr, w, rfl⟩ := run_countsInterval hrun hn
  have hfew' : packetsIn (H.take n) < 2 ^ 32 :=
    Nat.lt_of_le_of_lt (List.take_sublist n H).countP_le hfew
  have hcounted : packetsIn (H.take n) - reportedIn (H.take n) ≠ 0 := by
    intro hzero
    exact hexp (expected_eq_zero_iff.mpr (hint.idle hzero))
  have hnum : st.numNewPackets.toNat ≠ 0 := by
    rw [hint.numNewPackets, UInt32.toNat_ofNat']
    omega
  have hnum' : st.numNewPackets ≠ 0 := fun h => hnum (congrArg UInt32.toNat h)
  refine ⟨⟨by omega, hnum'⟩, ?_⟩
  intro hle
  obtain ⟨hfloor, hfrac, hlt⟩ := fractionLost_toNat hnum' (UInt32.not_lt.mp hle) w
  have hle' : st.numNewPackets.toNat ≤ st.expected.toNat := UInt32.le_iff_toNat_le.mp (UInt32.not_lt.mp hle)
  have hpos : (0 : ℚ) < st.expected.toNat := by
    exact_mod_cast Nat.lt_of_lt_of_le (Nat.pos_of_ne_zero hnum) hle'
  dsimp only
  refine ⟨by positivity, ?_, ?_, ?_, ?_⟩
  · rw [div_lt_one hpos, Nat.cast_lt, UInt32.toNat_sub_of_le _ _ (UInt32.not_lt.mp hle)]
    omega
  · rw [hfloor]
    exact Int.natCast_nonneg _
  · rw [hfloor]
    omega
  · rw [hfloor, Nat.cast_inj]
    exact hfrac

/-- The report behind the two packets expects three. -/
theorem mixedRun_fraction : ∃ st rr, mixedRun.log[3]? = some (.report st rr) ∧ st.expected = 3 ∧
    (reportedIn (mixedRun.log.take 3) < packetsIn (mixedRun.log.take 3) ∧ st.numNewPackets ≠ 0) ∧
    (¬ st.expected < st.numNewPackets →
      let q : ℚ := (st.expected - st.numNewPackets).toNat / st.expected.toNat
      0 ≤ q ∧ q < 1 ∧ 0 ≤ ⌊q * 256⌋ ∧ ⌊q * 256⌋ ≤ 255 ∧ (rr.fractionlost.toNat : ℤ) = ⌊q * 256⌋) := by
  have hfew : packetsIn mixedRun.log < 2 ^ 32 := by decide
  exact ⟨_, _, rfl, rfl, report_fraction_fits mixedRun_run rfl hfew (by decide)⟩

end SourceStats

end Mprtp
