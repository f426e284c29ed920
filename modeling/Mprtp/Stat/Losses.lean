import Mprtp.Lib.Gaps
import Mprtp.Stat.Accounts

/-! The reports on packets of which some are lost, while the others come in order. -/
namespace Mprtp

/-- The field `packetslost`, a number of 24 bits. -/
def RtcpReceiverReport.packetslost (rr : RtcpReceiverReport) : ℕ :=
  rr.packetslost0.toNat * 65536 + rr.packetslost1.toNat * 256 + rr.packetslost2.toNat

namespace SourceStats

theorem fillReceiverReport_packetslost (st : SourceStats) (ssrc : UInt32) (sr : Option RtcpSrPacket)
    (w : World) : (st.fillReceiverReport ssrc sr w).1.packetslost = st.packlost.toNat % 2 ^ 24 := by
  have hbytes := congrArg UInt32.toNat (or_bytes24 st.packlost)
  rw [or24_toNat] at hbytes
  change (st.packlost >>> 16).toUInt8.toNat * 65536 + (st.packlost >>> 8).toUInt8.toNat * 256 +
    st.packlost.toUInt8.toNat = _
  have hmod : (st.packlost % 0x1000000).toNat = st.packlost.toNat % 2 ^ 24 := rfl
  omega

/-- The first `n` numbers go up, by less than 2^15 at a time and by less than 2^32 in all. -/
structure LossOnly (s : ℕ → ℕ) (n : ℕ) : Prop where
  up : Gaps.Up s n
  gap : ∀ i, i + 1 < n → s (i + 1) - s i < 2 ^ 15
  span : ∀ i < n, s i - s 0 < 2 ^ 32

/-- The packets carry the low 16 bits of the first `n` numbers, one after the other. -/
def Brings (subflow : Bool) (s : ℕ → ℕ) (n : ℕ) (H : List StatEvent) (_ : SourceStats) : StatStep → Prop
  | .packet pack => packetsIn H < n ∧
      packSequenceNumber pack subflow = UInt32.ofNat (s (packetsIn H) % 65536)
  | .report _ _ _ => True

/-- Up to the shift `k`, the statistics hold the true numbers. -/
structure Losing (s : ℕ → ℕ) (n k : ℕ) (H : List StatEvent) (st : SourceStats) : Prop where
  few : packetsIn H ≤ n
  numNewPackets : st.numNewPackets = UInt32.ofNat (packetsIn H - reportedIn H)
  packetsReceived : st.packetsReceived = UInt32.ofNat (packetsIn H)
  idle : packetsIn H = 0 →
    st.receivedData = false ∧ st.numCycles = 0 ∧ st.exthighseqnr = st.baseseqnr
  going : ∀ i, packetsIn H = i + 1 → st.receivedData = true ∧ st.Holds (s i + k) ∧
    st.baseseqnr + 1 = UInt32.ofNat (Gaps.next s 0 + k) ∧
    st.savedExtSeqnr + 1 = UInt32.ofNat (Gaps.next s (reportedIn H) + k)

variable {s : ℕ → ℕ} {n k : ℕ} {H : List StatEvent} {st : SourceStats} {subflow : Bool} {tsunit : ℚ}

theorem losing_new (s : ℕ → ℕ) (n k : ℕ) : Losing s n k [] {} where
  few := Nat.zero_le n
  numNewPackets := rfl
  packetsReceived := rfl
  idle := fun _ => ⟨rfl, rfl, rfl⟩
  going := fun i hi => by cases hi

/-- The first packet fixes the shift. -/
theorem Losing.first (h : Losing s n k H st) (hzero : packetsIn H = 0)
    (hk : firstHigh (s 0 % 65536) % 2 ^ 32 = (s 0 + k) % 2 ^ 32) {pack : RtpPacket}
    (hp : packSequenceNumber pack subflow = UInt32.ofNat (s 0 % 65536)) :
    let st' := (st.processPacket pack subflow tsunit).1
    st'.Holds (s 0 + k) ∧ st'.baseseqnr + 1 = UInt32.ofNat (Gaps.next s 0 + k) ∧
      st'.savedExtSeqnr + 1 = UInt32.ofNat (Gaps.next s (reportedIn H) + k) := by
  obtain ⟨hreceived, hcycles, -⟩ := h.idle hzero
  have hnone : reportedIn H = 0 := Nat.le_zero.mp (hzero ▸ reportedIn_le H)
  have hq : s 0 % 65536 < 65536 := Nat.mod_lt _ (by decide)
  have hhold := (processPacket_holds_first pack subflow tsunit hq hreceived hcycles hp).1.congr hk
  obtain ⟨hhigh, hsaved⟩ := processPacket_first hreceived pack subflow tsunit
  dsimp only at hhigh hsaved ⊢
  have hbase := hhigh.symm.trans hhold.1
  rw [hsaved, hnone]
  exact ⟨hhold, hbase, hbase⟩

/-- A later packet has the highest number so far. -/
theorem Losing.later (hs : LossOnly s n) (h : Losing s n k H st) {i : ℕ} (hi : packetsIn H = i + 1)
    (hin : i + 1 < n) (hk : k % 65536 = 0) {pack : RtpPacket}
    (hp : packSequenceNumber pack subflow = UInt32.ofNat (s (i + 1) % 65536)) :
    let st' := (st.processPacket pack subflow tsunit).1
    st'.Holds (s (i + 1) + k) ∧ st'.baseseqnr + 1 = UInt32.ofNat (Gaps.next s 0 + k) ∧
      st'.savedExtSeqnr + 1 = UInt32.ofNat (Gaps.next s (reportedIn H) + k) := by
  obtain ⟨hreceived, hhold, hbase, hsaved⟩ := h.going i hi
  have hq : s (i + 1) % 65536 < 65536 := Nat.mod_lt _ (by decide)
  have hhold' := (processPacket_holds_next pack subflow tsunit hq hreceived hhold hp).1
  have hup := hs.up i hin
  have hgap := hs.gap i hin
  have hmod : s (i + 1) % 65536 = (s (i + 1) + k) % 65536 := by omega
  rw [hmod, Serial.next_mod (by omega) (by omega) (by omega), max_eq_right (by omega)] at hhold'
  obtain ⟨hbase', hsaved'⟩ := processPacket_later hreceived pack subflow tsunit
  dsimp only at hbase' hsaved' ⊢
  rw [hbase', hsaved']
  exact ⟨hhold', hbase, hsaved⟩

theorem Losing.packet (hs : LossOnly s n) (hk : k % 65536 = 0)
    (hk₀ : firstHigh (s 0 % 65536) % 2 ^ 32 = (s 0 + k) % 2 ^ 32) (h : Losing s n k H st)
    {pack : RtpPacket} (hok : Brings subflow s n H st (.packet pack)) :
    Losing s n k (H ++ [.packet pack]) (st.processPacket pack subflow tsunit).1 := by
  obtain ⟨hin, hp⟩ := hok
  constructor
  · rw [packetsIn_packet]
    exact hin
  · rw [processPacket_numNewPackets, packetsIn_packet, reportedIn_packet, h.numNewPackets,
      Nat.sub_add_comm (reportedIn_le H), UInt32.ofNat_add]
    rfl
  · rw [processPacket_packetsReceived, packetsIn_packet, h.packetsReceived, UInt32.ofNat_add]
    rfl
  · intro hzero
    rw [packetsIn_packet] at hzero
    cases hzero
  · intro i hi
    rw [packetsIn_packet, Nat.add_right_cancel_iff] at hi
    refine ⟨processPacket_receivedData pack subflow tsunit, ?_⟩
    rw [reportedIn_packet]
    rw [hi] at hp hin
    cases i with
    | zero => exact h.first hi hk₀ hp
    | succ i => exact h.later hs hi hin hk hp

/-- A report starts the next interval behind the highest number. -/
theorem Losing.report (h : Losing s n k H st) (rr : RtcpReceiverReport) :
    Losing s n k (H ++ [.report st rr]) st.startNewInterval := by
  constructor
  · rw [packetsIn_report]
    exact h.few
  · rw [packetsIn_report, reportedIn_report, Nat.sub_self]
    rfl
  · rw [packetsIn_report]
    exact h.packetsReceived
  · rw [packetsIn_report]
    exact h.idle
  · intro i hi
    rw [packetsIn_report] at hi
    obtain ⟨hreceived, hhold, hbase, -⟩ := h.going i hi
    refine ⟨hreceived, hhold, hbase, ?_⟩
    rw [reportedIn_report, hi]
    have hhigh : st.startNewInterval.savedExtSeqnr = UInt32.ofNat (s i + k) := hhold.1
    have hnext : Gaps.next s (i + 1) + k = s i + k + 1 := Nat.add_right_comm _ _ _
    rw [hhigh, hnext, UInt32.ofNat_add (s i + k) 1]
    rfl

/-- The numbers expected in the interval are those of its span, modulo 2^32. -/
theorem Losing.expected (h : Losing s n k H st) (hsome : packetsIn H ≠ 0) :
    st.expected.toNat = (Gaps.next s (packetsIn H) - Gaps.next s (reportedIn H) : ℤ) % 2 ^ 32 := by
  obtain ⟨i, hi⟩ := Nat.exists_eq_succ_of_ne_zero hsome
  obtain ⟨-, hhold, -, hsaved⟩ := h.going i hi
  have hhigh := congrArg UInt32.toNat hhold.1
  have hsaved' := congrArg UInt32.toNat hsaved
  have hexp : st.expected.toNat = (2 ^ 32 - st.savedExtSeqnr.toNat + st.exthighseqnr.toNat) % 2 ^ 32 :=
    UInt32.toNat_sub ..
  have h₁ := st.exthighseqnr.toNat_lt
  have h₂ := st.savedExtSeqnr.toNat_lt
  have hnext : Gaps.next s (i + 1) = s i + 1 := rfl
  simp only [UInt32.toNat_ofNat', UInt32.toNat_add, UInt32.reduceToNat] at hhigh hsaved'
  rw [hi, Nat.succ_eq_add_one, hnext]
  omega

/-- `packlost` counts the numbers that are missing so far. -/
theorem Losing.packlost (hs : LossOnly s n) (h : Losing s n k H st) :
    st.packlost.toNat = (Gaps.missing s 0 (packetsIn H)).card := by
  have hcard := (hs.up.mono h.few).card_missing (Nat.zero_le _)
  rw [Gaps.card_span] at hcard
  have hlost : st.packlost.toNat = (2 ^ 32 - st.packetsReceived.toNat +
      (2 ^ 32 - st.baseseqnr.toNat + st.exthighseqnr.toNat) % 2 ^ 32) % 2 ^ 32 := by
    unfold SourceStats.packlost
    rw [UInt32.toNat_sub, UInt32.toNat_sub]
  have hreceived := congrArg UInt32.toNat h.packetsReceived
  rw [UInt32.toNat_ofNat'] at hreceived
  have h₁ := st.exthighseqnr.toNat_lt
  have h₂ := st.baseseqnr.toNat_lt
  cases hi : packetsIn H with
  | zero =>
    obtain ⟨-, -, hhigh⟩ := h.idle hi
    rw [hi] at hcard hreceived
    rw [hhigh] at hlost
    omega
  | succ i =>
    obtain ⟨-, hhold, hbase, -⟩ := h.going i hi
    have hfew := h.few
    have hspan := hs.span i (by omega)
    have hhigh := congrArg UInt32.toNat hhold.1
    have hbase' := congrArg UInt32.toNat hbase
    have hnext : Gaps.next s (i + 1) = s i + 1 := rfl
    have hfirst : Gaps.next s 0 = s 0 := rfl
    rw [hi, hnext, hfirst] at hcard
    rw [hi] at hreceived
    rw [hfirst] at hbase'
    simp only [UInt32.toNat_ofNat', UInt32.toNat_add, UInt32.reduceToNat] at hhigh hbase'
    omega

/-- What a report says behind the packets so far. -/
def CountsLosses (s : ℕ → ℕ) (H : List StatEvent) : StatEvent → Prop
  | .packet _ => True
  | .report st rr => rr.packetslost = (Gaps.missing s 0 (packetsIn H)).card % 2 ^ 24 ∧
      (reportedIn H < packetsIn H →
        st.expected.toNat = (Gaps.span s (reportedIn H) (packetsIn H)).card % 2 ^ 32 ∧
        ((Gaps.span s (reportedIn H) (packetsIn H)).card < 2 ^ 32 →
          rr.fractionlost.toNat = 256 * (Gaps.missing s (reportedIn H) (packetsIn H)).card /
            (Gaps.span s (reportedIn H) (packetsIn H)).card))

theorem Losing.countsLosses (hs : LossOnly s n) (h : Losing s n k H st) (ssrc : UInt32)
    (sr : Option RtcpSrPacket) (w : World) :
    CountsLosses s H (.report st (st.fillReceiverReport ssrc sr w).1) := by
  refine ⟨?_, ?_⟩
  · rw [fillReceiverReport_packetslost, h.packlost hs]
  · intro hnew
    have hup := hs.up.mono h.few
    have hcard := hup.card_missing (reportedIn_le H)
    have hexp := h.expected (Nat.ne_of_gt (Nat.zero_lt_of_lt hnew))
    rw [Gaps.card_span] at hcard ⊢
    have hexp' : st.expected.toNat =
        (Gaps.next s (packetsIn H) - Gaps.next s (reportedIn H)) % 2 ^ 32 := by
      omega
    refine ⟨hexp', ?_⟩
    intro hlt
    rw [Nat.mod_eq_of_lt hlt] at hexp'
    have hnum := congrArg UInt32.toNat h.numNewPackets
    rw [UInt32.toNat_ofNat', Nat.mod_eq_of_lt (by omega)] at hnum
    have hne : st.numNewPackets ≠ 0 := by
      intro hzero
      rw [hzero] at hnum
      change 0 = _ at hnum
      omega
    have hle : st.numNewPackets ≤ st.expected := by
      rw [UInt32.le_iff_toNat_le]
      omega
    obtain ⟨-, hfrac, -⟩ := fractionLost_toNat hne hle w
    have hmissing : st.expected.toNat - st.numNewPackets.toNat =
        (Gaps.missing s (reportedIn H) (packetsIn H)).card := by
      omega
    rw [← hexp', ← hmissing]
    exact hfrac

theorem keptByStats_losing (hs : LossOnly s n) (hk : k % 65536 = 0)
    (hk₀ : firstHigh (s 0 % 65536) % 2 ^ 32 = (s 0 + k) % 2 ^ 32) :
    KeptByStats subflow tsunit (Brings subflow s n) (CountsLosses s) (Losing s n k) where
  packet := fun _ _ _ hok h => ⟨trivial, h.packet hs hk hk₀ hok⟩
  report := fun _ _ ssrc sr w _ h => ⟨h.countsLosses hs ssrc sr w, h.report _⟩

/-- While packets are lost and none is late, each report says how many are missing so far, modulo 2^24;
and after new packets in an interval of less than 2^32 numbers, it says which part of the interval is
missing. -/
theorem reports_count_losses (hs : LossOnly s n) {r : Option SourceStats}
    (hrun : Run (step subflow tsunit) (Brings subflow s n) {} H r) {i : ℕ} {rr : RtcpReceiverReport}
    (hi : H[i]? = some (.report st rr)) :
    let m := packetsIn (H.take i)
    let j := reportedIn (H.take i)
    rr.packetslost = (Gaps.missing s 0 m).card % 2 ^ 24 ∧
      (j < m → (Gaps.span s j m).card < 2 ^ 32 →
        rr.fractionlost.toNat = 256 * (Gaps.missing s j m).card / (Gaps.span s j m).card) := by
  obtain ⟨k, hk, hk₀⟩ := exists_shift (s 0)
  have hcounts := ((keptByStats_losing hs hk hk₀).run (losing_new s n k) hrun).1 i _ hi
  exact ⟨hcounts.1, fun hnew => (hcounts.2 hnew).2⟩

/-- The packets 65534, 65535 and 65538 with a report, then 65540 with another one. -/
def lossySteps : List StatStep :=
  [.packet (plainPacket 65534), .packet (plainPacket 65535), .packet (plainPacket 65538),
    .report 1 none (.ticking 1000), .packet (plainPacket 65540), .report 1 none (.ticking 1001)]

def lossyNumbers : ℕ → ℕ
  | 0 => 65534
  | 1 => 65535
  | 2 => 65538
  | _ => 65540

theorem lossyNumbers_lossOnly : LossOnly lossyNumbers 4 := by
  constructor
  · intro i hi
    obtain rfl | rfl | rfl : i = 0 ∨ i = 1 ∨ i = 2 := by omega
    all_goals decide
  · intro i hi
    obtain rfl | rfl | rfl : i = 0 ∨ i = 1 ∨ i = 2 := by omega
    all_goals decide
  · decide

def lossyRun : Exec StatEvent SourceStats := lossySteps.foldlM (step false 1) {}

theorem lossyRun_counted : ∃ st rr, lossyRun.log[5]? = some (.report st rr) ∧
    rr.packetslost = (Gaps.missing lossyNumbers 0 4).card % 2 ^ 24 ∧
    rr.fractionlost.toNat = 256 * (Gaps.missing lossyNumbers 3 4).card /
      (Gaps.span lossyNumbers 3 4).card := by
  have hrun : Run (step false 1) (Brings false lossyNumbers 4) {} lossyRun.log lossyRun.res := by
    apply Run.foldlM_of _ lossySteps
    intro n e st he hst
    match n, he with
    | 0, he => cases he; exact ⟨by decide, rfl⟩
    | 1, he => cases he; exact ⟨by decide, rfl⟩
    | 2, he => cases he; exact ⟨by decide, rfl⟩
    | 3, he => cases he; trivial
    | 4, he => cases he; exact ⟨by decide, rfl⟩
    | 5, he => cases he; trivial
  obtain ⟨hlost, hfrac⟩ := reports_count_losses lossyNumbers_lossOnly hrun (i := 5) rfl
  exact ⟨_, _, rfl, hlost, hfrac (by decide) (by decide)⟩

/-- Numbers that go once around the 32-bit range. -/
def aroundNumbers (i : ℕ) : ℕ := 21845 * i

theorem aroundNumbers_lossOnly : LossOnly aroundNumbers 196612 := by
  constructor
  all_goals
    intro i hi
    unfold aroundNumbers
    omega

theorem exists_run_bringing (s : ℕ → ℕ) {m n : ℕ} (hm : m ≤ n) :
    ∃ H st, Run (step false 1) (Brings false s n) {} H (some st) ∧ packetsIn H = m ∧ reportedIn H = 0 := by
  induction m with
  | zero => exact ⟨[], {}, .nil, rfl, rfl⟩
  | succ m ih =>
    obtain ⟨H, st, hrun, hcount, hnone⟩ := ih (Nat.le_of_succ_le hm)
    have hok : Brings false s n H st (.packet (plainPacket (s m))) := by
      refine ⟨by omega, ?_⟩
      rw [hcount]
      rfl
    refine ⟨_, _, hrun.snoc _ hok, ?_, ?_⟩
    · change packetsIn (H ++ [.packet _]) = _
      rw [packetsIn_packet, hcount]
    · change reportedIn (H ++ [.packet _]) = _
      rw [reportedIn_packet, hnone]

/-- In an interval of 2^32 numbers nothing is expected, and no loss is reported. -/
theorem around_reports_no_loss :
    ¬ ∀ (subflow : Bool) (tsunit : ℚ) (s : ℕ → ℕ) (n : ℕ) (H : List StatEvent) (r : Option SourceStats),
      LossOnly s n → Run (step subflow tsunit) (Brings subflow s n) {} H r →
      ∀ (i : ℕ) (st : SourceStats) (rr : RtcpReceiverReport), H[i]? = some (.report st rr) →
        let m := packetsIn (H.take i)
        let j := reportedIn (H.take i)
        rr.packetslost = (Gaps.missing s 0 m).card % 2 ^ 24 ∧
          (j < m → rr.fractionlost.toNat = 256 * (Gaps.missing s j m).card / (Gaps.span s j m).card) := by
  intro h
  obtain ⟨H, st, hrun, hcount, hnone⟩ := exists_run_bringing aroundNumbers (Nat.le_refl 196612)
  have hs := aroundNumbers_lossOnly
  obtain ⟨k, hk, hk₀⟩ := exists_shift (aroundNumbers 0)
  have hlosing := ((keptByStats_losing hs hk hk₀).run (losing_new _ _ k) hrun).2 st rfl
  have hcounts := (hlosing.countsLosses hs 1 none (.ticking 1000)).2
  have hcard := hs.up.card_missing (Nat.zero_le 196612)
  have hspan : (Gaps.span aroundNumbers 0 196612).card = 2 ^ 32 := by
    rw [Gaps.card_span]
    rfl
  rw [hcount, hnone, hspan] at hcounts
  have hzero : st.expected = 0 := UInt32.toNat_inj.mp (hcounts (by decide)).1
  have hnum : st.numNewPackets = 196612 := by
    rw [hlosing.numNewPackets, hcount, hnone]
    rfl
  have hfrac : (st.fillReceiverReport 1 none (.ticking 1000)).1.fractionlost = 0 := by
    change fractionLost st.expected st.numNewPackets _ = 0
    rw [hzero, hnum]
    rfl
  have hok : Brings false aroundNumbers 196612 H st (.report 1 none (.ticking 1000)) := trivial
  have hrun' := hrun.snoc _ hok
  obtain ⟨-, hsays⟩ := h false 1 aroundNumbers 196612 _ _ hs hrun' H.length st
    (st.fillReceiverReport 1 none (.ticking 1000)).1 List.getElem?_concat_length
  rw [List.take_left, hcount, hnone, hspan, hfrac] at hsays
  have h255 := hsays (by decide)
  rw [hspan] at hcard
  change 0 = _ at h255
  omega

end SourceStats

end Mprtp
