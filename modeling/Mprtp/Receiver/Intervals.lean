import Mprtp.Receiver.Reports
import Mprtp.Receiver.Stats
import Mprtp.Stat.Intervals

/-! What the statistics count between two reports, and the fraction lost that a report is
given. -/
namespace Mprtp

/-- The packet counts for the stream of an SSRC, or for one subflow of it. -/
def RtpPacket.CountsFor (pkt : RtpPacket) (ssrc : UInt32) (id : Option UInt16) : Prop :=
  ssrc = pkt.ssrc ∧ (id = none ∨ id = some pkt.subflowId)

instance (pkt : RtpPacket) (ssrc : UInt32) (id : Option UInt16) : Decidable (pkt.CountsFor ssrc id) :=
  inferInstanceAs (Decidable (_ ∧ _))

/-- The packets since the last report about `ssrc`, after one more entry of a log. -/
def ReceiverEvent.countSince (ssrc : UInt32) (id : Option UInt16) (n : ℕ) : ReceiverEvent → ℕ
  | .visit _ (.rtp pkt _) => if pkt.CountsFor ssrc id then n + 1 else n
  | .report s _ _ => if ssrc = s then 0 else n
  | _ => n

theorem ReceiverEvent.countSince_rtp (ssrc : UInt32) (id : Option UInt16) (n : ℕ)
    (d : ReceiverData) (pkt : RtpPacket) (i : ℕ) :
    (ReceiverEvent.visit d (.rtp pkt i)).countSince ssrc id n =
      if pkt.CountsFor ssrc id then n + 1 else n := rfl

theorem ReceiverEvent.countSince_report (ssrc : UInt32) (id : Option UInt16) (n : ℕ) (s : UInt32)
    (rr blocks : List UInt8) :
    (ReceiverEvent.report s rr blocks).countSince ssrc id n = if ssrc = s then 0 else n := rfl

/-- How many packets have been handled for the stream or the subflow since the last report about
`ssrc`. -/
def packetsSince (ssrc : UInt32) (id : Option UInt16) (H : List ReceiverEvent) : ℕ :=
  H.foldl (ReceiverEvent.countSince ssrc id) 0

@[simp] theorem packetsSince_concat (ssrc : UInt32) (id : Option UInt16) (H : List ReceiverEvent)
    (e : ReceiverEvent) : packetsSince ssrc id (H ++ [e]) =
      e.countSince ssrc id (packetsSince ssrc id H) := List.foldl_concat _ _ _ _

namespace Source

/-- The statistics of the stream or of a subflow. -/
def statFor (src : Source) : Option UInt16 → SourceStats
  | none => src.stat
  | some id => src.statOf id

/-- The statistics that a report is filled from, in order. -/
def filled (src : Source) : List (Option UInt16 × SourceStats) :=
  (none, src.stat) :: src.subflows.map fun sf => (some sf.subflowId, sf.recvStat)

variable (src : Source)

theorem processPacket_statFor (pack : RtpPacket) (tsunit : ℚ) (iface : ℕ) (w : World)
    (id : Option UInt16) : (src.processPacket pack tsunit iface w).2.1.statFor id =
      if id = none ∨ id = some pack.subflowId then
        ((src.statFor id).processPacket pack id.isSome tsunit).1
      else src.statFor id := by
  cases id with
  | none =>
    rw [if_pos (Or.inl rfl)]
    unfold processPacket processOnSubflow findSubflow statFor
    dsimp only
    repeat' split
    all_goals rfl
  | some j =>
    have hstat := src.processPacket_stat pack tsunit iface w j
    simp only [reduceCtorEq, false_or, Option.some.injEq]
    exact hstat

theorem processSrPacket_statFor (pkt : RtcpSrPacket) (subflowId : UInt16) (iface : ℕ) (w : World)
    (id : Option UInt16) :
    (src.processSrPacket pkt subflowId iface w).1.statFor id = src.statFor id := by
  cases id with
  | none =>
    unfold processSrPacket findSubflow statFor
    dsimp only
    repeat' split
    all_goals rfl
  | some j => exact src.processSrPacket_stat pkt subflowId iface w j

theorem reported_statFor (id : Option UInt16) :
    src.reported.statFor id = (src.statFor id).startNewInterval := by
  cases id with
  | none => rfl
  | some j => exact src.reported_stat j

end Source

namespace ReceiverData

variable {d : ReceiverData}

/-- The statistics of the stream of an SSRC or of a subflow of it. -/
def statFor (d : ReceiverData) (ssrc : UInt32) (id : Option UInt16) : SourceStats :=
  (d.getSource ssrc).statFor id

theorem statFor_setSource (h : Keyed.Ordered Source.key d.sources) (src : Source) (ssrc : UInt32)
    (id : Option UInt16) : (d.setSource src).statFor ssrc id =
      if ssrc = src.ssrc then src.statFor id else d.statFor ssrc id := by
  unfold statFor
  rw [getSource_setSource h]
  split <;> rfl

theorem onRtpPacket_statFor (h : Keyed.Ordered Source.key d.sources) (w : World) (pkt : RtpPacket)
    (iface : ℕ) (ssrc : UInt32) (id : Option UInt16) :
    (d.onRtpPacket w pkt iface).2.2.1.statFor ssrc id =
      if pkt.CountsFor ssrc id then
        ((d.statFor ssrc id).processPacket pkt id.isSome d.timestampUnit).1
      else d.statFor ssrc id := by
  have hstat := (d.getSource pkt.ssrc).processPacket_statFor pkt d.timestampUnit iface w id
  have hssrc : ((d.getSource pkt.ssrc).processPacket pkt d.timestampUnit iface w).2.1.ssrc =
      pkt.ssrc := by
    rw [Source.processPacket_ssrc, d.getSource_ssrc]
  unfold onRtpPacket
  generalize (d.getSource pkt.ssrc).processPacket pkt d.timestampUnit iface w = r at hstat hssrc ⊢
  obtain ⟨pkt', src, w'⟩ := r
  dsimp only at hstat hssrc ⊢
  rw [statFor_setSource h, hssrc]
  by_cases hs : ssrc = pkt.ssrc
  · subst hs
    have hcounts : pkt.CountsFor pkt.ssrc id ↔ id = none ∨ id = some pkt.subflowId :=
      and_iff_right rfl
    rw [if_pos rfl, hstat]
    simp only [hcounts]
    rfl
  · have hcounts : ¬ pkt.CountsFor ssrc id := fun hc => hs hc.1
    rw [if_neg hs, if_neg hcounts]

theorem onRtcpSrPacket_statFor (h : Keyed.Ordered Source.key d.sources) (w : World)
    (pkt : RtcpSrPacket) (subflowId : UInt16) (iface : ℕ) (ssrc : UInt32) (id : Option UInt16) :
    (d.onRtcpSrPacket w pkt subflowId iface).1.statFor ssrc id = d.statFor ssrc id := by
  have hstat := (d.getSource pkt.senderSsrc).processSrPacket_statFor pkt subflowId iface w id
  have hssrc : ((d.getSource pkt.senderSsrc).processSrPacket pkt subflowId iface w).1.ssrc =
      pkt.senderSsrc := by
    rw [Source.processSrPacket_ssrc, d.getSource_ssrc]
  unfold onRtcpSrPacket
  generalize (d.getSource pkt.senderSsrc).processSrPacket pkt subflowId iface w = r at hstat hssrc ⊢
  obtain ⟨src, w'⟩ := r
  dsimp only at hstat hssrc ⊢
  rw [statFor_setSource h, hssrc]
  by_cases hs : ssrc = pkt.senderSsrc
  · rw [if_pos hs, hstat, hs]
    rfl
  · rw [if_neg hs]

end ReceiverData

/-- The statistics of a source that is polled, in the log so far. -/
def FilledIn (H : List ReceiverEvent) : ReceiverEvent → Prop
  | .poll src => ∀ id, (src.statFor id).Interval (packetsSince src.ssrc id H)
  | _ => True

/-- All statistics of a receiver count the packets since the last report. -/
structure Intervals (H : List ReceiverEvent) (d : ReceiverData) : Prop where
  ordered : Keyed.Ordered Source.key d.sources
  intervals : ∀ ssrc id, (d.statFor ssrc id).Interval (packetsSince ssrc id H)

namespace Intervals

variable {H : List ReceiverEvent} {d : ReceiverData}

/-- An entry that is neither a packet nor a report. -/
theorem concat (h : Intervals H d) {e : ReceiverEvent} (he : ∀ ssrc id n, e.countSince ssrc id n = n) :
    Intervals (H ++ [e]) d := by
  refine ⟨h.ordered, ?_⟩
  intro ssrc id
  rw [packetsSince_concat, he]
  exact h.intervals ssrc id

theorem onRtpPacket (h : Intervals H d) (w : World) (pkt : RtpPacket) (iface : ℕ) :
    Intervals (H ++ [.visit d (.rtp pkt iface)]) (d.onRtpPacket w pkt iface).2.2.1 := by
  refine ⟨h.ordered.insert _, ?_⟩
  intro ssrc id
  rw [ReceiverData.onRtpPacket_statFor h.ordered, packetsSince_concat,
    ReceiverEvent.countSince_rtp]
  split
  · exact (h.intervals ssrc id).processPacket pkt id.isSome d.timestampUnit
  · exact h.intervals ssrc id

theorem onRtcpSrPacket (h : Intervals H d) (w : World) (pkt : RtcpSrPacket) (subflowId : UInt16)
    (iface : ℕ) : Intervals (H ++ [.visit d (.rtcp (.sr pkt subflowId) iface)])
      (d.onRtcpSrPacket w pkt subflowId iface).1 := by
  refine ⟨h.ordered.insert _, ?_⟩
  intro ssrc id
  rw [ReceiverData.onRtcpSrPacket_statFor h.ordered, packetsSince_concat]
  exact h.intervals ssrc id

/-- A report starts new intervals of its source. -/
theorem report (h : Intervals H d) (src : Source) (w : World) :
    Intervals (H ++ [src.reportEvent w]) (d.setSource src.reported) := by
  refine ⟨h.ordered.insert _, ?_⟩
  intro ssrc id
  rw [ReceiverData.statFor_setSource h.ordered, packetsSince_concat,
    ReceiverEvent.countSince_report]
  by_cases hs : ssrc = src.ssrc
  · have hs' : ssrc = src.reported.ssrc := hs
    rw [if_pos hs, if_pos hs', src.reported_statFor]
    exact .start _
  · have hs' : ¬ ssrc = src.reported.ssrc := hs
    rw [if_neg hs, if_neg hs']
    exact h.intervals ssrc id

/-- A source that is polled. -/
theorem filled (h : Intervals H d) {src : Source} (hsrc : src ∈ d.sources) :
    FilledIn H (.poll src) := by
  intro id
  have hint := h.intervals src.ssrc id
  rwa [ReceiverData.statFor, ReceiverData.getSource_of_mem h.ordered hsrc] at hint

theorem poll {before after : List Source} {src : Source} {w : World} (h : Intervals H d)
    (hd : d.sources = before ++ src :: after) :
    (src.poll w).Sat FilledIn H fun H' r =>
      Intervals H' { d with sources := before ++ r.1 :: after } := by
  have hpoll : Intervals (H ++ [.poll src]) d := h.concat fun _ _ _ => rfl
  have hsrc : src ∈ d.sources := by simp [hd]
  refine src.poll_sat (Q := fun H' src' => Intervals H' { d with sources := before ++ src' :: after }) w
    (h.filled hsrc) ?_ (fun _ => trivial) ?_
  · intro _
    rw [← hd]
    exact hpoll
  · intro sf _ _ _
    refine ⟨trivial, ?_⟩
    have hssrc : src.reported.ssrc = src.ssrc := rfl
    rw [ReceiverData.setSource_replace h.ordered hd hssrc]
    exact (hpoll.report src w).concat fun _ _ _ => rfl

end Intervals

namespace Receiver

theorem keptByParts_intervals :
    KeptByParts (fun _ => True) FilledIn fun H d _ => Intervals H d where
  rtp := fun H d packets w raw pkt i _ _ h => ⟨trivial, h.onRtpPacket w pkt i⟩
  sr := fun H d packets w pkt id i h => ⟨trivial, h.onRtcpSrPacket w pkt id i⟩
  rr := fun H d packets pkt id ssrc i h => ⟨trivial, h.concat fun _ _ _ => rfl⟩
  sources := by
    intro H d packets w h
    exact pollSources_sat (J := Intervals) (fun H d before src after w hd h => h.poll hd) h w
  fetched := fun H d pkt packets h => ⟨trivial, h.concat fun _ _ _ => rfl⟩

section

variable {timestampUnit : ℚ} {ssrc : UInt32} {w : World} {H : List ReceiverEvent}
  {r : Option Receiver}

theorem run_filledIn (hrun : Run step (fun _ _ _ => True) (new timestampUnit ssrc w) H r)
    {n : ℕ} {e : ReceiverEvent} (hn : H[n]? = some e) : FilledIn (H.take n) e := by
  have h₀ : Intervals [] (new timestampUnit ssrc w).obj := by
    refine ⟨List.Pairwise.nil, ?_⟩
    intro ssrc id
    cases id <;> exact ⟨rfl, fun _ => rfl⟩
  exact (keptByParts_intervals.run h₀ hrun).1 n e hn

/-- In every run, `fill_receiver_report` divides safely for the statistics of a stream or of a
subflow exactly when packets have been counted since the last report: one at least, and no
whole rounds of the counter that leave the highest number where it was. -/
theorem filled_dividesSafely_iff
    (hrun : Run step (fun _ _ _ => True) (new timestampUnit ssrc w) H r)
    {n : ℕ} {src : Source} (hn : H[n]? = some (.poll src)) {id : Option UInt16} {st : SourceStats}
    (hst : (id, st) ∈ src.filled) :
    st.DividesSafely ↔ ¬ (packetsSince src.ssrc id (H.take n) = 0 ∨
      2 ^ 32 ∣ packetsSince src.ssrc id (H.take n) ∧ st.exthighseqnr = st.savedExtSeqnr) := by
  have hfilled : FilledIn (H.take n) (.poll src) := run_filledIn hrun hn
  have hfollows : Told (H.take n) (.poll src) := run_told hrun hn
  have hstat : src.statFor id = st := by
    rcases List.mem_cons.mp hst with heq | hmem
    · cases heq
      rfl
    · obtain ⟨sf, hsf, heq⟩ := List.mem_map.mp hmem
      cases heq
      exact hfollows.statOf_eq hsf
  have hint := hfilled id
  rw [hstat] at hint
  exact hint.dividesSafely_iff

end

/-- A packet, then a sender report, then another one. -/
def packetThenReports : List Step :=
  packetThenReport ++ [.poll 10 (.arrive true ⟨0x0A000001, 23001⟩ [streamReport])]

def packetThenReportsLog : List ReceiverEvent :=
  (packetThenReports.foldlM step (new 1 1 (.ticking 1000))).log

theorem packetThenReport_dividesSafely : ∃ src, packetThenReportLog[3]? = some (.poll src) ∧
    src.sendRr = true ∧ src.filled.length = 2 ∧ ∀ p ∈ src.filled, p.2.DividesSafely := by
  have hsome : ∃ src ∈ packetThenReportLog[3]?.bind ReceiverEvent.polled?,
      src.sendRr = true ∧ src.filled.length = 2 ∧ ∀ p ∈ src.filled,
        packetsSince src.ssrc p.1 (packetThenReportLog.take 3) = 1 := by decide +kernel
  obtain ⟨src, hsrc, hrr, hlen, hone⟩ := hsome
  obtain ⟨e, he, hep⟩ := Option.bind_eq_some_iff.mp hsrc
  rw [ReceiverEvent.eq_poll hep] at he
  refine ⟨src, he, hrr, hlen, ?_⟩
  intro p hp
  have hiff := filled_dividesSafely_iff (Run.foldlM (new 1 1 (.ticking 1000)) packetThenReport) he hp
  have hcount : packetsSince src.ssrc p.1 (packetThenReportLog.take 3) = 1 := hone p hp
  refine hiff.mpr ?_
  change ¬ (packetsSince src.ssrc p.1 (packetThenReportLog.take 3) = 0 ∨
    2 ^ 32 ∣ packetsSince src.ssrc p.1 (packetThenReportLog.take 3) ∧ _)
  rw [hcount]
  simp

/-- No packet comes between two reports, and the second one divides by zero. -/
theorem filled_divides_by_zero :
    ¬ ∀ (timestampUnit : ℚ) (ssrc : UInt32) (w : World) (H : List ReceiverEvent)
      (r : Option Receiver), Run step (fun _ _ _ => True) (new timestampUnit ssrc w) H r →
        ∀ src, .poll src ∈ H → src.sendRr = true → ∀ p ∈ src.filled, p.2.DividesSafely := by
  intro hall
  have hsome : ∃ e ∈ packetThenReportsLog, ∃ src ∈ e.polled?,
      src.sendRr = true ∧ ∃ p ∈ src.filled, ¬ p.2.DividesSafely := by decide +kernel
  obtain ⟨e, he, src, hsrc, hrr, p, hp, hunsafe⟩ := hsome
  have hpoll : .poll src ∈ packetThenReportsLog := ReceiverEvent.eq_poll hsrc ▸ he
  exact hunsafe (hall 1 1 (.ticking 1000) _ _ (Run.foldlM _ packetThenReports) src hpoll hrr p hp)

end Receiver

end Mprtp
