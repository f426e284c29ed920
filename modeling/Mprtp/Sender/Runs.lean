import Mprtp.Sender.Estimates
import Mprtp.Sender.Rules
import Mprtp.Rtcp.Decode

/-! The runs of a sender, and when its distribution divides by zero. -/
namespace Mprtp

namespace SenderData

/-- The divisors of `recalc_subflow_percentage` are not zero: some subflow is not ready yet, or
some subflow has shown progress, and the last measured second was not idle in case that a subflow
is congested or lossy while not all are congested. -/
def Distributable (d : SenderData) (H : List SenderEvent) : Prop :=
  ¬ (∀ sf ∈ d.subflows, sf.readyForDistribution = true) ∨ d.subflows = [] ∨
    (∃ k < d.subflows.length, Live k H) ∧
      ((∃ sf ∈ d.subflows, (sf.isCongested || sf.isLossy) = true) ∧
        (∃ sf ∈ d.subflows, sf.isCongested = false) → ¬ Idle H)

end SenderData

/-- What an entry of a sender's log says about the divisors of a distribution. -/
def DivisorsTold (H : List SenderEvent) : SenderEvent → Prop
  | .recalc d divisors => (∀ x ∈ divisors, x ≠ 0) ↔ d.Distributable H
  | _ => True

/-- What an entry of a sender's log says about the divisors of a distribution and of a bitrate. -/
def DivisionsTold (H : List SenderEvent) (e : SenderEvent) : Prop :=
  DivisorsTold H e ∧ ∀ m, e.measured? = some m →
    0 < m.sf.packetCountTt.toNat ∧ m.last.recvTime < m.pkt.recvTime

/-- An entry that computes no bitrate. -/
theorem DivisorsTold.divisions {H : List SenderEvent} {e : SenderEvent} (h : DivisorsTold H e)
    (hm : e.measured? = none) : DivisionsTold H e := by
  refine ⟨h, ?_⟩
  intro m hm'
  rw [hm] at hm'
  cases hm'

namespace SenderData

variable {d : SenderData} {H : List SenderEvent} {w : World}

/-- The estimates after an operation of the sender, and the clock. -/
structure After (d : SenderData) (w : World) (H : List SenderEvent) (d' : SenderData) (w' : World) :
    Prop where
  estimates : d'.Estimates H
  reported : ∀ T, d.ReportedBefore T → d'.ReportedBefore T
  leads : w.Leads w'

/-- An event that measures nothing and keeps the estimates. -/
theorem Kept.after {d' : SenderData} {w' : World} (hk : d.Kept d') (h : d.Estimates H)
    {e : SenderEvent} (hm : e.measured? = none) (hs : e.second? = none) (hl : w.Leads w') :
    d.After w (H ++ [e]) d' w' where
  estimates := hk.estimates (h.concat hm hs)
  reported := fun _ hr => hk.reportedBefore hr
  leads := hl

end SenderData

namespace Sender

/-- The invariant of a sender: its estimates follow the log, and the datagrams in its queues were
received after every report that it has handled. -/
structure Invariant (H : List SenderEvent) (s : Sender) : Prop where
  estimates : s.obj.Estimates H
  clock : ∃ T, s.world.From T ∧ s.obj.ReportedBefore T ∧
    ∀ f ∈ s.interfaces, f.Timely T s.world.now

/-- What holds while a poll handles datagrams received from `T` on and before `U`. -/
structure Polling (T U : RtpTime) (H : List SenderEvent) (s : Sender) : Prop where
  estimates : s.obj.Estimates H
  inPoll : s.obj.InPoll T U
  clock : s.world.From U

theorem Polling.keptByCalls {T U : RtpTime} :
    Session.KeptByCalls senderHandlers DivisionsTold
      (fun _ raw => T ≤ raw.recvtime ∧ raw.recvtime < U) (Polling T U) := by
  intro H s i raw c h hof h'
  obtain ⟨hT, hU⟩ := h
  obtain ⟨he, hp, hc⟩ := h'
  have htrivial : ∀ c : Call, DivisorsTold H (senderHandlers.visit s.obj c) := fun _ => trivial
  cases c with
  | rtp pkt j => exact ⟨(htrivial (.rtp pkt j)).divisions rfl, he.concat rfl rfl, hp, hc⟩
  | rtcp call j =>
    cases call with
    | sr pkt id =>
      exact ⟨(htrivial (.rtcp (.sr pkt id) j)).divisions rfl, he.concat rfl rfl, hp, hc⟩
    | rr pkt id ssrc =>
      obtain ⟨-, fuel, hmem⟩ := hof
      rw [← rtcpCalls_recvTime hmem] at hT hU
      refine ⟨⟨trivial, fun m hm => hp.measures hT s.world hm⟩, ?_⟩
      refine ⟨he.onRtcpRrPacket hp hT s.world id ssrc j, hp.onRtcpRrPacket hU s.world id, ?_⟩
      exact s.obj.onRtcpRrPacket_leads s.world pkt id U hc

theorem sessionPoll_sat {H : List SenderEvent} {s : Sender} (h : Invariant H s) (fuel : ℕ)
    (io : PollInput) :
    (Session.poll senderHandlers fuel io s).Sat DivisionsTold H fun H' r => Invariant H' r.1 := by
  obtain ⟨he, T, hw, hr, hf⟩ := h
  have hw' := Session.pollInterfaces_from hw io 0 s.interfaces
  have hle := (Session.pollInterfaces_from hw.refl io 0 s.interfaces).le_now
  have hf' := Session.pollInterfaces_timely hw hf io 0
  generalize hpoll : Session.pollInterfaces io 0 s.interfaces s.world = r at hw' hle hf'
  obtain ⟨fs, w, status⟩ := r
  dsimp only at hw' hle hf'
  have hq : Session.Queued (fun _ raw => T ≤ raw.recvtime ∧ raw.recvtime < w.now) fs :=
    fun i f hi raw hraw => hf' f (List.mem_of_getElem? hi) raw hraw
  have h₀ : Polling T w.now H { s with interfaces := fs, world := w } :=
    ⟨he, ⟨hr.mono (hw.le_now.trans hle), fun sf hsf _ => hr sf hsf⟩, hw'.refl⟩
  have hsat : (Session.poll senderHandlers fuel io s).Sat DivisionsTold H _ :=
    Session.poll_sat (fun H s _ hs => ⟨hs.estimates, hs.inPoll, hs.clock⟩) Polling.keptByCalls
      hpoll hq h₀
  refine hsat.mono (fun _ _ hg => hg) ?_
  intro H' p hx
  obtain ⟨s', status'⟩ := p
  obtain ⟨hpolling, hs'⟩ := hx
  refine ⟨hpolling.estimates, ?_⟩
  dsimp only at hs' hpolling ⊢
  rcases hs' with rfl | hdrained
  · exact ⟨T, hw', hr, hf'⟩
  · refine ⟨s'.world.now, hpolling.clock.refl, hpolling.inPoll.before.mono hpolling.clock.le_now, ?_⟩
    intro f hmem raw hraw
    rw [hdrained] at hmem
    rw [Session.mem_drained hmem] at hraw
    cases hraw

theorem Invariant.world {H H' : List SenderEvent} {s : Sender} (h : Invariant H s) {d : SenderData}
    {w : World} (ha : s.obj.After s.world H' d w) : Invariant H' { s with obj := d, world := w } := by
  obtain ⟨-, T, hw, hr, hf⟩ := h
  have hle := (ha.leads _ hw.refl).le_now
  exact ⟨ha.estimates, T, ha.leads T hw, ha.reported T hr, fun f hmem => (hf f hmem).mono hle⟩

theorem told_of_sent {H : List SenderEvent} (k : ℕ) (out : OutDatagram) :
    DivisionsTold H (.sent k out) := by
  have htrivial : DivisorsTold H (.sent k out) := trivial
  exact htrivial.divisions rfl

/-- Every step tells the truth about the divisors and keeps the invariant. -/
theorem keptBySteps : KeptBySteps (fun _ => True) DivisionsTold Invariant where
  session := fun _ _ fuel io _ h => sessionPoll_sat h fuel io
  tick := by
    intro H s h
    exact h.world ⟨h.estimates, fun _ hr => hr, .tick s.world⟩
  sends := by
    intro H s data ret k sf timestamp r hs h
    have hkept : s.obj.Kept r.2.1 :=
      (SenderData.Kept.set hs.subflow (Subflow.Kept.sendto sf _ _ _ _)).trans hs.unmoved.kept
    exact ⟨told_of_sent _ _, h.world (hkept.after h.estimates rfl rfl hs.leads)⟩
  sendsReport := by
    intro H s k sf pkt r hs h
    exact ⟨told_of_sent _ _, h.world (hs.unmoved.kept.after h.estimates rfl rfl hs.leads)⟩
  measure := by
    intro H s curtime h
    refine ⟨?_, h.world ⟨h.estimates.measureStreamBitrate curtime, ?_, .refl s.world⟩⟩
    · have htrivial : DivisorsTold H (.measure s.obj curtime) := trivial
      exact htrivial.divisions rfl
    · intro T hr sf hsf
      rw [SenderData.measureStreamBitrate_subflows] at hsf
      exact hr sf hsf
  recalc := by
    intro H s sfs hsfs h
    have hdiv := SenderData.recalcSubflowPercentage_divisors h.estimates.subflow
    rw [ne_eq s.obj.streamBitrate, h.estimates.stream] at hdiv
    have hkept := SenderData.Kept.of_reweighted hsfs false
    have htold : DivisorsTold H (.recalc s.obj s.obj.recalcSubflowPercentage.log) := hdiv
    exact ⟨htold.divisions rfl, h.world (hkept.after h.estimates rfl rfl (.refl s.world))⟩
  connect := by
    intro H s ssrc destAddr h
    have hkept : s.obj.Kept { s.obj with ssrc, destAddr } := .of_eq rfl rfl
    exact h.world ⟨hkept.estimates h.estimates, fun _ hr => hr, .refl s.world⟩
  addSubflow := by
    intro H s iface remote h
    exact h.world ⟨h.estimates.addSubflow iface remote s.world,
      fun _ hr => hr.addSubflow iface remote s.world, .drawn s.world⟩
  addInterface := by
    intro H s addr opened h
    unfold Session.addInterface
    split
    · obtain ⟨he, T, hw, hr, hf⟩ := h
      refine ⟨he, T, hw, hr, ?_⟩
      intro f hmem
      rcases List.mem_append.mp hmem with hmem | hmem
      · exact hf f hmem
      · intro raw hraw
        rw [List.mem_singleton.mp hmem] at hraw
        cases hraw
    · exact h
  suspendInterface := by
    intro H s addr suspend h
    obtain ⟨he, T, hw, hr, hf⟩ := h
    refine ⟨he, T, hw, hr, ?_⟩
    intro f hmem raw hraw
    obtain ⟨g, hg, hpackets⟩ := Session.suspendFirst_packets addr suspend s.interfaces f hmem
    exact hf g hg raw (hpackets ▸ hraw)
  fetchPacket := by
    intro H s h
    unfold Session.fetchPacket
    split
    · exact h
    · exact ⟨h.estimates, h.clock⟩

theorem invariant_new (timestampUnit : ℚ) {w : World} (hw : StrictMono w.clock) :
    Invariant [] (new timestampUnit w) where
  estimates := {
    subflow := by
      intro k sf hk
      cases hk
    beyond := fun _ _ => not_since_nil
    stream := by
      change (1 : ExtRat) = 0 ↔ _
      exact iff_of_false (by decide) not_since_nil }
  clock := by
    refine ⟨w.now, ⟨hw, le_refl _⟩, ?_, ?_⟩
    · intro sf hsf
      cases hsf
    · intro f hf
      cases hf

/-- Every entry of the log of a run tells the truth about the divisors. -/
theorem run_told {isPathValid : Endpoint → Endpoint → Bool} {timestampUnit : ℚ} {w : World}
    {H : List SenderEvent} {r : Option Sender} (hclock : StrictMono w.clock)
    (hrun : Run (step isPathValid) (fun _ _ _ => True) (new timestampUnit w) H r) {n : ℕ}
    {e : SenderEvent} (hn : H[n]? = some e) : DivisionsTold (H.take n) e := by
  have hmeets : ∀ e : Step, e.Meets fun _ => True := by
    intro e
    cases e <;> trivial
  exact Run.sat_getElem (invariant_new timestampUnit hclock)
    (fun _ _ e h _ => keptBySteps.step isPathValid h (hmeets e)) hrun hn

/-- The divisors of every distribution of every run, whatever the sender is called for and
receives: none is zero exactly in the `Distributable` case. -/
theorem recalc_divisors_ne_zero_iff {isPathValid : Endpoint → Endpoint → Bool} {timestampUnit : ℚ}
    {w : World} {H : List SenderEvent} {r : Option Sender} (hclock : StrictMono w.clock)
    (hrun : Run (step isPathValid) (fun _ _ _ => True) (new timestampUnit w) H r) {n : ℕ}
    {d : SenderData} {divisors : List ExtRat} (hn : H[n]? = some (.recalc d divisors)) :
    (∀ x ∈ divisors, x ≠ 0) ↔ d.Distributable (H.take n) := (run_told hclock hrun hn).1

/-- A receiver report on subflow 1, without loss. -/
def losslessReport (exthighseqnr : UInt32) : List UInt8 :=
  [0x80, 0xD3, 0, 11, 0, 0, 0xBE, 0xEF, 0, 0, 0xDE, 0xAD, 0, 9, 0, 1, 0x81, 0xC9, 0, 7,
    0, 0, 0xBE, 0xEF, 0, 0, 0xDE, 0xAD, 0, 0, 0, 0] ++ bytes32 exthighseqnr ++
    [0, 0, 0, 0, 0, 0, 0, 0, 0, 0, 0, 0]

/-- One path, two packets, and a report after each. -/
def reportedTwice (exthighseqnr : UInt32) : List Step :=
  [.addInterface ⟨0x0A000001, 23000⟩ true, .connect 0xDEAD [⟨0x0A000002, 22000⟩],
    .sendData [65] 25, .poll 10 (.arrive true ⟨0x0A000002, 22001⟩ [losslessReport 7]),
    .sendData [66] 25, .poll 10 (.arrive true ⟨0x0A000002, 22001⟩ [losslessReport exthighseqnr])]

def reportedTwiceLog (exthighseqnr : UInt32) : List SenderEvent :=
  ((reportedTwice exthighseqnr).foldlM (step fun _ _ => true) (new 1 (.ticking 1000))).log

/-- With progress the divisors are not zero, and so the subflow has shown progress. -/
theorem reportedTwice_distributable : ∃ d divisors,
    (reportedTwiceLog 8)[8]? = some (.recalc d divisors) ∧ divisors.length = 2 ∧
      d.Distributable ((reportedTwiceLog 8).take 8) := by
  have hsome : ∃ e ∈ (reportedTwiceLog 8)[8]?.bind SenderEvent.recalc?,
      e.2.length = 2 ∧ ∀ x ∈ e.2, x ≠ 0 := by decide +kernel
  obtain ⟨⟨d, divisors⟩, hmem, hlen, hne⟩ := hsome
  obtain ⟨e, he, hed⟩ := Option.bind_eq_some_iff.mp hmem
  rw [SenderEvent.eq_recalc hed] at he
  have hiff := recalc_divisors_ne_zero_iff (World.ticking_strictMono 1000)
    (Run.foldlM (new 1 (.ticking 1000)) (reportedTwice 8)) he
  exact ⟨d, divisors, he, hlen, hiff.mp hne⟩

/-- Without progress the sum of the tested bitrates is zero. -/
theorem divides_by_zero :
    ¬ ∀ (isPathValid : Endpoint → Endpoint → Bool) (timestampUnit : ℚ) (w : World)
      (H : List SenderEvent) (r : Option Sender), StrictMono w.clock →
        Run (step isPathValid) (fun _ _ _ => True) (new timestampUnit w) H r →
          ∀ d divisors, .recalc d divisors ∈ H → ∀ x ∈ divisors, x ≠ 0 := by
  intro h
  have hall := h (fun _ _ => true) 1 (.ticking 1000) _ _ (World.ticking_strictMono 1000)
    (Run.foldlM _ (reportedTwice 7))
  have hsome : ∃ e ∈ (reportedTwiceLog 7).filterMap SenderEvent.recalc?, 0 ∈ e.2 := by
    decide +kernel
  obtain ⟨⟨d, divisors⟩, hmem, hzero⟩ := hsome
  obtain ⟨e, he, hed⟩ := List.mem_filterMap.mp hmem
  rw [SenderEvent.eq_recalc hed] at he
  exact hall d divisors he 0 hzero rfl

/-- Whenever a report makes bitrates be computed in a run, packets were sent since the last report,
and that was received earlier. -/
theorem measured_divisors_pos {isPathValid : Endpoint → Endpoint → Bool} {timestampUnit : ℚ}
    {w : World} {H : List SenderEvent} {r : Option Sender} (hclock : StrictMono w.clock)
    (hrun : Run (step isPathValid) (fun _ _ _ => True) (new timestampUnit w) H r)
    {e : SenderEvent} (he : e ∈ H) {m : Measured} (hm : e.measured? = some m) :
    0 < m.sf.packetCountTt.toNat ∧ m.last.recvTime < m.pkt.recvTime := by
  obtain ⟨n, hn⟩ := List.getElem?_of_mem he
  exact (run_told hclock hrun hn).2 m hm

/-- The second of the two reports is one that makes bitrates be computed. -/
theorem reportedTwice_measured : ∃ e ∈ reportedTwiceLog 8, ∃ m, e.measured? = some m ∧
    0 < m.sf.packetCountTt.toNat ∧ m.last.recvTime < m.pkt.recvTime := by
  have hsome : ((reportedTwiceLog 8)[5]?.bind SenderEvent.measured?).isSome = true := by
    decide +kernel
  obtain ⟨m, hm⟩ := Option.isSome_iff_exists.mp hsome
  obtain ⟨e, he, hem⟩ := Option.bind_eq_some_iff.mp hm
  have hmem : e ∈ reportedTwiceLog 8 := List.mem_of_getElem? he
  exact ⟨e, hmem, m, hem, measured_divisors_pos (World.ticking_strictMono 1000)
    (Run.foldlM (new 1 (.ticking 1000)) (reportedTwice 8)) hmem hem⟩

end Sender

end Mprtp
