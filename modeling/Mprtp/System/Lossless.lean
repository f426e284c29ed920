import Mprtp.Receiver.Gapless
import Mprtp.Receiver.Intervals
import Mprtp.Sender.Losses
import Mprtp.System.Ends
import Mprtp.System.Runs

/-! A network that keeps every packet and the order within each subflow: nothing is reported lost. -/
namespace Mprtp

/-- The report is filled from statistics of packets that came one behind the other, at least one of
them since the last report. -/
theorem SourceStats.Gapless.rrSent {st : SourceStats} {last : UInt16} (h : st.Gapless last)
    (hnew : st.numNewPackets ≠ 0) (ssrc : UInt32) (sr : Option RtcpSrPacket) (w : World)
    (recvFrom : Endpoint) (recvtime : RtpTime) :
    (st.rrSent ssrc sr w recvFrom recvtime).fractionlost = 0 ∧
      (st.rrSent ssrc sr w recvFrom recvtime).packetslost = 0 := by
  obtain ⟨hfraction, hlost⟩ := h.fillReceiverReport hnew w
  refine ⟨hfraction, ?_⟩
  have hpacklost : st.packlost = 0 := hlost
  unfold SourceStats.rrSent
  dsimp only
  rw [hpacklost]
  rfl

/-- A report on a subflow or, with the id 0, on the stream. -/
def SystemEvent.rr? : SystemEvent → Option (RtcpRrPacket × UInt16)
  | .sender (.visit _ (.rtcp (.rr pkt subflowId _) _)) => some (pkt, subflowId)
  | _ => none

/-- The report blocks that the sender has received. -/
def reportsHeard (H : List SystemEvent) : List (RtcpRrPacket × UInt16) := H.filterMap SystemEvent.rr?

theorem mem_reportsHeard {H : List SystemEvent} {pkt : RtcpRrPacket} {id : UInt16} :
    (pkt, id) ∈ reportsHeard H ↔ ∃ d s i, .sender (.visit d (.rtcp (.rr pkt id s) i)) ∈ H := by
  unfold reportsHeard
  rw [List.mem_filterMap]
  constructor
  · intro h
    obtain ⟨e, he, heq⟩ := h
    unfold SystemEvent.rr? at heq
    split at heq
    · cases heq
      exact ⟨_, _, _, he⟩
    · cases heq
  · intro h
    obtain ⟨d, s, i, hmem⟩ := h
    exact ⟨_, hmem, rfl⟩

/-- Whenever a source has a report to send, `P` holds of the number of packets that each of its
subflows has received since the last one. -/
def ReportedAfter (P : ℕ → Prop) (L : List ReceiverEvent) : Prop :=
  ∀ n src, L[n]? = some (.poll src) → src.sendRr = true → ∀ sf ∈ src.subflows,
    P (packetsSince src.ssrc (some sf.subflowId) (L.take n))

namespace System

/-- Every datagram comes from the other end; on each subflow, which leads to the interface `route`
says, RTP packets come in the order in which they were sent, each of them once; and there are at most
1000 subflows. -/
structure Lossless (route : UInt16 → ℕ) (H : List SystemEvent) (s : System) (e : Step) : Prop where
  network : Network H s e
  inOrder : ∀ e', e = .receiver e' →
    e'.InOrder route (rtpSent (bySender H)) (byReceiver H) s.receiver.interfaces
  few : s.sender.obj.subflows.length ≤ 1000

/-- What an entry of the log says of the statistics that a report is filled from, and of the datagrams
that reports were in. -/
def LosslessTold (H : List SystemEvent) : SystemEvent → Prop
  | .sender e => e.Heard (Among (sentByReceiver H))
  | .receiver e => GaplessPolled (rtpSent (bySender H)) e

variable {isPathValid : Endpoint → Endpoint → Bool} {senderUnit receiverUnit : ℚ} {ssrc : UInt32}
  {w w' : World} {route : UInt16 → ℕ} {H : List SystemEvent}

theorem step_lossless {s : System}
    (hrun : Run (step isPathValid) (Lossless route) (new senderUnit receiverUnit ssrc w w') H (some s))
    (hinv : Invariant H s)
    (hfed : Fed route (rtpSent (bySender H)) (Session.rtpQueue s.receiver.interfaces) (byReceiver H)
      s.receiver.obj) {e : Step} (hok : Lossless route H s e) :
    (step isPathValid s e).Sat LosslessTold H fun H' s' => Fed route (rtpSent (bySender H'))
      (Session.rtpQueue s'.receiver.interfaces) (byReceiver H') s'.receiver.obj := by
  cases e with
  | sender e =>
    have hmeets : e.Meets (PollInput.Brings (Among (sentByReceiver H))) := by
      cases e with
      | poll fuel io => exact Delivers.brings hok.network
      | _ => trivial
    have hheard := (Sender.keptByData_heard (Among (sentByReceiver H))).steps.step (H := bySender H)
      isPathValid ⟨trivial, hinv.toSender⟩ hmeets
    refine Exec.sat_bind (Q := fun H' _ => Fed route (rtpSent (bySender H'))
      (Session.rtpQueue s.receiver.interfaces) (byReceiver H') s.receiver.obj) ?_
      fun H' s' h' => Exec.sat_pure h'
    apply Exec.sat_mapLog_of hheard
    · intro L e he
      unfold LosslessTold
      rw [sentByReceiver_map_sender]
      exact he
    · intro L s' _
      rw [bySender_map_sender, byReceiver_map_sender]
      apply hfed.mono
      unfold rtpSent
      rw [List.filterMap_append]
      exact List.prefix_append _ _
  | receiver e =>
    obtain ⟨⟨_, hsender, hs⟩, -⟩ := run_ends hrun
    obtain rfl := hs s rfl
    have hlen : s.sender.obj.subflows.length ≤ 65535 := hok.few.trans (by decide)
    have hsequenced := (Sender.run_consecutive hsender hlen).sequenced
    have hstep := Receiver.step_fed hsequenced hfed (hok.inOrder e rfl)
    refine Exec.sat_bind (Q := fun H' receiver => Fed route (rtpSent (bySender H'))
      (Session.rtpQueue receiver.interfaces) (byReceiver H') receiver.obj) ?_
      fun H' r' h' => Exec.sat_pure h'
    apply Exec.sat_mapLog_of hstep
    · intro L e he
      unfold LosslessTold
      rw [bySender_map_receiver]
      exact he
    · intro L r' h'
      rw [bySender_map_receiver, byReceiver_map_receiver]
      exact h'

/-- What holds of every entry of the log of such a run. -/
theorem run_losslessTold {r : Option System}
    (hrun : Run (step isPathValid) (Lossless route) (new senderUnit receiverUnit ssrc w w') H r) :
    ∀ pre e post, H = pre ++ e :: post → LosslessTold pre e := by
  have hfed : Fed route (rtpSent (bySender []))
      (Session.rtpQueue (new senderUnit receiverUnit ssrc w w').receiver.interfaces) (byReceiver [])
      (new senderUnit receiverUnit ssrc w w').receiver.obj := by
    refine ⟨List.Pairwise.nil, fun _ => List.nil_prefix, fun _ _ _ => rfl, ?_, ?_⟩
    · intro i data hdata
      cases hdata
    · intro _ s id
      exact ⟨rfl, rfl, rfl, rfl⟩
  have hsat := Run.sat_run (I := fun H s => Invariant H s ∧ Fed route (rtpSent (bySender H))
      (Session.rtpQueue s.receiver.interfaces) (byReceiver H) s.receiver.obj)
    ⟨invariant_new senderUnit receiverUnit ssrc w w', hfed⟩
    (fun H s e hrun hI hok => (step_sat isPathValid hI.1 hok.network).and
      (step_lossless hrun hI.1 hI.2 hok)) hrun
  exact fun pre e post hH => (hsat.1 pre e post hH).2

/-- The statistics of a source that is polled with a report to send. -/
theorem polled_gapless {r : Option System}
    (hrun : Run (step isPathValid) (Lossless route) (new senderUnit receiverUnit ssrc w w') H r)
    (hssrc : SsrcsGrouped (rtpSent (bySender H))) {n : ℕ} {src : Source}
    (hn : (byReceiver H)[n]? = some (.poll src)) {sf : Subflow} (hsf : sf ∈ src.subflows)
    (hnew : ¬ 2 ^ 32 ∣ packetsSince src.ssrc (some sf.subflowId) ((byReceiver H).take n)) :
    sf.recvStat.numNewPackets ≠ 0 ∧ ∃ last, sf.recvStat.Gapless last := by
  obtain ⟨-, _, hreceiver, -⟩ := run_ends hrun
  have hfollows : Told ((byReceiver H).take n) (.poll src) := Receiver.run_told hreceiver hn
  have hfilled : FilledIn ((byReceiver H).take n) (.poll src) := Receiver.run_filledIn hreceiver hn
  have hstat : src.statOf sf.subflowId = sf.recvStat := hfollows.statOf_eq hsf
  have hcount : sf.recvStat.numNewPackets =
      UInt32.ofNat (packetsSince src.ssrc (some sf.subflowId) ((byReceiver H).take n)) := by
    rw [← hstat]
    exact (hfilled (some sf.subflowId)).numNewPackets
  have hne : sf.recvStat.numNewPackets ≠ 0 := by
    intro h0
    apply hnew
    rw [h0, ← UInt32.toNat_inj, UInt32.toNat_ofNat'] at hcount
    exact Nat.dvd_of_mod_eq_zero hcount.symm
  refine ⟨hne, ?_⟩
  obtain ⟨pre, post, hH⟩ := List.append_of_mem (mem_byReceiver.mp (List.mem_of_getElem? hn))
  have hpolled : GaplessPolled (rtpSent (bySender pre)) (.poll src) := run_losslessTold hrun pre _ post hH
  have hprefix : rtpSent (bySender pre) <+: rtpSent (bySender H) := by
    unfold rtpSent bySender
    rw [hH]
    exact ((List.prefix_append _ _).filterMap _).filterMap _
  have hor := hpolled (hssrc.mono hprefix) sf.subflowId
  rw [hstat] at hor
  exact hor.resolve_left fun h => hne h.numNewPackets

/-- A report on a subflow that a sender handles. -/
theorem heard_without_loss {r : Option System}
    (hrun : Run (step isPathValid) (Lossless route) (new senderUnit receiverUnit ssrc w w') H r)
    (hssrc : SsrcsGrouped (rtpSent (bySender H)))
    (hnew : ReportedAfter (fun k => ¬ 2 ^ 32 ∣ k) (byReceiver H)) {pkt : RtcpRrPacket} {id : UInt16}
    (hmem : (pkt, id) ∈ reportsHeard H) (hid : id ≠ 0) :
    pkt.fractionlost = 0 ∧ pkt.packetslost = 0 := by
  obtain ⟨d, s, i, hmem⟩ := mem_reportsHeard.mp hmem
  obtain ⟨pre, post, hH⟩ := List.append_of_mem hmem
  obtain ⟨raw, fuel, ⟨hlen, out, hout, hdata⟩, hcall⟩ := run_losslessTold hrun pre _ post hH
  obtain ⟨ssrc', hsent⟩ := mem_sentByReceiver.mp hout
  have hsent' : .sent ssrc' out ∈ byReceiver H := by
    rw [mem_byReceiver, hH]
    exact List.mem_append_left _ hsent
  obtain ⟨n, hn⟩ := List.getElem?_of_mem hsent'
  obtain ⟨-, _, hreceiver, -⟩ := run_ends hrun
  obtain ⟨src, w₁, hsrc, hrr, hbytes⟩ := Receiver.run_built hreceiver hn
  have hlen' : raw.data.length < 65536 := by
    unfold maxUdpPayload at hlen
    omega
  obtain ⟨pkt', id', s', heq, hsub⟩ := Source.rtcpCalls_buildReport (hdata.symm.trans hbytes) hlen' hcall
  cases heq
  obtain ⟨sf, hsf, -, w₂, rfl⟩ := hsub hid
  obtain ⟨m, hm⟩ := List.getElem?_of_mem (List.mem_of_mem_take hsrc)
  obtain ⟨hne, last, hgapless⟩ := polled_gapless hrun hssrc hm hsf (hnew m src hm hrr sf hsf)
  exact hgapless.rrSent hne _ _ _ _ _

/-- In a run in which no SSRC comes back on a subflow and every subflow that is reported on has
received packets since the last report, but no whole rounds of their counter: every report block on a
subflow tells of no loss, and no subflow gets congested or lossy. -/
theorem no_loss_reported {r : Option System}
    (hrun : Run (step isPathValid) (Lossless route) (new senderUnit receiverUnit ssrc w w') H r)
    (hssrc : SsrcsGrouped (rtpSent (bySender H)))
    (hnew : ReportedAfter (fun k => ¬ 2 ^ 32 ∣ k) (byReceiver H)) :
    (∀ pkt id, (pkt, id) ∈ reportsHeard H → id ≠ 0 → pkt.fractionlost = 0 ∧ pkt.packetslost = 0) ∧
    ∀ s, r = some s → ∀ sf ∈ s.sender.obj.subflows, sf.congestionIndicator = 0 := by
  constructor
  · intro pkt id hmem hid
    exact heard_without_loss hrun hssrc hnew hmem hid
  · intro s hr
    obtain ⟨⟨_, hsender, hs⟩, -⟩ := run_ends hrun
    obtain rfl := hs s hr
    apply Sender.run_untroubled hsender
    intro d pkt id s' i hmem hid
    have hheard := mem_reportsHeard.mpr ⟨d, s', i, mem_bySender.mp hmem⟩
    exact (heard_without_loss hrun hssrc hnew hheard hid).1

/-- Nothing comes in on RTP sockets but on that of the first interface. -/
def Step.FirstOnly : Step → Prop
  | .receiver (.poll _ io) => ∀ i, i ≠ 0 → (io i false).received = []
  | _ => True

/-- What comes in on the first interface was sent next. -/
def Step.BringsNext (H : List SystemEvent) (s : System) : Step → Prop
  | .receiver (.poll _ io) => handledData (byReceiver H) ++ Session.rtpQueue s.receiver.interfaces 0 ++
      (io 0 false).received <+: rtpSent (bySender H)
  | _ => True

instance (H : List SystemEvent) (s : System) : DecidablePred (Step.BringsNext H s)
  | .receiver (.poll _ _) => inferInstanceAs (Decidable (_ <+: _))
  | .receiver (.addInterface _ _) => isTrue trivial
  | .receiver (.suspendInterface _ _) => isTrue trivial
  | .receiver .fetchPacket => isTrue trivial
  | .sender _ => isTrue trivial

/-- With one interface for all subflows. -/
theorem lossless_of_bringsNext {s : System} {e : Step} (hnet : Network H s e) (hfirst : e.FirstOnly)
    (hnext : e.BringsNext H s) (few : s.sender.obj.subflows.length ≤ 1000) :
    Lossless (fun _ => 0) H s e where
  network := hnet
  inOrder := by
    intro e' he
    subst he
    cases e' with
    | poll fuel io => exact fun id => ⟨hnext.filter _, fun i hi => by rw [hfirst i hi]; rfl⟩
    | _ => trivial
  few := few

/-- The log and the state after the first `n` choices. -/
def chosen (rand : ℕ → ℕ) (choices : List (List SystemEvent → Step)) (n : ℕ) :
    List SystemEvent × Option System :=
  afterChoices (step fun _ _ => true) (new 1 1 0xCAFE ⟨fun n => 1000 + 5 * n, rand, 0⟩ (drawing 0))
    (choices.take n)

/-- Both networks admit the choice, whatever has happened. -/
def Admitted (choose : List SystemEvent → Step) : Prop :=
  ∀ H s, Network H s (choose H) ∧ (choose H).FirstOnly ∧ (choose H).Succeeds

theorem admitted_toSender (n : ℕ) : Admitted (toSender n) :=
  fun _ _ => ⟨delivers_pick _ n true _, trivial, trivial⟩

theorem admitted_toReceiver (rtcp : Bool) (n : ℕ) : Admitted (toReceiver rtcp n) := by
  intro H s
  refine ⟨delivers_pick _ n rtcp _, ?_, trivial⟩
  intro i hi
  unfold PollInput.arrive
  rw [if_neg fun h => hi h.1]
  rfl

theorem admitted_sendData (byte : UInt8) : Admitted fun _ => .sender (.sendData [byte] 25) :=
  fun _ _ => ⟨trivial, trivial, rfl⟩

theorem chosen_run {rand : ℕ → ℕ} {choices : List (List SystemEvent → Step)}
    (hadmitted : ∀ choose ∈ choices, Admitted choose)
    (hnext : ∀ n < choices.length, ∀ choose ∈ choices[n]?, ∀ s ∈ (chosen rand choices n).2,
      (choose (chosen rand choices n).1).BringsNext (chosen rand choices n).1 s ∧
        s.sender.obj.subflows.length ≤ 1000) :
    Run (step fun _ _ => true) (fun H s e => Lossless (fun _ => 0) H s e ∧ e.Succeeds)
      (new 1 1 0xCAFE ⟨fun n => 1000 + 5 * n, rand, 0⟩ (drawing 0)) (chosen rand choices choices.length).1
      (chosen rand choices choices.length).2 := by
  unfold chosen
  rw [List.take_length]
  apply Run.of_choices_take
  intro n choose s hn hs
  have hlt : n < choices.length := (List.getElem?_eq_some_iff.mp hn).1
  obtain ⟨hnet, hfirst, hsucceeds⟩ := hadmitted choose (List.mem_of_getElem? hn) (chosen rand choices n).1 s
  obtain ⟨hbrings, hfew⟩ := hnext n hlt choose hn s hs
  exact ⟨lossless_of_bringsNext hnet hfirst hbrings hfew, hsucceeds⟩

/-- Three packets and a report on them, two packets and a report on these. -/
def reportedTwice : List (List SystemEvent → Step) :=
  [fun _ => .sender (.addInterface ⟨0x0A000001, 23000⟩ true),
    fun _ => .sender (.connect 0xDEAD [⟨0x0A000002, 22000⟩, ⟨0x0A000004, 22000⟩]),
    fun _ => .receiver (.addInterface ⟨0x0A000002, 22000⟩ true),
    fun _ => .sender (.sendData [65] 25), fun _ => .sender (.sendData [66] 25),
    fun _ => .sender (.sendData [67] 25), toReceiver false 0, toReceiver false 1, toReceiver false 2,
    toSender 0, toReceiver true 3, toSender 0,
    fun _ => .sender (.sendData [68] 25), fun _ => .sender (.sendData [69] 25),
    toReceiver false 5, toReceiver false 6, toReceiver true 4, toSender 1]

/-- Numbers that are about to wrap, then draws that choose one subflow and the other in turn. -/
def inTurn (n : ℕ) : ℕ := if n < 3 then 65534 else if n % 2 = 0 then 0 else 60

theorem reportedTwice_admitted : ∀ choose ∈ reportedTwice, Admitted choose := by
  unfold reportedTwice
  simp only [List.forall_mem_cons, List.not_mem_nil, false_implies, implies_true, and_true]
  have htrivial : ∀ (H : List SystemEvent) (s : System), True ∧ True ∧ True :=
    fun _ _ => ⟨trivial, trivial, trivial⟩
  exact ⟨htrivial, htrivial, htrivial, admitted_sendData 65, admitted_sendData 66, admitted_sendData 67,
    admitted_toReceiver false 0, admitted_toReceiver false 1, admitted_toReceiver false 2,
    admitted_toSender 0, admitted_toReceiver true 3, admitted_toSender 0,
    admitted_sendData 68, admitted_sendData 69, admitted_toReceiver false 5, admitted_toReceiver false 6,
    admitted_toReceiver true 4, admitted_toSender 1⟩

/-- Two reports on two subflows, the numbers of which wrap, tell of no loss. -/
theorem reportedTwice_no_loss :
    (reportsHeard (chosen inTurn reportedTwice 18).1).map Prod.snd = [0, 2, 1, 0, 2, 1] ∧
    (∀ p ∈ reportsHeard (chosen inTurn reportedTwice 18).1, p.2 ≠ 0 →
      p.1.fractionlost = 0 ∧ p.1.packetslost = 0) ∧
    ∃ s ∈ (chosen inTurn reportedTwice 18).2, s.sender.obj.subflows.length = 2 ∧
      ∀ sf ∈ s.sender.obj.subflows, sf.congestionIndicator = 0 := by
  have hnext : ∀ n < reportedTwice.length, ∀ choose ∈ reportedTwice[n]?,
      ∀ s ∈ (chosen inTurn reportedTwice n).2,
        (choose (chosen inTurn reportedTwice n).1).BringsNext (chosen inTurn reportedTwice n).1 s ∧
          s.sender.obj.subflows.length ≤ 1000 := by decide +kernel
  have hsame : ∀ data ∈ rtpSent (bySender (chosen inTurn reportedTwice 18).1), ssrcIn data = 0xDEAD := by
    decide +kernel
  have hcount : ∀ n < (byReceiver (chosen inTurn reportedTwice 18).1).length,
      ∀ src ∈ (byReceiver (chosen inTurn reportedTwice 18).1)[n]?.bind ReceiverEvent.polled?,
        src.sendRr = true → ∀ sf ∈ src.subflows,
          0 < packetsSince src.ssrc (some sf.subflowId) ((byReceiver (chosen inTurn reportedTwice 18).1).take n) ∧
          packetsSince src.ssrc (some sf.subflowId) ((byReceiver (chosen inTurn reportedTwice 18).1).take n) <
            2 ^ 32 := by decide +kernel
  have hheard : (reportsHeard (chosen inTurn reportedTwice 18).1).map Prod.snd = [0, 2, 1, 0, 2, 1] := by
    decide +kernel
  have hstate : (chosen inTurn reportedTwice 18).2.map (fun s => s.sender.obj.subflows.length) = some 2 := by
    decide +kernel
  have hrun := (chosen_run reportedTwice_admitted hnext).mono fun _ _ _ h => h.1
  have hlength : reportedTwice.length = 18 := rfl
  rw [hlength] at hrun
  generalize chosen inTurn reportedTwice 18 = p at hsame hcount hheard hstate hrun ⊢
  obtain ⟨H, r⟩ := p
  have hssrc : SsrcsGrouped (rtpSent (bySender H)) := by
    intro id
    apply Grouped.of_forall_eq (c := 0xDEAD)
    rw [List.forall_mem_map]
    exact fun data hdata => hsame data (mem_ofId.mp hdata).1
  have hnew : ReportedAfter (fun k => ¬ 2 ^ 32 ∣ k) (byReceiver H) := by
    intro n src hn hrr sf hsf
    have hlt := (List.getElem?_eq_some_iff.mp hn).1
    obtain ⟨hpos, hfew⟩ := hcount n hlt src (by rw [hn]; rfl) hrr sf hsf
    exact Nat.not_dvd_of_pos_of_lt hpos hfew
  obtain ⟨hlost, hindicator⟩ := no_loss_reported hrun hssrc hnew
  obtain ⟨s, rfl, htwo⟩ := Option.map_eq_some_iff.mp hstate
  exact ⟨hheard, fun p hp hid => hlost p.1 p.2 hp hid, s, rfl, htwo, hindicator s rfl⟩

/-- Three packets on one path, with a new SSRC before the second and the third one, and then a
report. -/
def threePackets : List (List SystemEvent → Step) :=
  [fun _ => .sender (.addInterface ⟨0x0A000001, 23000⟩ true),
    fun _ => .sender (.connect 0xDEAD [⟨0x0A000002, 22000⟩]),
    fun _ => .receiver (.addInterface ⟨0x0A000002, 22000⟩ true),
    fun _ => .sender (.sendData [65] 25), toReceiver false 0, fun _ => .sender (.connect 0xBEEF []),
    fun _ => .sender (.sendData [66] 25), toReceiver false 1, fun _ => .sender (.connect 0xDEAD []),
    fun _ => .sender (.sendData [67] 25), toReceiver false 2,
    toSender 0, toReceiver true 3, toSender 0]

theorem threePackets_admitted : ∀ choose ∈ threePackets, Admitted choose := by
  unfold threePackets
  simp only [List.forall_mem_cons, List.not_mem_nil, false_implies, implies_true, and_true]
  have htrivial : ∀ (H : List SystemEvent) (s : System), True ∧ True ∧ True :=
    fun _ _ => ⟨trivial, trivial, trivial⟩
  exact ⟨htrivial, htrivial, htrivial, admitted_sendData 65, admitted_toReceiver false 0, htrivial,
    admitted_sendData 66, admitted_toReceiver false 1, htrivial, admitted_sendData 67,
    admitted_toReceiver false 2, admitted_toSender 0, admitted_toReceiver true 3, admitted_toSender 0⟩

/-- An SSRC that comes back: the packet of the other one is counted as lost. -/
theorem ssrc_comes_back :
    ¬ ∀ (isPathValid : Endpoint → Endpoint → Bool) (senderUnit receiverUnit : ℚ) (ssrc : UInt32)
      (w w' : World) (route : UInt16 → ℕ) (H : List SystemEvent) (r : Option System),
        Run (step isPathValid) (fun H s e => Lossless route H s e ∧ e.Succeeds)
          (new senderUnit receiverUnit ssrc w w') H r →
        ReportedAfter (fun k => k ≠ 0) (byReceiver H) →
        ∀ pkt id, (pkt, id) ∈ reportsHeard H → id ≠ 0 → pkt.fractionlost = 0 ∧ pkt.packetslost = 0 := by
  intro hall
  have hnext : ∀ n < threePackets.length, ∀ choose ∈ threePackets[n]?,
      ∀ s ∈ (chosen (fun _ => 65534) threePackets n).2,
        (choose (chosen (fun _ => 65534) threePackets n).1).BringsNext
            (chosen (fun _ => 65534) threePackets n).1 s ∧ s.sender.obj.subflows.length ≤ 1000 := by
    decide +kernel
  have hcount : ∀ n < (byReceiver (chosen (fun _ => 65534) threePackets 14).1).length,
      ∀ src ∈ (byReceiver (chosen (fun _ => 65534) threePackets 14).1)[n]?.bind ReceiverEvent.polled?,
        src.sendRr = true → ∀ sf ∈ src.subflows, packetsSince src.ssrc (some sf.subflowId)
          ((byReceiver (chosen (fun _ => 65534) threePackets 14).1).take n) ≠ 0 := by decide +kernel
  have hheard : ∃ p ∈ reportsHeard (chosen (fun _ => 65534) threePackets 14).1,
      p.2 ≠ 0 ∧ p.1.fractionlost = 85 := by decide +kernel
  have hrun := chosen_run threePackets_admitted hnext
  have hlength : threePackets.length = 14 := rfl
  rw [hlength] at hrun
  have hlost := hall _ _ _ _ _ _ _ _ _ hrun
  generalize chosen (fun _ => 65534) threePackets 14 = p at hcount hheard hlost
  have hnew : ReportedAfter (fun k => k ≠ 0) (byReceiver p.1) := by
    intro n src hn
    have hlt := (List.getElem?_eq_some_iff.mp hn).1
    exact hcount n hlt src (by rw [hn]; rfl)
  obtain ⟨q, hq, hid, h85⟩ := hheard
  have hzero := (hlost hnew q.1 q.2 hq hid).1
  rw [h85] at hzero
  exact absurd hzero (by decide)

end System

end Mprtp
