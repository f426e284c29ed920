import Mprtp.Receiver.Reports
import Mprtp.Sender.Steps
import Mprtp.Session.Conservation

/-! No RTP datagram is lost or doubled on its way through a session, a sender or a receiver. -/
namespace Mprtp

theorem Source.processOnSubflow_rawpack (src : Source) (pack : RtpPacket) (tsunit : ℚ) (iface : ℕ)
    (w : World) : (src.processOnSubflow pack tsunit iface w).1.rawpack = pack.rawpack := by
  unfold processOnSubflow
  dsimp only
  split
  · rfl
  · rename_i sf hsf
    obtain ⟨ext, subflowExt, hpack⟩ := sf.recvStat.processPacket_pack pack true tsunit
    change (sf.recvStat.processPacket pack true tsunit).2.rawpack = _
    rw [hpack]

theorem Source.processPacket_rawpack (src : Source) (pack : RtpPacket) (tsunit : ℚ) (iface : ℕ)
    (w : World) : (src.processPacket pack tsunit iface w).1.rawpack = pack.rawpack := by
  obtain ⟨ext, subflowExt, hpack⟩ := src.stat.processPacket_pack pack false tsunit
  have hraw : (src.stat.processPacket pack false tsunit).2.rawpack = pack.rawpack := by rw [hpack]
  have hon := { src with stat := (src.stat.processPacket pack false tsunit).1 }.processOnSubflow_rawpack
    (src.stat.processPacket pack false tsunit).2 tsunit iface w
  unfold processPacket
  dsimp only
  split
  · exact hon.trans hraw
  · exact hon.trans hraw

theorem receiverHandlers_keepsPackets : receiverHandlers.KeepsPackets where
  keep := fun _ _ _ _ => rfl
  rawpack := fun d w pkt i => Source.processPacket_rawpack (d.getSource pkt.ssrc) pkt d.timestampUnit i w

theorem senderHandlers_keepsPackets : senderHandlers.KeepsPackets where
  keep := fun _ _ _ _ => rfl
  rawpack := fun _ _ _ _ => rfl

theorem sessionHandlers_keepsPackets : sessionHandlers.KeepsPackets where
  keep := fun _ _ _ _ => rfl
  rawpack := fun _ _ _ _ => rfl

def Session.Step.queueCall : Session.Step → QueueCall
  | .poll fuel io => .poll fuel io
  | .fetchPacket => .fetchPacket
  | _ => .other

def Sender.Step.queueCall : Sender.Step → QueueCall
  | .poll fuel io => .poll fuel io
  | .fetchPacket => .fetchPacket
  | _ => .other

def Receiver.Step.queueCall : Receiver.Step → QueueCall
  | .poll fuel io => .poll fuel io
  | .fetchPacket => .fetchPacket
  | _ => .other

theorem session_drives : Session.Drives sessionHandlers Session.step Session.Step.queueCall where
  poll := by
    intro s e fuel io he
    cases e with
    | poll fuel' io' =>
      cases he
      exact ⟨_, rfl, fun p L => Exec.sat_pure ⟨rfl, rfl⟩⟩
    | _ => cases he
  fetch := by
    intro s e L he
    cases e with
    | fetchPacket => exact Exec.sat_pure rfl
    | _ => cases he
  other := by
    intro s e L he
    cases e with
    | addInterface addr opened =>
      exact Exec.sat_pure ⟨Session.queued_addInterface s addr opened, s.addInterface_packets addr opened⟩
    | suspendInterface addr suspend =>
      exact Exec.sat_pure ⟨Session.queued_suspendInterface s addr suspend, rfl⟩
    | _ => cases he

theorem sender_drives (isPathValid : Endpoint → Endpoint → Bool) :
    Session.Drives senderHandlers (Sender.step isPathValid) Sender.Step.queueCall where
  poll := by
    intro s e fuel io he
    cases e with
    | poll fuel' io' =>
      cases he
      refine ⟨_, rfl, ?_⟩
      intro p L
      refine Exec.sat_bind (Q := fun _ _ => True) Exec.sat_trivial ?_
      intro L₁ q _
      refine Exec.sat_bind (Q := fun _ _ => True) Exec.sat_trivial ?_
      intro L₂ _ _
      refine Exec.sat_bind (Q := fun _ _ => True) Exec.sat_trivial ?_
      exact fun _ _ _ => Exec.sat_pure ⟨rfl, rfl⟩
    | _ => cases he
  fetch := by
    intro s e L he
    cases e with
    | fetchPacket => exact Exec.sat_pure rfl
    | _ => cases he
  other := by
    intro s e L he
    cases e with
    | addInterface addr opened =>
      exact Exec.sat_pure ⟨Session.queued_addInterface s addr opened, s.addInterface_packets addr opened⟩
    | suspendInterface addr suspend =>
      exact Exec.sat_pure ⟨Session.queued_suspendInterface s addr suspend, rfl⟩
    | connect ssrc destination =>
      have hqueues := Sender.connect_queues isPathValid s ssrc destination
      exact Exec.sat_pure ⟨congrArg Session.queued hqueues.1, hqueues.2⟩
    | sendData data ret =>
      refine Exec.sat_bind (Q := fun _ r => r.2.interfaces = s.interfaces ∧ r.2.packets = s.packets) ?_ ?_
      · refine Exec.sat_bind (Q := fun _ _ => True) Exec.sat_trivial ?_
        exact fun _ _ _ => Exec.sat_pure ⟨rfl, rfl⟩
      · intro L' r hr
        exact Exec.sat_pure ⟨congrArg Session.queued hr.1, hr.2⟩
    | _ => cases he

theorem receiver_drives : Session.Drives receiverHandlers Receiver.step Receiver.Step.queueCall where
  poll := by
    intro r e fuel io he
    cases e with
    | poll fuel' io' =>
      cases he
      refine ⟨_, rfl, ?_⟩
      intro p L
      refine Exec.sat_bind (Q := fun _ _ => True) Exec.sat_trivial ?_
      exact fun _ _ _ => Exec.sat_pure ⟨rfl, rfl⟩
    | _ => cases he
  fetch := by
    intro r e L he
    cases e with
    | fetchPacket =>
      unfold Receiver.step
      dsimp only
      split
      · rename_i r' hfetch
        rw [hfetch]
        exact Exec.sat_pure rfl
      · rename_i pkt r' hfetch
        rw [hfetch]
        refine Exec.sat_bind (Q := fun _ _ => True) Exec.sat_trivial ?_
        exact fun _ _ _ => Exec.sat_pure rfl
    | _ => cases he
  other := by
    intro r e L he
    cases e with
    | addInterface addr opened =>
      exact Exec.sat_pure ⟨Session.queued_addInterface r addr opened, r.addInterface_packets addr opened⟩
    | suspendInterface addr suspend =>
      exact Exec.sat_pure ⟨Session.queued_suspendInterface r addr suspend, rfl⟩
    | _ => cases he

/-- In every run of a session, of a sender and of a receiver the accepted RTP datagrams are conserved,
and the rejected ones change nothing. -/
theorem rtp_datagrams_conserved :
    (∀ (w : World) (H : List ((Session Unit × Session.Step) ⊕ Call)) (s : Session Unit),
      Run (noting Session.step) (fun _ _ _ => True) (Session.new w) H (some s) →
        Session.Conserved Session.Step.queueCall H s) ∧
    (∀ (isPathValid : Endpoint → Endpoint → Bool) (timestampUnit : ℚ) (w : World)
      (H : List ((Sender × Sender.Step) ⊕ SenderEvent)) (s : Sender),
      Run (noting (Sender.step isPathValid)) (fun _ _ _ => True) (Sender.new timestampUnit w) H (some s) →
        Session.Conserved Sender.Step.queueCall H s) ∧
    (∀ (timestampUnit : ℚ) (ssrc : UInt32) (w : World)
      (H : List ((Receiver × Receiver.Step) ⊕ ReceiverEvent)) (r : Receiver),
      Run (noting Receiver.step) (fun _ _ _ => True) (Receiver.new timestampUnit ssrc w) H (some r) →
        Session.Conserved Receiver.Step.queueCall H r) ∧
    ∀ {σ ω : Type} (h : Handlers σ ω) (fuel i : ℕ) (s : Session σ),
      s.drain h fuel i = (s.dropRejected i).drain h fuel i := by
  refine ⟨?_, ?_, ?_, ?_⟩
  · intro w H s hrun
    exact session_drives.run_conserved sessionHandlers_keepsPackets ⟨rfl, rfl⟩ hrun
  · intro isPathValid timestampUnit w H s hrun
    exact (sender_drives isPathValid).run_conserved senderHandlers_keepsPackets ⟨rfl, rfl⟩ hrun
  · intro timestampUnit ssrc w H r hrun
    exact receiver_drives.run_conserved receiverHandlers_keepsPackets ⟨rfl, rfl⟩ hrun
  · intro σ ω h fuel i s
    exact s.drain_dropRejected fuel i

/-- A datagram that is no RTP packet and a packet on the first interface, and a packet on the second one, the
poll of which then fails. -/
def failsOnSecond : PollInput := fun i rtcp =>
  if rtcp then {}
  else if i = 0 then Receiver.fromSender [[0], Receiver.subflowPacket] 0
  else Receiver.fromSender [(Receiver.subflowPacket.set 3 101).set 19 2] (-1)

/-- A poll that ends early, one with more packets that goes through, and a packet that is fetched. -/
def packetFetched : List Receiver.Step :=
  [.addInterface ⟨0x0A000002, 22000⟩ true, .addInterface ⟨0x0A000004, 22000⟩ true,
    .poll 10 failsOnSecond, .poll 10 Receiver.packetOnEach, .fetchPacket]

def packetFetchedRun : Exec ((Receiver × Receiver.Step) ⊕ ReceiverEvent) Receiver :=
  packetFetched.foldlM (noting Receiver.step) (Receiver.new 1 1 (.ticking 1000))

theorem packetFetched_conserved : ∃ r, packetFetchedRun.res = some r ∧
    Session.Conserved Receiver.Step.queueCall packetFetchedRun.log r ∧
    (Session.arrived Receiver.Step.queueCall packetFetchedRun.log 0).map RawPacket.data =
      [[0], Receiver.subflowPacket, Receiver.subflowPacket] ∧
    (Session.arrived Receiver.Step.queueCall packetFetchedRun.log 1).map RawPacket.data =
      [(Receiver.subflowPacket.set 3 101).set 19 2, Receiver.subflowPacket.set 19 2] ∧
    (Session.returned Receiver.Step.queueCall packetFetchedRun.log).map (fun pkt => pkt.rawpack.data) =
      [Receiver.subflowPacket] ∧
    r.packets.map (fun pkt => pkt.rawpack.data) = [Receiver.subflowPacket,
      (Receiver.subflowPacket.set 3 101).set 19 2, Receiver.subflowPacket.set 19 2] ∧
    ((packetFetched.take 3).foldlM Receiver.step (Receiver.new 1 1 (.ticking 1000))).res.map
      (fun r => r.packets.length) = some 0 := by
  have hsome : ∃ r ∈ packetFetchedRun.res, r.packets.map (fun pkt => pkt.rawpack.data) =
      [Receiver.subflowPacket, (Receiver.subflowPacket.set 3 101).set 19 2,
        Receiver.subflowPacket.set 19 2] := by decide +kernel
  obtain ⟨r, hr, hleft⟩ := hsome
  have hrun : Run (noting Receiver.step) (fun _ _ _ => True) (Receiver.new 1 1 (.ticking 1000))
      packetFetchedRun.log packetFetchedRun.res := Run.foldlM _ packetFetched
  rw [hr] at hrun
  refine ⟨r, hr, rtp_datagrams_conserved.2.2.1 _ _ _ _ r hrun, ?_, ?_, ?_, hleft, ?_⟩
  · decide +kernel
  · decide +kernel
  · decide +kernel
  · decide +kernel

end Mprtp
