import Mprtp.Receiver.Suspension
import Mprtp.Sender.Suspension

/-! What is sent while an interface is suspended. -/
namespace Mprtp

/-- In every run of a sender or of a receiver whose steps find nothing to send through an interface with
the mark, nothing is sent through an interface that has been suspended and not resumed since. -/
theorem sent_through_unsuspended (timestampUnit : ℚ) (w : World) :
    (∀ (isPathValid : Endpoint → Endpoint → Bool) (H : List ((Sender × Sender.Step) ⊕ SenderEvent))
      (r : Option Sender),
      Run (noting (Sender.step isPathValid)) (fun _ s e => Sender.SparesIn s e)
        (Sender.new timestampUnit w) H r →
      ∀ n k out, H[n]? = some (.inr (.sent k out)) →
        ¬ Session.SuspendedSince Sender.Step.suspend? out.iface (H.take n)) ∧
    ∀ (ssrc : UInt32) (H : List ((Receiver × Receiver.Step) ⊕ ReceiverEvent)) (r : Option Receiver),
      Run (noting Receiver.step) (fun _ s e => Receiver.SparesIn s e)
        (Receiver.new timestampUnit ssrc w) H r →
      ∀ n s out, H[n]? = some (.inr (.sent s out)) →
        ¬ Session.SuspendedSince Receiver.Step.suspend? out.iface (H.take n) := by
  constructor
  · intro isPathValid H r hrun n k out hn
    exact (Sender.run_suspended hrun).1 (fun _ _ _ hspares => hspares) n _ out hn rfl
  · intro ssrc H r hrun n s out hn
    exact (Receiver.run_suspended hrun).1 (fun _ _ _ hspares => hspares) n _ out hn rfl

/-- A path is valid from the first address, and from any address to one destination. -/
def fromFirst (addr dest : Endpoint) : Bool := addr.ip = 0x0A000001 ∨ dest.ip = 0x0A000008

/-- A sender of two interfaces that is connected, and one of them suspended. -/
def suspendedSender (destination : List Endpoint) (ip : UInt32) : Sender :=
  ((Sender.connect fromFirst (((Sender.new 1 (.ticking 1000)).addInterface ⟨0x0A000001, 23000⟩ true).addInterface
    ⟨0x0A000003, 23000⟩ true) 0xDEAD destination).2.suspendInterface ⟨ip, 23000⟩ true).1

def suspendingCalls (destination : List Endpoint) (ip : UInt32) : List Sender.Step :=
  [.addInterface ⟨0x0A000001, 23000⟩ true, .addInterface ⟨0x0A000003, 23000⟩ true,
    .connect 0xDEAD destination, .suspendInterface ⟨ip, 23000⟩ true]

/-- Three subflows on the first interface and a fourth one, with no share of the draws, on the second. -/
def fourSubflows : Sender :=
  suspendedSender [⟨0x0A000002, 22000⟩, ⟨0x0A000006, 22000⟩, ⟨0x0A000008, 22000⟩] 0x0A000003

theorem fourSubflows_spares : Sender.Spares fourSubflows := by
  have hhalves : ∀ sf ∈ fourSubflows.obj.subflows, sf.percentage = .fin (1 / 2) := by decide +kernel
  have hfirst : ∀ k < 3, ∀ sf ∈ fourSubflows.obj.subflows[k]?, sf.iface = 0 := by decide +kernel
  intro i hi
  obtain ⟨k, sf, hk, hget, rfl⟩ := hi
  rw [hfirst k ((SenderData.selectable_iff_of_halves hhalves).mp hk).2 sf hget]
  rfl

/-- A packet on each of two interfaces and a sender report on the first one, the other one suspended. -/
def otherSuspended : List Receiver.Step :=
  [.addInterface ⟨0x0A000002, 22000⟩ true, .addInterface ⟨0x0A000004, 22000⟩ true,
    .suspendInterface ⟨0x0A000004, 22000⟩ true, .poll 10 Receiver.packetOnEach,
    .poll 10 (.arrive true ⟨0x0A000001, 23001⟩ [Receiver.streamReport])]

/-- The first `n` steps of it. -/
def otherSuspendedRun (n : ℕ) : Exec ((Receiver × Receiver.Step) ⊕ ReceiverEvent) Receiver :=
  (otherSuspended.take n).foldlM (noting Receiver.step) (Receiver.new 1 1 (.ticking 1000))

theorem sparesIn_poll {r : Receiver} {fuel : ℕ} {io : PollInput}
    (h : ∀ p ∈ (Session.poll receiverHandlers fuel io r).res, ∀ src ∈ p.1.obj.sources,
      ∀ sf ∈ src.subflows.head?, Session.suspended p.1.interfaces sf.iface = false) :
    Receiver.SparesIn r (.poll fuel io) := by
  intro r' status hr' src hsrc i hi
  obtain ⟨-, sf, hsf, rfl⟩ := hi
  exact h (r', status) hr' src hsrc sf hsf

theorem otherSuspended_run : Run (noting Receiver.step) (fun _ r e => Receiver.SparesIn r e)
    (Receiver.new 1 1 (.ticking 1000)) (otherSuspendedRun 5).log (otherSuspendedRun 5).res := by
  have hpacket : ∀ r ∈ (otherSuspendedRun 3).res, ∀ p ∈ (Session.poll receiverHandlers 10
      Receiver.packetOnEach r).res, ∀ src ∈ p.1.obj.sources,
        ∀ sf ∈ src.subflows.head?, Session.suspended p.1.interfaces sf.iface = false := by
    decide +kernel
  have hreport : ∀ r ∈ (otherSuspendedRun 4).res, ∀ p ∈ (Session.poll receiverHandlers 10
      (.arrive true ⟨0x0A000001, 23001⟩ [Receiver.streamReport]) r).res, ∀ src ∈ p.1.obj.sources,
        ∀ sf ∈ src.subflows.head?, Session.suspended p.1.interfaces sf.iface = false := by
    decide +kernel
  apply Run.foldlM_of _ otherSuspended
  intro n e r he hr
  match n, he with
  | 0, he => cases he; trivial
  | 1, he => cases he; trivial
  | 2, he => cases he; trivial
  | 3, he => cases he; exact sparesIn_poll (hpacket r hr)
  | 4, he => cases he; exact sparesIn_poll (hreport r hr)

/-- While the interface that is not used is suspended, with a subflow on it, data and reports go through
the other one. -/
theorem unused_suspended :
    (fourSubflows.obj.subflows.map Subflow.iface = [0, 0, 0, 1] ∧
      ∃ (H : List ((Sender × Sender.Step) ⊕ SenderEvent)) (n k : ℕ) (out : OutDatagram),
        .inl (fourSubflows, .sendData [65] 25) ∈ H ∧ H[n]? = some (.inr (.sent k out)) ∧
        Session.SuspendedSince Sender.Step.suspend? 1 (H.take n) ∧
        ¬ Session.SuspendedSince Sender.Step.suspend? out.iface (H.take n)) ∧
    (∃ r ∈ (otherSuspendedRun 5).res, Session.suspended r.interfaces 1 = true ∧
      r.obj.sources.map (fun src => src.subflows.map Subflow.iface) = [[0, 1]]) ∧
    ∃ (n : ℕ) (s : UInt32) (out : OutDatagram),
      (otherSuspendedRun 5).log[n]? = some (.inr (.sent s out)) ∧
      ¬ Session.SuspendedSince Receiver.Step.suspend? out.iface ((otherSuspendedRun 5).log.take n) := by
  refine ⟨⟨by decide +kernel, ?_⟩, by decide +kernel, ?_⟩
  · have hrun : Run (noting (Sender.step fromFirst)) (fun _ s e => Sender.SparesIn s e)
        (Sender.new 1 (.ticking 1000)) _ (some fourSubflows) :=
      Run.foldlM_of _ (suspendingCalls [⟨0x0A000002, 22000⟩, ⟨0x0A000006, 22000⟩, ⟨0x0A000008, 22000⟩]
        0x0A000003) (by
        intro n e s he _
        match n, he with
        | 0, he => cases he; trivial
        | 1, he => cases he; trivial
        | 2, he => cases he; trivial
        | 3, he => cases he; trivial)
    have hchosen : (fourSubflows.obj.selectSubflow fourSubflows.world).1 = some 0 := by decide +kernel
    obtain ⟨H, r, n, out, hrun', hmem, hn, -, hsince⟩ := Sender.sends_suspended hrun [65] 25
      fourSubflows_spares hchosen rfl (i := 1) rfl
    exact ⟨H, n, 0, out, hmem, hn, hsince, (sent_through_unsuspended _ _).1 _ H r hrun' n 0 out hn⟩
  · have hsome : ∃ so ∈ ((otherSuspendedRun 5).log[11]?.bind Sum.getRight?).bind ReceiverEvent.sent?,
        so.2.iface = 0 := by decide +kernel
    obtain ⟨⟨s, out⟩, hso, -⟩ := hsome
    obtain ⟨a, ha, hsent⟩ := Option.bind_eq_some_iff.mp hso
    obtain ⟨e, he, hea⟩ := Option.bind_eq_some_iff.mp ha
    rw [Sum.getRight?_eq_some_iff.mp hea, ReceiverEvent.eq_sent hsent] at he
    exact ⟨11, s, out, he, (sent_through_unsuspended _ _).2 _ _ _ otherSuspended_run 11 s out he⟩

/-- The flag of an interface is never read: data goes through a suspended interface. -/
theorem sent_through_suspended :
    ¬ ((∀ (isPathValid : Endpoint → Endpoint → Bool) (timestampUnit : ℚ) (w : World)
      (H : List ((Sender × Sender.Step) ⊕ SenderEvent)) (r : Option Sender),
      Run (noting (Sender.step isPathValid)) (fun _ _ _ => True) (Sender.new timestampUnit w) H r →
      ∀ n k out, H[n]? = some (.inr (.sent k out)) →
        ¬ Session.SuspendedSince Sender.Step.suspend? out.iface (H.take n)) ∧
    ∀ (timestampUnit : ℚ) (ssrc : UInt32) (w : World)
      (H : List ((Receiver × Receiver.Step) ⊕ ReceiverEvent)) (r : Option Receiver),
      Run (noting Receiver.step) (fun _ _ _ => True) (Receiver.new timestampUnit ssrc w) H r →
      ∀ n s out, H[n]? = some (.inr (.sent s out)) →
        ¬ Session.SuspendedSince Receiver.Step.suspend? out.iface (H.take n)) := by
  intro h
  have hrun : Run (noting (Sender.step fromFirst)) (fun _ _ _ => True) (Sender.new 1 (.ticking 1000)) _
      (some (suspendedSender [⟨0x0A000002, 22000⟩] 0x0A000001)) :=
    Run.foldlM _ (suspendingCalls [⟨0x0A000002, 22000⟩] 0x0A000001)
  have hchosen : ((suspendedSender [⟨0x0A000002, 22000⟩] 0x0A000001).obj.selectSubflow
      (suspendedSender [⟨0x0A000002, 22000⟩] 0x0A000001).world).1 = some 0 := by decide +kernel
  obtain ⟨sf, hiface, hsf⟩ : ∃ sf, sf.iface = 0 ∧
      (suspendedSender [⟨0x0A000002, 22000⟩] 0x0A000001).obj.subflows[0]? = some sf := ⟨_, rfl, rfl⟩
  obtain ⟨H, r, n, out, hrun', -, hn, hout, hsince⟩ := Sender.sends_suspended hrun [65] 25
    trivial hchosen hsf (i := 0) rfl
  rw [← hiface, ← hout] at hsince
  exact h.1 _ _ _ H r hrun' n 0 out hn hsince

end Mprtp
