import Mprtp.Session.Arrivals

/-! The bytes of the RTP datagrams in the queues of a session, which a poll handles in the order in
which they came in on each interface. -/
namespace Mprtp

/-- The bytes that a poll of a socket puts into the queue, in order. -/
def PollOutcome.received (io : PollOutcome) : List (List UInt8) :=
  io.recvd.filterMap fun arrival => arrival.bind fun a =>
    if a.data = [] then none else some (a.data.take maxPacketSize)

theorem PollOutcome.received_short {io : PollOutcome} {data : List UInt8} (h : data ∈ io.received) :
    data.length ≤ maxPacketSize := by
  obtain ⟨arrival, -, hdata⟩ := List.mem_filterMap.mp h
  obtain ⟨a, -, ha⟩ := Option.bind_eq_some_iff.mp hdata
  split at ha
  · cases ha
  · cases ha
    exact List.length_take_le _ _

/-- The RTP datagrams among those received. -/
def rtpDatagrams (packets : List RawPacket) : List (List UInt8) :=
  (packets.filter fun raw => !raw.isrtcp).map RawPacket.data

namespace Interface

variable {f : Interface} {w : World}

theorem receive_rtpDatagrams (rtcp : Bool) (a : Option Arrival) :
    rtpDatagrams (receive rtcp f w a).1.packets = rtpDatagrams f.packets ++
      if rtcp then [] else PollOutcome.received { recvd := [a] } := by
  unfold receive PollOutcome.received
  cases a with
  | none => simp
  | some a =>
    by_cases hdata : a.data = []
    · simp [hdata]
    · cases rtcp <;> simp [hdata, rtpDatagrams]

/-- What comes in on the RTP socket joins the queue; the RTCP socket brings no RTP datagrams. -/
theorem poll_rtpDatagrams (rtcp : Bool) (io : PollOutcome) :
    rtpDatagrams (f.poll rtcp io w).1.packets =
      rtpDatagrams f.packets ++ if rtcp then [] else io.received := by
  obtain ⟨recvd, status⟩ := io
  unfold poll
  dsimp only
  induction recvd generalizing f w with
  | nil => simp [PollOutcome.received]
  | cons a as ih =>
    rw [List.foldl_cons, ih, receive_rtpDatagrams, List.append_assoc]
    cases rtcp
    · have hcons : PollOutcome.received { recvd := a :: as, status } =
          PollOutcome.received { recvd := [a] } ++ PollOutcome.received { recvd := as, status } := by
        unfold PollOutcome.received
        rw [← List.filterMap_append]
        rfl
      rw [hcons]
      rfl
    · simp

end Interface

namespace Session

variable {σ ω : Type} {h : Handlers σ ω} {good : List ω → ω → Prop}
  {J : (ℕ → List (List UInt8)) → List ω → σ → List RtpPacket → Prop} {H : List ω} {s : Session σ}

/-- The RTP datagrams in the queue of the interface `i`. -/
def rtpQueue (fs : List Interface) (i : ℕ) : List (List UInt8) :=
  (fs[i]?.map fun f => rtpDatagrams f.packets).getD []

/-- They are the bytes of the datagrams themselves. -/
theorem rtpQueue_eq_map (fs : List Interface) :
    rtpQueue fs = List.map RawPacket.data ∘ queued fs := by
  funext i
  unfold rtpQueue queued
  rw [Function.comp_apply]
  cases fs[i]? with
  | none => rfl
  | some f => rfl

theorem rtpQueue_addInterface (s : Session σ) (addr : Endpoint) (opened : Bool) :
    rtpQueue (s.addInterface addr opened).interfaces = rtpQueue s.interfaces := by
  rw [rtpQueue_eq_map, queued_addInterface, ← rtpQueue_eq_map]

theorem rtpQueue_suspendInterface (s : Session σ) (addr : Endpoint) (suspend : Bool) :
    rtpQueue (s.suspendInterface addr suspend).1.interfaces = rtpQueue s.interfaces := by
  rw [rtpQueue_eq_map, queued_suspendInterface, ← rtpQueue_eq_map]

/-- An interface that is polled gets what comes in on its RTP socket. -/
theorem pollInterfaces_rtpQueue (io : PollInput) (i : ℕ) (fs : List Interface) (w : World) (j : ℕ) :
    rtpQueue (pollInterfaces io i fs w).1 j = rtpQueue fs j ∨
      rtpQueue (pollInterfaces io i fs w).1 j = rtpQueue fs j ++ (io (i + j) false).received := by
  induction fs generalizing i w j with
  | nil => exact Or.inl rfl
  | cons f fs ih =>
    have hrtp := f.poll_rtpDatagrams (w := w) false (io i false)
    unfold pollInterfaces
    generalize f.poll false (io i false) w = r at hrtp ⊢
    obtain ⟨f₁, w₁, status⟩ := r
    have hrtcp := f₁.poll_rtpDatagrams (w := w₁) true (io i true)
    dsimp only at hrtp hrtcp ⊢
    generalize f₁.poll true (io i true) w₁ = r at hrtcp ⊢
    obtain ⟨f₂, w₂, status'⟩ := r
    dsimp only at hrtcp ⊢
    rw [if_pos rfl, List.append_nil] at hrtcp
    rw [if_neg (by decide)] at hrtp
    cases j with
    | zero =>
      right
      split
      · exact hrtp
      · split
        · exact hrtcp.trans hrtp
        · exact hrtcp.trans hrtp
    | succ j =>
      split
      · exact Or.inl rfl
      · split
        · exact Or.inl rfl
        · have hrest := ih (i + 1) w₂ j
          rw [Nat.add_right_comm, Nat.add_assoc] at hrest
          exact hrest

/-- `J` is kept by the calls for the datagrams in the queues, where those of an interface are handled
in order; it knows the RTP datagrams that are still in the queues. -/
structure KeptInOrder (h : Handlers σ ω) (good : List ω → ω → Prop)
    (J : (ℕ → List (List UInt8)) → List ω → σ → List RtpPacket → Prop) : Prop where
  rtp : ∀ q H d packets w i (raw : RawPacket) pkt rest, q i = raw.data :: rest →
    raw.isrtcp = false → RtpPacket.parse raw = .ok pkt → J q H d packets →
    good H (h.visit d (.rtp pkt i)) ∧ J (Function.update q i rest) (H ++ [h.visit d (.rtp pkt i)])
      (h.next d packets w (.rtp pkt i)).1 (h.next d packets w (.rtp pkt i)).2
  refused : ∀ q H d packets i (raw : RawPacket) rest e, q i = raw.data :: rest →
    raw.isrtcp = false → RtpPacket.parse raw = .error e → J q H d packets →
    J (Function.update q i rest) H d packets
  rtcp : ∀ q H d packets w i call, J q H d packets → good H (h.visit d (.rtcp call i)) ∧
    J q (H ++ [h.visit d (.rtcp call i)]) (h.next d packets w (.rtcp call i)).1
      (h.next d packets w (.rtcp call i)).2

theorem KeptInOrder.queues (hk : KeptInOrder h good J) :
    KeptByQueues h good fun q => J (List.map RawPacket.data ∘ q) where
  rtp := by
    intro q H d packets w i raw pkt rest hq hrtp hparse hJ
    have hdata : (List.map RawPacket.data ∘ q) i = raw.data :: rest.map RawPacket.data := by
      rw [Function.comp_apply, hq, List.map_cons]
    rw [Function.comp_update]
    exact hk.rtp _ H d packets w i raw pkt _ hdata hrtp hparse hJ
  refused := by
    intro q H d packets i raw rest e hq hrtp hparse hJ
    have hdata : (List.map RawPacket.data ∘ q) i = raw.data :: rest.map RawPacket.data := by
      rw [Function.comp_apply, hq, List.map_cons]
    rw [Function.comp_update]
    exact hk.refused _ H d packets i raw _ e hdata hrtp hparse hJ
  rtcp := fun q H d packets w i call hJ => hk.rtcp _ H d packets w i call hJ

/-- The poll rule in order, for the bytes. -/
theorem KeptInOrder.poll (hk : KeptInOrder h good J) {fuel : ℕ} {io : PollInput}
    (hJ : J (rtpQueue (pollInterfaces io 0 s.interfaces s.world).1) H s.obj s.packets) :
    (s.poll h fuel io).Sat good H
      fun H r => J (rtpQueue r.1.interfaces) H r.1.obj r.1.packets := by
  rw [rtpQueue_eq_map] at hJ
  refine (hk.queues.poll hJ).mono (fun _ _ hg => hg) ?_
  intro H' r hr
  rwa [rtpQueue_eq_map]

end Session

end Mprtp
