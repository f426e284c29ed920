import Mathlib.Logic.Function.Basic
import Mprtp.Session.Queues

/-! The RTP datagrams in the queues of a session: a poll puts new ones behind them, and then takes them
out one by one. -/
namespace Mprtp

def rtpPackets (packets : List RawPacket) : List RawPacket := packets.filter fun raw => !raw.isrtcp

namespace Interface

variable {f : Interface} {w : World}

theorem receive_packets (rtcp : Bool) (a : Option Arrival) :
    f.packets <+: (receive rtcp f w a).1.packets := by
  unfold receive
  cases a with
  | none => exact List.prefix_rfl
  | some a =>
    dsimp only
    split
    · exact List.prefix_rfl
    · exact List.prefix_append _ _

theorem poll_packets (rtcp : Bool) (io : PollOutcome) :
    f.packets <+: (f.poll rtcp io w).1.packets := by
  obtain ⟨recvd, status⟩ := io
  unfold poll
  dsimp only
  induction recvd generalizing f w with
  | nil => exact List.prefix_rfl
  | cons a as ih =>
    rw [List.foldl_cons]
    exact (receive_packets rtcp a).trans ih

end Interface

namespace Session

variable {σ ω : Type} {h : Handlers σ ω} {good : List ω → ω → Prop}
  {J : (ℕ → List RawPacket) → List ω → σ → List RtpPacket → Prop} {H : List ω} {s : Session σ}
  {fs : List Interface}

/-- The RTP datagrams in the queue of the interface `i`. -/
def queued (fs : List Interface) (i : ℕ) : List RawPacket :=
  (fs[i]?.map fun f => rtpPackets f.packets).getD []

theorem queued_addInterface (s : Session σ) (addr : Endpoint) (opened : Bool) :
    queued (s.addInterface addr opened).interfaces = queued s.interfaces := by
  funext i
  exact getD_addInterface (fun _ => rfl) s addr opened i

theorem addInterface_packets (s : Session σ) (addr : Endpoint) (opened : Bool) :
    (s.addInterface addr opened).packets = s.packets := by
  unfold addInterface
  split
  · rfl
  · rfl

theorem queued_suspendInterface (s : Session σ) (addr : Endpoint) (suspend : Bool) :
    queued (s.suspendInterface addr suspend).1.interfaces = queued s.interfaces := by
  have hfirst : ∀ (fs : List Interface) (i : ℕ),
      queued (suspendFirst addr suspend fs).1 i = queued fs i := by
    intro fs
    induction fs with
    | nil => exact fun _ => rfl
    | cons f fs ih =>
      intro i
      unfold suspendFirst
      split
      · cases i with
        | zero => rfl
        | succ i => rfl
      · cases i with
        | zero => rfl
        | succ i => exact ih i
  funext i
  exact hfirst s.interfaces i

theorem queued_pollInterfaces (io : PollInput) (fs : List Interface) (w : World) (i : ℕ) :
    queued fs i <+: queued (pollInterfaces io 0 fs w).1 i :=
  getD_pollInterfaces (R := fun x y => x <+: y) (fun _ => List.prefix_rfl) (fun _ _ _ => List.IsPrefix.trans)
    (fun _ _ _ _ => (Interface.poll_packets _ _).filter _) io 0 fs w i

/-- Behind `drain` the queue of the interface is empty, and the others are as they were. -/
theorem queued_drained (fs : List Interface) (n : ℕ) :
    queued (drained (n + 1) fs) = Function.update (queued (drained n fs)) n [] := by
  funext i
  unfold queued
  rw [getElem?_drained]
  by_cases hi : i = n
  · subst hi
    rw [Function.update_self]
    simp only [Nat.lt_succ_self, if_true]
    cases fs[i]? <;> rfl
  · have hiff : i < n + 1 ↔ i < n := by omega
    rw [Function.update_of_ne hi, getElem?_drained]
    simp only [hiff]

/-- `J` is kept by the calls for the datagrams in the queues, where those of an interface are handled
in order; it knows the RTP datagrams that are still in the queues. -/
structure KeptByQueues (h : Handlers σ ω) (good : List ω → ω → Prop)
    (J : (ℕ → List RawPacket) → List ω → σ → List RtpPacket → Prop) : Prop where
  rtp : ∀ q H d packets w i (raw : RawPacket) pkt rest, q i = raw :: rest →
    raw.isrtcp = false → RtpPacket.parse raw = .ok pkt → J q H d packets →
    good H (h.visit d (.rtp pkt i)) ∧ J (Function.update q i rest) (H ++ [h.visit d (.rtp pkt i)])
      (h.next d packets w (.rtp pkt i)).1 (h.next d packets w (.rtp pkt i)).2
  refused : ∀ q H d packets i (raw : RawPacket) rest e, q i = raw :: rest →
    raw.isrtcp = false → RtpPacket.parse raw = .error e → J q H d packets →
    J (Function.update q i rest) H d packets
  rtcp : ∀ q H d packets w i call, J q H d packets → good H (h.visit d (.rtcp call i)) ∧
    J q (H ++ [h.visit d (.rtcp call i)]) (h.next d packets w (.rtcp call i)).1
      (h.next d packets w (.rtcp call i)).2

theorem call_sat_of_kept {J' : List ω → σ → List RtpPacket → Prop} {c : Call}
    (hg : good H (h.visit s.obj c))
    (hJ : J' (H ++ [h.visit s.obj c]) (h.next s.obj s.packets s.world c).1
      (h.next s.obj s.packets s.world c).2) (hf : s.interfaces = fs) :
    (s.call h c).Sat good H fun H s' => J' H s'.obj s'.packets ∧ s'.interfaces = fs := by
  have hnext := s.handle_next (h := h) c
  rw [← hnext] at hJ
  apply call_rule hg
  exact ⟨hJ, by rw [handle_interfaces, hf]⟩

variable {q : ℕ → List RawPacket} {fuel i : ℕ} {raw : RawPacket}

theorem KeptByQueues.rtcpPacket (hk : KeptByQueues h good J) (hrtcp : raw.isrtcp = true)
    (hJ : J q H s.obj s.packets) (hf : s.interfaces = fs) :
    (s.processRawPacket h fuel i raw).Sat good H
      fun H s' => J q H s'.obj s'.packets ∧ s'.interfaces = fs := by
  unfold processRawPacket
  rw [if_pos hrtcp]
  apply processRtcpPacket_rule
  · intro H s c _ hI
    obtain ⟨hJ, hf⟩ := hI
    obtain ⟨hg, hJ'⟩ := hk.rtcp q H s.obj s.packets s.world i c hJ
    exact call_sat_of_kept hg hJ' hf
  · exact ⟨hJ, hf⟩

theorem KeptByQueues.rtpPacket (hk : KeptByQueues h good J) (hrtp : raw.isrtcp = false)
    {rest : List RawPacket} (hq : q i = raw :: rest) (hJ : J q H s.obj s.packets)
    (hf : s.interfaces = fs) : (s.processRawPacket h fuel i raw).Sat good H
      fun H s' => J (Function.update q i rest) H s'.obj s'.packets ∧ s'.interfaces = fs := by
  unfold processRawPacket processRtpPacket
  rw [if_neg (by rw [hrtp]; decide)]
  cases hparse : RtpPacket.parse raw with
  | error e => exact Exec.sat_pure ⟨hk.refused q H _ _ i raw rest e hq hrtp hparse hJ, hf⟩
  | ok pkt =>
    obtain ⟨hg, hJ'⟩ := hk.rtp q H s.obj s.packets s.world i raw pkt rest hq hrtp hparse hJ
    exact call_sat_of_kept hg hJ' hf

theorem KeptByQueues.drain (hk : KeptByQueues h good J) {n : ℕ}
    (hJ : J (queued (drained n fs)) H s.obj s.packets) (hf : s.interfaces = drained n fs) :
    (s.drain h fuel n).Sat good H fun H s' =>
      J (queued (drained (n + 1) fs)) H s'.obj s'.packets ∧
        s'.interfaces = drained (n + 1) fs := by
  unfold Session.drain
  cases hget : s.interfaces[n]? with
  | none =>
    rw [hf] at hget
    rw [← drained_succ_of_none hget]
    exact Exec.sat_pure ⟨hJ, hf⟩
  | some f =>
    have hset := set_drained (hf ▸ hget)
    have hqueue : queued (drained n fs) n = rtpPackets f.packets := by
      unfold queued
      rw [← hf, hget]
      rfl
    rw [queued_drained]
    generalize queued (drained n fs) = q at hJ hqueue ⊢
    -- what is left of the queue stays at its place in `q`
    refine Exec.sat_foldlM_rest (I := fun rest H (s' : Session σ) =>
      J (Function.update q n (rtpPackets rest)) H s'.obj s'.packets ∧
        s'.interfaces = drained (n + 1) fs) ?_ ?_
    · intro raw rest H s' _ hI
      obtain ⟨hJ', hf'⟩ := hI
      cases hrtcp : raw.isrtcp with
      | true =>
        have hrest : rtpPackets (raw :: rest) = rtpPackets rest := by simp [rtpPackets, hrtcp]
        rw [hrest] at hJ'
        exact hk.rtcpPacket hrtcp hJ' hf'
      | false =>
        have hrest : rtpPackets (raw :: rest) = raw :: rtpPackets rest := by simp [rtpPackets, hrtcp]
        rw [hrest] at hJ'
        have hhead : Function.update q n (raw :: rtpPackets rest) n = raw :: rtpPackets rest :=
          Function.update_self ..
        refine (hk.rtpPacket hrtcp hhead hJ' hf').mono (fun _ _ hg => hg) fun H₁ s₁ h₁ => ?_
        rwa [Function.update_idem] at h₁
    · dsimp only
      rw [← hqueue, Function.update_eq_self]
      exact ⟨hJ, by rw [hf, hset]⟩

/-- The poll rule in order. -/
theorem KeptByQueues.poll (hk : KeptByQueues h good J) {io : PollInput}
    (hJ : J (queued (pollInterfaces io 0 s.interfaces s.world).1) H s.obj s.packets) :
    (s.poll h fuel io).Sat good H fun H r => J (queued r.1.interfaces) H r.1.obj r.1.packets := by
  unfold Session.poll
  generalize pollInterfaces io 0 s.interfaces s.world = r at hJ ⊢
  obtain ⟨fs, w, status⟩ := r
  dsimp only at hJ ⊢
  apply Exec.sat_ite
  · intro _
    exact Exec.sat_pure hJ
  · intro _
    rw [← drained_zero fs] at hJ
    have hloop := Exec.sat_foldlM_range (f := fun (s : Session σ) i => s.drain h fuel i)
      (I := fun n H s' => J (queued (drained n fs)) H s'.obj s'.packets ∧
        s'.interfaces = drained n fs) (a := { s with interfaces := fs, world := w })
      (fun n H s' hn => hk.drain hn.1 hn.2) ⟨hJ, (drained_zero fs).symm⟩
    apply Exec.sat_bind (hloop fs.length)
    intro H' s' h'
    obtain ⟨hJ', hf'⟩ := h'
    rw [← hf'] at hJ'
    exact Exec.sat_pure hJ'

end Session

end Mprtp
