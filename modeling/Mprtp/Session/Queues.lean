import Mprtp.Session.Rules

/-! What holds of every datagram that a session receives, and an invariant of the derived object
that the handler calls keep. -/
namespace Mprtp

/-- The bytes of every datagram that a poll meets satisfy `P`, as far as they are kept. -/
def PollInput.Brings (P : List UInt8 → Prop) (io : PollInput) : Prop :=
  ∀ i rtcp a, some a ∈ (io i rtcp).recvd → P (a.data.take maxPacketSize)

/-- The bytes of every datagram in the queue satisfy `P`. -/
def Interface.Keeps (P : List UInt8 → Prop) (f : Interface) : Prop := ∀ raw ∈ f.packets, P raw.data

/-- What a poll meets on the two sockets of an interface satisfies `P` for that socket. -/
def PollInput.BringsOn (P : Bool → List UInt8 → Prop) (io : PollInput) : Prop :=
  ∀ i rtcp a, some a ∈ (io i rtcp).recvd → P rtcp (a.data.take maxPacketSize)

def Interface.KeepsOn (P : Bool → List UInt8 → Prop) (f : Interface) : Prop :=
  ∀ raw ∈ f.packets, P raw.isrtcp raw.data

namespace Interface

variable {P : Bool → List UInt8 → Prop} {f : Interface} {w : World}

theorem receive_keepsOn (hf : f.KeepsOn P) (rtcp : Bool) {a : Option Arrival}
    (ha : ∀ b, a = some b → P rtcp (b.data.take maxPacketSize)) : (receive rtcp f w a).1.KeepsOn P := by
  unfold receive
  cases a with
  | none => exact hf
  | some a =>
    dsimp only
    split
    · exact hf
    · intro raw hraw
      rcases List.mem_append.mp hraw with hraw | hraw
      · exact hf raw hraw
      · rw [List.mem_singleton.mp hraw]
        exact ha a rfl

theorem poll_keepsOn (hf : f.KeepsOn P) (rtcp : Bool) {io : PollOutcome}
    (hio : ∀ a, some a ∈ io.recvd → P rtcp (a.data.take maxPacketSize)) :
    (f.poll rtcp io w).1.KeepsOn P := by
  obtain ⟨recvd, status⟩ := io
  unfold poll
  dsimp only at hio ⊢
  induction recvd generalizing f w with
  | nil => exact hf
  | cons a as ih =>
    rw [List.foldl_cons]
    apply ih (receive_keepsOn hf rtcp fun b hb => hio b (by simp [hb]))
    intro b hb
    exact hio b (by simp [hb])

end Interface

/-- The object of the derived class and the queue of packets after a call. -/
def Handlers.next {σ ω : Type} (h : Handlers σ ω) (obj : σ) (packets : List RtpPacket) (w : World) :
    Call → σ × List RtpPacket
  | .rtp pkt i =>
    let (keep, pkt, obj, _) := h.onRtpPacket obj w pkt i
    (obj, if keep then packets ++ [pkt] else packets)
  | .rtcp (.sr pkt subflowId) i => ((h.onRtcpSrPacket obj w pkt subflowId i).1, packets)
  | .rtcp (.rr pkt subflowId senderSsrc) i =>
    ((h.onRtcpRrPacket obj w pkt subflowId senderSsrc i).1, packets)

namespace Session

variable {σ ω : Type} {h : Handlers σ ω} {good : List ω → ω → Prop}
  {I : List ω → σ → List RtpPacket → Prop} {P : List UInt8 → Prop} {R : Bool → List UInt8 → Prop} {H : List ω}
  {s : Session σ} {fs : List Interface} {w : World}

theorem handle_next (s : Session σ) (c : Call) :
    ((s.handle h c).obj, (s.handle h c).packets) = h.next s.obj s.packets s.world c := by
  cases c with
  | rtp pkt i => rfl
  | rtcp call i => cases call <;> rfl

theorem pollInterfaces_keepsOn {io : PollInput} (hio : io.BringsOn R) (hf : ∀ f ∈ fs, f.KeepsOn R)
    (i : ℕ) : ∀ f ∈ (pollInterfaces io i fs w).1, f.KeepsOn R := by
  induction fs generalizing i w with
  | nil =>
    intro f hmem
    cases hmem
  | cons f fs ih =>
    have hrest : ∀ f ∈ fs, f.KeepsOn R := fun f hmem => hf f (by simp [hmem])
    have hf₁ : (f.poll false (io i false) w).1.KeepsOn R :=
      Interface.poll_keepsOn (hf f (by simp)) false (hio i false)
    unfold pollInterfaces
    generalize f.poll false (io i false) w = r at hf₁ ⊢
    obtain ⟨f, w₁, status⟩ := r
    dsimp only at hf₁ ⊢
    split
    · exact List.forall_mem_cons.mpr ⟨hf₁, hrest⟩
    · have hf₂ : (f.poll true (io i true) w₁).1.KeepsOn R :=
        Interface.poll_keepsOn hf₁ true (hio i true)
      generalize f.poll true (io i true) w₁ = r at hf₂ ⊢
      obtain ⟨f, w₂, status⟩ := r
      dsimp only at hf₂ ⊢
      split
      · exact List.forall_mem_cons.mpr ⟨hf₂, hrest⟩
      · exact List.forall_mem_cons.mpr ⟨hf₂, ih hrest (i + 1)⟩

theorem addInterface_keepsOn (hf : ∀ f ∈ s.interfaces, f.KeepsOn R) (addr : Endpoint) (opened : Bool) :
    ∀ f ∈ (s.addInterface addr opened).interfaces, f.KeepsOn R := by
  unfold addInterface
  split
  · intro f hmem
    rcases List.mem_append.mp hmem with hmem | hmem
    · exact hf f hmem
    · intro raw hraw
      rw [List.mem_singleton.mp hmem] at hraw
      cases hraw
  · exact hf

theorem addInterface_keeps (hf : ∀ f ∈ s.interfaces, f.Keeps P) (addr : Endpoint) (opened : Bool) :
    ∀ f ∈ (s.addInterface addr opened).interfaces, f.Keeps P :=
  addInterface_keepsOn (R := fun _ => P) hf addr opened

theorem suspendFirst_packets (addr : Endpoint) (suspend : Bool) (fs : List Interface) :
    ∀ f ∈ (suspendFirst addr suspend fs).1, ∃ g ∈ fs, f.packets = g.packets := by
  induction fs with
  | nil =>
    intro f hf
    cases hf
  | cons g fs ih =>
    intro f hf
    unfold suspendFirst at hf
    split at hf
    · rcases List.mem_cons.mp hf with rfl | hf
      · exact ⟨g, by simp, rfl⟩
      · exact ⟨f, by simp [hf], rfl⟩
    · rcases List.mem_cons.mp hf with rfl | hf
      · exact ⟨f, by simp, rfl⟩
      · obtain ⟨g', hg', he⟩ := ih f hf
        exact ⟨g', by simp [hg'], he⟩

theorem suspendInterface_keepsOn (hf : ∀ f ∈ s.interfaces, f.KeepsOn R) (addr : Endpoint)
    (suspend : Bool) : ∀ f ∈ (s.suspendInterface addr suspend).1.interfaces, f.KeepsOn R := by
  intro f hmem raw hraw
  obtain ⟨g, hg, hpackets⟩ := suspendFirst_packets addr suspend s.interfaces f hmem
  exact hf g hg raw (hpackets ▸ hraw)

theorem suspendInterface_keeps (hf : ∀ f ∈ s.interfaces, f.Keeps P) (addr : Endpoint)
    (suspend : Bool) : ∀ f ∈ (s.suspendInterface addr suspend).1.interfaces, f.Keeps P :=
  suspendInterface_keepsOn (R := fun _ => P) hf addr suspend

theorem mem_drained {fs : List Interface} {f : Interface} (hmem : f ∈ drained fs.length fs) :
    f.packets = [] := by
  obtain ⟨i, hi⟩ := List.getElem?_of_mem hmem
  rw [getElem?_drained] at hi
  obtain ⟨g, hg, rfl⟩ := Option.map_eq_some_iff.mp hi
  rw [if_pos (List.getElem?_eq_some_iff.mp hg).1]

/-- The poll rule for an invariant of the derived object and the queue of packets, which the calls
for datagrams that satisfy `R` on their socket keep. -/
theorem poll_obj_on (hk : ∀ H d packets w raw c i, R raw.isrtcp raw.data → c.Of raw i → c.OnSocket raw →
      I H d packets → good H (h.visit d c) ∧
        I (H ++ [h.visit d c]) (h.next d packets w c).1 (h.next d packets w c).2)
    {fuel : ℕ} {io : PollInput} (hio : io.BringsOn R) (hf : ∀ f ∈ s.interfaces, f.KeepsOn R)
    (h₀ : I H s.obj s.packets) : (s.poll h fuel io).Sat good H
      fun H' r => I H' r.1.obj r.1.packets ∧ ∀ f ∈ r.1.interfaces, f.KeepsOn R := by
  have hf' := pollInterfaces_keepsOn (w := s.world) hio hf 0
  generalize hpoll : pollInterfaces io 0 s.interfaces s.world = r at hf'
  obtain ⟨fs, w, status⟩ := r
  dsimp only at hf'
  have hq : Queued (fun _ raw => R raw.isrtcp raw.data) fs :=
    fun i f hi raw hraw => hf' f (List.mem_of_getElem? hi) raw hraw
  have hcalls : KeptByCallsOn h good (fun _ raw => R raw.isrtcp raw.data)
      fun H (s : Session σ) => I H s.obj s.packets := by
    intro H s i raw c hp hc hon hI
    have hnext := s.handle_next (h := h) c
    have hkept := hk H s.obj s.packets s.world raw c i hp hc hon hI
    rw [← hnext] at hkept
    exact hkept
  have hsat : (s.poll h fuel io).Sat good H _ :=
    poll_sat_on (fun H s _ hs => hs) hcalls hpoll hq h₀
  apply hsat.mono (fun _ _ hg => hg)
  intro H' p hr
  obtain ⟨s', status'⟩ := p
  obtain ⟨hI, hs'⟩ := hr
  refine ⟨hI, ?_⟩
  dsimp only at hs' ⊢
  rcases hs' with rfl | hdrained
  · exact hf'
  · intro f hmem raw hraw
    rw [hdrained] at hmem
    rw [mem_drained hmem] at hraw
    cases hraw

/-- The same for calls that do not ask for the socket. -/
theorem poll_obj (hk : ∀ H d packets w raw c i, P raw.data → c.Of raw i → I H d packets →
      good H (h.visit d c) ∧
        I (H ++ [h.visit d c]) (h.next d packets w c).1 (h.next d packets w c).2)
    {fuel : ℕ} {io : PollInput} (hio : io.Brings P) (hf : ∀ f ∈ s.interfaces, f.Keeps P)
    (h₀ : I H s.obj s.packets) : (s.poll h fuel io).Sat good H
      fun H' r => I H' r.1.obj r.1.packets ∧ ∀ f ∈ r.1.interfaces, f.Keeps P :=
  poll_obj_on (R := fun _ => P) (fun H d packets w raw c i hp hc _ hI => hk H d packets w raw c i hp hc hI)
    hio hf h₀

end Session

end Mprtp
