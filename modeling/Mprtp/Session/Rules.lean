import Mprtp.Session

/-! What one poll of a session keeps, from what every handler call keeps. -/
namespace Mprtp

/-- The datagram `raw`, received on interface `i`, makes the session call `c`. -/
def Call.Of (raw : RawPacket) (i : ℕ) : Call → Prop
  | .rtp pkt j => j = i ∧ RtpPacket.parse raw = .ok pkt
  | .rtcp call j => j = i ∧ ∃ fuel, call ∈ (raw.rtcpCalls fuel).1

/-- The datagram came in on the socket that the call is for. -/
def Call.OnSocket (raw : RawPacket) : Call → Prop
  | .rtp _ _ => raw.isrtcp = false
  | .rtcp _ _ => raw.isrtcp = true

namespace Session

variable {σ ω : Type} {h : Handlers σ ω} {good : List ω → ω → Prop}
  {I : List ω → Session σ → Prop} {P : ℕ → RawPacket → Prop} {H : List ω} {s : Session σ}

/-- Every datagram in the queue of an interface satisfies `P`. -/
def Queued (P : ℕ → RawPacket → Prop) (interfaces : List Interface) : Prop :=
  ∀ i f, interfaces[i]? = some f → ∀ raw ∈ f.packets, P i raw

@[simp] theorem handle_interfaces (s : Session σ) (c : Call) :
    (s.handle h c).interfaces = s.interfaces := by
  unfold handle
  split <;> rfl

/-- What a handler call has to keep for the rules below. -/
def KeptByCalls (h : Handlers σ ω) (good : List ω → ω → Prop) (P : ℕ → RawPacket → Prop)
    (I : List ω → Session σ → Prop) : Prop :=
  ∀ H s i raw c, P i raw → c.Of raw i → I H s →
    good H (h.visit s.obj c) ∧ I (H ++ [h.visit s.obj c]) (s.handle h c)

/-- The same for handlers that are told of the socket. -/
def KeptByCallsOn (h : Handlers σ ω) (good : List ω → ω → Prop) (P : ℕ → RawPacket → Prop)
    (I : List ω → Session σ → Prop) : Prop :=
  ∀ H s i raw c, P i raw → c.Of raw i → c.OnSocket raw → I H s →
    good H (h.visit s.obj c) ∧ I (H ++ [h.visit s.obj c]) (s.handle h c)

theorem KeptByCalls.on (hk : KeptByCalls h good P I) : KeptByCallsOn h good P I :=
  fun H s i raw c hp hc _ hI => hk H s i raw c hp hc hI

theorem call_rule {Q : List ω → Session σ → Prop} {c : Call} (hg : good H (h.visit s.obj c))
    (hQ : Q (H ++ [h.visit s.obj c]) (s.handle h c)) : (s.call h c).Sat good H Q := by
  unfold call
  refine Exec.sat_bind (Q := fun H' _ => H' = H ++ [h.visit s.obj c]) (Exec.sat_tell hg rfl) ?_
  intro H' _ h'
  obtain rfl := h'
  exact Exec.sat_pure hQ

/-- An RTCP datagram leads to the calls in it, one by one, or to no result. -/
theorem processRtcpPacket_rule {Q : List ω → Session σ → Prop} {fuel i : ℕ} {raw : RawPacket}
    (hcall : ∀ H s c, c ∈ (raw.rtcpCalls fuel).1 → Q H s → (s.call h (.rtcp c i)).Sat good H Q)
    (hQ : Q H s) : (s.processRtcpPacket h fuel i raw).Sat good H Q := by
  unfold processRtcpPacket
  apply Exec.sat_bind (Exec.sat_foldlM (fun H s c hc hs => hcall H s c hc hs) hQ)
  intro H' s' hQ'
  apply Exec.sat_ite
  · exact fun _ => Exec.sat_pure hQ'
  · exact fun _ => Exec.sat_stuck_nil

theorem call_sat (hk : KeptByCallsOn h good P I) {i : ℕ} {raw : RawPacket} {c : Call}
    (hp : P i raw) (hc : c.Of raw i) (hon : c.OnSocket raw) {fs : List Interface} (hI : I H s) (hf : s.interfaces = fs) :
    (s.call h c).Sat good H fun H s' => I H s' ∧ s'.interfaces = fs := by
  obtain ⟨hg, hI'⟩ := hk H s i raw c hp hc hon hI
  apply call_rule hg
  exact ⟨hI', by rw [handle_interfaces, hf]⟩

theorem processRawPacket_sat (hk : KeptByCallsOn h good P I) {fuel i : ℕ} {raw : RawPacket}
    (hp : P i raw) {fs : List Interface} (hI : I H s) (hf : s.interfaces = fs) :
    (s.processRawPacket h fuel i raw).Sat good H fun H s' => I H s' ∧ s'.interfaces = fs := by
  unfold processRawPacket
  apply Exec.sat_ite
  · intro hrtcp
    apply processRtcpPacket_rule
    · intro H s c hc hI
      have hof : (Call.rtcp c i).Of raw i := ⟨rfl, fuel, hc⟩
      exact call_sat hk hp hof hrtcp hI.1 hI.2
    · exact ⟨hI, hf⟩
  · intro hrtp
    unfold processRtpPacket
    cases hparse : RtpPacket.parse raw with
    | error e => exact Exec.sat_pure ⟨hI, hf⟩
    | ok pkt =>
      have hof : (Call.rtp pkt i).Of raw i := ⟨rfl, hparse⟩
      exact call_sat hk hp hof (Bool.eq_false_iff.mpr hrtp) hI hf

/-- The queues after `drain` has gone through the interfaces below `n`. -/
def drained (n : ℕ) (fs : List Interface) : List Interface :=
  fs.mapIdx fun i f => if i < n then { f with packets := [] } else f

theorem getElem?_drained (n : ℕ) (fs : List Interface) (i : ℕ) :
    (drained n fs)[i]? = fs[i]?.map fun f => if i < n then { f with packets := [] } else f := by
  rw [drained, List.getElem?_mapIdx]

theorem drained_zero (fs : List Interface) : drained 0 fs = fs := by
  apply List.ext_getElem?
  intro i
  rw [getElem?_drained]
  simp

theorem set_drained {fs : List Interface} {n : ℕ} {f : Interface}
    (hf : (drained n fs)[n]? = some f) :
    (drained n fs).set n { f with packets := [] } = drained (n + 1) fs := by
  apply List.ext_getElem?
  intro i
  have hlen : n < (drained n fs).length := (List.getElem?_eq_some_iff.mp hf).1
  rw [List.getElem?_set]
  by_cases h : n = i
  · subst h
    rw [getElem?_drained] at hf
    obtain ⟨g, hg, rfl⟩ := Option.map_eq_some_iff.mp hf
    rw [if_pos rfl, if_pos hlen, getElem?_drained, hg]
    simp
  · have hiff : i < n + 1 ↔ i < n := by omega
    rw [if_neg h, getElem?_drained, getElem?_drained]
    simp only [hiff]

/-- Past the last interface there is nothing to drain. -/
theorem drained_succ_of_none {fs : List Interface} {n : ℕ} (hn : (drained n fs)[n]? = none) :
    drained n fs = drained (n + 1) fs := by
  apply List.ext_getElem?
  intro i
  rw [getElem?_drained, Option.map_eq_none_iff, List.getElem?_eq_none_iff] at hn
  rw [getElem?_drained, getElem?_drained]
  by_cases hi : i < fs.length
  · have hiff : i < n + 1 ↔ i < n := by omega
    simp only [hiff]
  · rw [List.getElem?_eq_none (not_lt.mp hi)]
    rfl

theorem drain_sat (hI : ∀ H s interfaces, I H s → I H { s with interfaces })
    (hk : KeptByCallsOn h good P I) {fs : List Interface} (hq : Queued P fs) {fuel n : ℕ}
    (h₀ : I H s) (hf : s.interfaces = drained n fs) :
    (s.drain h fuel n).Sat good H fun H s' => I H s' ∧ s'.interfaces = drained (n + 1) fs := by
  unfold drain
  cases hget : s.interfaces[n]? with
  | none =>
    refine Exec.sat_pure ⟨h₀, ?_⟩
    rw [hf] at hget ⊢
    exact drained_succ_of_none hget
  | some f =>
    have hset := set_drained (hf ▸ hget)
    apply Exec.sat_foldlM
    · intro H s raw hraw hIs
      have hp : P n raw := by
        rw [hf, getElem?_drained] at hget
        obtain ⟨g, hg, hgf⟩ := Option.map_eq_some_iff.mp hget
        rw [if_neg (lt_irrefl n)] at hgf
        exact hq n f (hgf ▸ hg) raw hraw
      exact processRawPacket_sat hk hp hIs.1 hIs.2
    · exact ⟨hI _ _ _ h₀, by rw [hf, hset]⟩

/-- The poll rule. `I` says nothing about the interfaces; the queues keep `P`, and they are
empty after a poll that no interface ends. -/
theorem poll_sat_on (hI : ∀ H s interfaces, I H s → I H { s with interfaces })
    (hk : KeptByCallsOn h good P I) {fuel : ℕ} {io : PollInput} {fs : List Interface} {w : World}
    {status : ℤ} (hpoll : pollInterfaces io 0 s.interfaces s.world = (fs, w, status))
    (hq : Queued P fs) (h₀ : I H { s with interfaces := fs, world := w }) :
    (s.poll h fuel io).Sat good H fun H r => I H r.1 ∧
      (r.1 = { s with interfaces := fs, world := w } ∨
        r.1.interfaces = drained fs.length fs) := by
  unfold poll
  rw [hpoll]
  dsimp only
  apply Exec.sat_ite
  · intro _
    exact Exec.sat_pure ⟨h₀, Or.inl rfl⟩
  · intro _
    have hloop := Exec.sat_foldlM_range (f := fun (s : Session σ) i => s.drain h fuel i)
      (I := fun n H s' => I H s' ∧ s'.interfaces = drained n fs)
      (fun n H s' hn => drain_sat hI hk hq hn.1 hn.2) ⟨h₀, (drained_zero fs).symm⟩
    apply Exec.sat_bind (hloop fs.length)
    intro H' s' h'
    obtain ⟨hI', hf'⟩ := h'
    exact Exec.sat_pure ⟨hI', Or.inr hf'⟩

theorem poll_sat (hI : ∀ H s interfaces, I H s → I H { s with interfaces })
    (hk : KeptByCalls h good P I) {fuel : ℕ} {io : PollInput} {fs : List Interface} {w : World}
    {status : ℤ} (hpoll : pollInterfaces io 0 s.interfaces s.world = (fs, w, status))
    (hq : Queued P fs) (h₀ : I H { s with interfaces := fs, world := w }) :
    (s.poll h fuel io).Sat good H fun H r => I H r.1 ∧
      (r.1 = { s with interfaces := fs, world := w } ∨ r.1.interfaces = drained fs.length fs) :=
  poll_sat_on hI hk.on hpoll hq h₀

section PerInterface

variable {β : Type} {g : Interface → β} {b : β}

/-- What is said of the interface at an index does not change when one is added of which the default is
said. -/
theorem getD_addInterface (hnew : ∀ addr, g (.new addr) = b) (s : Session σ) (addr : Endpoint)
    (opened : Bool) (i : ℕ) :
    ((s.addInterface addr opened).interfaces[i]?.map g).getD b = (s.interfaces[i]?.map g).getD b := by
  unfold addInterface
  split
  · dsimp only
    rcases Nat.lt_trichotomy i s.interfaces.length with hlt | rfl | hgt
    · rw [List.getElem?_append_left hlt]
    · rw [List.getElem?_concat_length, List.getElem?_eq_none le_rfl]
      exact hnew addr
    · rw [List.getElem?_eq_none (by simp; omega), List.getElem?_eq_none hgt.le]
  · rfl

/-- The same for the first loop of a poll, up to a relation that every poll of a socket keeps. -/
theorem getD_pollInterfaces {R : β → β → Prop} (hrefl : ∀ x, R x x)
    (htrans : ∀ x y z, R x y → R y z → R x z)
    (hpoll : ∀ (f : Interface) rtcp io w, R (g f) (g (f.poll rtcp io w).1)) (io : PollInput) (i : ℕ)
    (fs : List Interface) (w : World) (j : ℕ) :
    R ((fs[j]?.map g).getD b) (((pollInterfaces io i fs w).1[j]?.map g).getD b) := by
  induction fs generalizing i w j with
  | nil => exact hrefl _
  | cons f fs ih =>
    have hrtp := hpoll f false (io i false) w
    have hcons : ∀ (f' : Interface) (fs' : List Interface), R (g f) (g f') →
        (∀ k : ℕ, R ((fs[k]?.map g).getD b) ((fs'[k]?.map g).getD b)) →
          R (((f :: fs)[j]?.map g).getD b) (((f' :: fs')[j]?.map g).getD b) := by
      intro f' fs' hf hfs
      cases j with
      | zero => exact hf
      | succ k => exact hfs k
    unfold pollInterfaces
    generalize f.poll false (io i false) w = r at hrtp ⊢
    obtain ⟨f₁, w₁, status⟩ := r
    have hrtcp := htrans _ _ _ hrtp (hpoll f₁ true (io i true) w₁)
    dsimp only at hrtp hrtcp ⊢
    generalize f₁.poll true (io i true) w₁ = r at hrtcp ⊢
    obtain ⟨f₂, w₂, status'⟩ := r
    dsimp only at hrtcp ⊢
    split
    · exact hcons f₁ fs hrtp fun _ => hrefl _
    · split
      · exact hcons f₂ fs hrtcp fun _ => hrefl _
      · exact hcons f₂ _ hrtcp (ih (i + 1) w₂)

end PerInterface

/-- A poll of the only interface that receives one datagram, which makes one call. -/
theorem poll_arrive {f : Interface} (hs : s.interfaces = [f]) (hf : f.packets = [])
    {data : List UInt8} (hdata : data ≠ []) {addr : Endpoint} {rtcp : Bool} {raw : RawPacket}
    (hraw : raw = ⟨data.take maxPacketSize, fun _ => 0, addr, rtcp, s.world.now⟩) {fuel : ℕ}
    {c : Call} (hcall : ∀ s' : Session σ, s'.processRawPacket h fuel 0 raw = s'.call h c) :
    s.poll h fuel (.arrive rtcp addr [data]) = ⟨[h.visit s.obj c],
      some ({ s with world := s.world.tick }.handle h c, 0)⟩ := by
  obtain ⟨ip, rtpPort, rtcpPort, suspended, packets⟩ := f
  cases hf
  have hpoll : pollInterfaces (.arrive rtcp addr [data]) 0 s.interfaces s.world =
      ([⟨ip, rtpPort, rtcpPort, suspended, [raw]⟩], s.world.tick, 0) := by
    rw [hs, hraw]
    cases rtcp <;>
      simp [pollInterfaces, PollInput.arrive, Interface.poll, Interface.receive, hdata]
  unfold poll
  rw [hpoll]
  dsimp only
  rw [if_neg (by decide)]
  simp only [List.length_cons, List.length_nil, List.range_succ, List.range_zero, drain,
    List.nil_append, List.foldlM_cons, List.foldlM_nil, bind_pure, hcall, List.getElem?_cons_zero,
    List.set_cons_zero]
  rw [hs]
  rfl

/-- An accepted RTP datagram makes one call. -/
theorem processRawPacket_rtp {raw : RawPacket} {pkt : RtpPacket} (hrtp : raw.isrtcp = false)
    (hparse : RtpPacket.parse raw = .ok pkt) (fuel i : ℕ) (s : Session σ) :
    s.processRawPacket h fuel i raw = s.call h (.rtp pkt i) := by
  unfold processRawPacket processRtpPacket
  rw [if_neg (by rw [hrtp]; decide), hparse]

/-- An RTCP datagram with one report makes one call. -/
theorem processRawPacket_rtcp {raw : RawPacket} {call : RtcpCall} (hrtcp : raw.isrtcp = true)
    {fuel : ℕ} (hcalls : raw.rtcpCalls fuel = ([call], true)) (i : ℕ) (s : Session σ) :
    s.processRawPacket h fuel i raw = s.call h (.rtcp call i) := by
  unfold processRawPacket processRtcpPacket
  rw [if_pos hrtcp, hcalls]
  simp only [List.foldlM_cons, List.foldlM_nil, bind_pure, if_true]

end Session

end Mprtp
