import Mathlib.Data.List.Forall2
import Mprtp.Receiver
import Mprtp.Source.Packets
import Mprtp.Session.Queues

/-! The step rule of a receiver: an invariant of its data that every operation keeps. -/
namespace Mprtp

/-- What `source::poll` leaves of a source. -/
def Source.Polled (src src' : Source) : Prop := src' = src ∨ src' = src.reported

namespace Source

/-- The log entry for the report that a source builds. -/
abbrev reportEvent (src : Source) (w : World) : ReceiverEvent :=
  .report src.ssrc (src.buildReport w).1 (src.buildReport w).2.1

/-- The report as it is handed to a socket for the subflow `sf`. -/
abbrev reportDatagram (src : Source) (w : World) (sf : Subflow) : OutDatagram :=
  Interface.sendto sf.iface ((src.buildReport w).1 ++ (src.buildReport w).2.1) sf.remote true

/-- The rule for the poll of one source. -/
theorem poll_sat {good : List ReceiverEvent → ReceiverEvent → Prop} {H : List ReceiverEvent}
    {Q : List ReceiverEvent → Source → Prop} (src : Source) (w : World)
    (hpoll : good H (.poll src)) (hidle : src.sendRr = false → Q (H ++ [.poll src]) src)
    (hreport : src.sendRr = true → good (H ++ [.poll src]) (src.reportEvent w))
    (hsent : ∀ sf, src.sendRr = true → (src.buildReport w).2.1.length ≤ maxPacketSize →
      src.reported.subflows.head? = some sf →
      good (H ++ [.poll src] ++ [src.reportEvent w]) (.sent src.ssrc (src.reportDatagram w sf)) ∧
        Q (H ++ [.poll src] ++ [src.reportEvent w] ++ [.sent src.ssrc (src.reportDatagram w sf)])
          src.reported) :
    (src.poll w).Sat good H fun H' r => Q H' r.1 := by
  unfold Source.poll
  refine Exec.sat_bind (Q := fun H' _ => H' = H ++ [.poll src]) (Exec.sat_tell hpoll rfl) ?_
  intro H₁ _ h₁
  obtain rfl := h₁
  apply Exec.sat_ite
  · intro hrr
    have hg := hreport hrr
    have hout := fun sf => hsent sf hrr
    have hreported := src.buildReport_source w
    unfold reportEvent reportDatagram at hout
    unfold reportEvent at hg
    generalize src.buildReport w = built at hg hout hreported ⊢
    obtain ⟨rr, blocks, src', w'⟩ := built
    dsimp only at hg hout hreported ⊢
    subst hreported
    refine Exec.sat_bind (Q := fun H' _ => H' = H ++ [.poll src] ++ [.report src.ssrc rr blocks])
      (Exec.sat_tell hg rfl) ?_
    intro H₂ _ h₂
    obtain rfl := h₂
    apply Exec.sat_ite
    · exact fun _ => Exec.sat_stuck_nil
    · intro hfits
      refine Exec.sat_bind (Q := fun H' _ => Q H' src.reported) ?_
        fun H₃ _ hQ => Exec.sat_pure hQ
      unfold Source.sendReport
      split
      · exact Exec.sat_stuck_nil
      · rename_i sf sfs hsf
        have hhead : src.reported.subflows.head? = some sf := by rw [hsf, List.head?_cons]
        obtain ⟨hg₃, hQ⟩ := hout sf (not_lt.mp hfits) hhead
        exact Exec.sat_tell hg₃ hQ
  · intro hrr
    exact Exec.sat_pure (hidle (Bool.eq_false_iff.mpr hrr))

end Source

namespace Receiver

/-- `I` is kept by what a receiver does to its data and to the packets it keeps, and every entry it
logs is `good`; `P` holds of the datagrams it receives. -/
structure KeptBySteps (P : List UInt8 → Prop) (good : List ReceiverEvent → ReceiverEvent → Prop)
    (I : List ReceiverEvent → ReceiverData → List RtpPacket → Prop) : Prop where
  rtp : ∀ H d packets w (raw : RawPacket) pkt i, P raw.data → RtpPacket.parse raw = .ok pkt →
    I H d packets → good H (.visit d (.rtp pkt i)) ∧ I (H ++ [.visit d (.rtp pkt i)])
      (d.onRtpPacket w pkt i).2.2.1 (packets ++ [(d.onRtpPacket w pkt i).2.1])
  sr : ∀ H d packets w pkt id i, I H d packets → good H (.visit d (.rtcp (.sr pkt id) i)) ∧
    I (H ++ [.visit d (.rtcp (.sr pkt id) i)]) (d.onRtcpSrPacket w pkt id i).1 packets
  rr : ∀ H d packets pkt id ssrc i, I H d packets →
    good H (.visit d (.rtcp (.rr pkt id ssrc) i)) ∧
      I (H ++ [.visit d (.rtcp (.rr pkt id ssrc) i)]) d packets
  poll : ∀ H (d : ReceiverData) packets src, src ∈ d.sources → I H d packets →
    good H (.poll src) ∧ I (H ++ [.poll src]) d packets
  report : ∀ H (d : ReceiverData) packets src w, src ∈ d.sources → .poll src ∈ H → I H d packets →
    good H (.report src.ssrc (src.buildReport w).1 (src.buildReport w).2.1) ∧
      I (H ++ [.report src.ssrc (src.buildReport w).1 (src.buildReport w).2.1]) d packets
  sent : ∀ H (d : ReceiverData) packets src w (sf : Subflow) (out : OutDatagram), src ∈ d.sources →
    .poll src ∈ H → src.reported.subflows.head? = some sf →
    out = Interface.sendto sf.iface ((src.buildReport w).1 ++ (src.buildReport w).2.1) sf.remote true →
    I H d packets → good H (.sent src.ssrc out) ∧ I (H ++ [.sent src.ssrc out]) d packets
  polled : ∀ H (d : ReceiverData) packets srcs, d.sources.Forall₂ Source.Polled srcs →
    I H d packets → I H { d with sources := srcs } packets
  fetched : ∀ H d pkt packets, I H d (pkt :: packets) →
    good H (.fetched pkt) ∧ I (H ++ [.fetched pkt]) d packets

/-- The same with one obligation for the whole loop over the sources. -/
structure KeptByParts (P : List UInt8 → Prop) (good : List ReceiverEvent → ReceiverEvent → Prop)
    (I : List ReceiverEvent → ReceiverData → List RtpPacket → Prop) : Prop where
  rtp : ∀ H d packets w (raw : RawPacket) pkt i, P raw.data → RtpPacket.parse raw = .ok pkt →
    I H d packets → good H (.visit d (.rtp pkt i)) ∧ I (H ++ [.visit d (.rtp pkt i)])
      (d.onRtpPacket w pkt i).2.2.1 (packets ++ [(d.onRtpPacket w pkt i).2.1])
  sr : ∀ H d packets w pkt id i, I H d packets → good H (.visit d (.rtcp (.sr pkt id) i)) ∧
    I (H ++ [.visit d (.rtcp (.sr pkt id) i)]) (d.onRtcpSrPacket w pkt id i).1 packets
  rr : ∀ H d packets pkt id ssrc i, I H d packets →
    good H (.visit d (.rtcp (.rr pkt id ssrc) i)) ∧
      I (H ++ [.visit d (.rtcp (.rr pkt id ssrc) i)]) d packets
  sources : ∀ H (d : ReceiverData) packets w, I H d packets → (pollSources d.sources w).Sat good H
    fun H' r => I H' { d with sources := r.1 } packets
  fetched : ∀ H d pkt packets, I H d (pkt :: packets) →
    good H (.fetched pkt) ∧ I (H ++ [.fetched pkt]) d packets

variable {P : List UInt8 → Prop} {good : List ReceiverEvent → ReceiverEvent → Prop}
  {I : List ReceiverEvent → ReceiverData → List RtpPacket → Prop} {H : List ReceiverEvent}
  {r : Receiver} {d : ReceiverData} {packets : List RtpPacket}

theorem KeptBySteps.pollSource (hk : KeptBySteps P good I) {src : Source} (hsrc : src ∈ d.sources)
    (hI : I H d packets) (w : World) :
    (src.poll w).Sat good H fun H' r => I H' d packets ∧ src.Polled r.1 := by
  obtain ⟨hg₁, hI₁⟩ := hk.poll H d packets src hsrc hI
  have hmem₁ : .poll src ∈ H ++ [.poll src] := by simp
  obtain ⟨hg₂, hI₂⟩ := hk.report _ d packets src w hsrc hmem₁ hI₁
  have hmem₂ : .poll src ∈ H ++ [.poll src] ++ [src.reportEvent w] := by simp
  refine src.poll_sat (Q := fun H' src' => I H' d packets ∧ src.Polled src') w hg₁ ?_ ?_ ?_
  · exact fun _ => ⟨hI₁, Or.inl rfl⟩
  · exact fun _ => hg₂
  · intro sf _ _ hsf
    obtain ⟨hg₃, hI₃⟩ := hk.sent _ d packets src w sf _ hsrc hmem₂ hsf rfl hI₂
    exact ⟨hg₃, hI₃, Or.inr rfl⟩

theorem KeptBySteps.pollSources (hk : KeptBySteps P good I) (srcs : List Source)
    (hsrcs : ∀ src ∈ srcs, src ∈ d.sources) (hI : I H d packets) (w : World) :
    (pollSources srcs w).Sat good H
      fun H' r => I H' d packets ∧ srcs.Forall₂ Source.Polled r.1 := by
  induction srcs generalizing H w with
  | nil => exact Exec.sat_pure ⟨hI, .nil⟩
  | cons src srcs ih =>
    unfold Receiver.pollSources
    apply Exec.sat_bind (hk.pollSource (hsrcs src (by simp)) hI w)
    intro H₁ r₁ h₁
    obtain ⟨src₁, w₁⟩ := r₁
    obtain ⟨hI₁, hpolled⟩ := h₁
    apply Exec.sat_bind (ih (fun src hsrc => hsrcs src (by simp [hsrc])) hI₁ w₁)
    intro H₂ r₂ h₂
    obtain ⟨hI₂, hrest⟩ := h₂
    exact Exec.sat_pure ⟨hI₂, .cons hpolled hrest⟩

theorem KeptBySteps.parts (hk : KeptBySteps P good I) : KeptByParts P good I where
  rtp := hk.rtp
  sr := hk.sr
  rr := hk.rr
  sources := by
    intro H d packets w hI
    refine (hk.pollSources d.sources (fun src hsrc => hsrc) hI w).mono (fun _ _ hg => hg) ?_
    intro H' r h'
    obtain ⟨hI', hpolled⟩ := h'
    exact hk.polled H' d packets r.1 hpolled hI'
  fetched := hk.fetched

/-- The sources that the loop over the sources polls, each with the world in which it is polled. -/
def sourcesMet : List Source → World → List (Source × World)
  | [], _ => []
  | src :: rest, w => (src, w) :: (src.poll w).res.toList.flatMap fun p => sourcesMet rest p.2

/-- The loop over the sources, one after the other, in the worlds they are polled in. -/
theorem pollSources_sat_met {J : List ReceiverEvent → ReceiverData → Prop} {w : World}
    (hsource : ∀ H (d' : ReceiverData) before src after w', d'.sources = before ++ src :: after →
      (src, w') ∈ sourcesMet d.sources w → J H d' → (src.poll w').Sat good H fun H' r =>
        J H' { d' with sources := before ++ r.1 :: after }) (hJ : J H d) :
    (pollSources d.sources w).Sat good H fun H' r => J H' { d with sources := r.1 } := by
  have hloop : ∀ (srcs before : List Source) (H : List ReceiverEvent) (d' : ReceiverData) (w' : World),
      d'.sources = before ++ srcs → (∀ p ∈ sourcesMet srcs w', p ∈ sourcesMet d.sources w) → J H d' →
        (pollSources srcs w').Sat good H fun H' r => J H' { d' with sources := before ++ r.1 } := by
    intro srcs
    induction srcs with
    | nil =>
      intro before H d' w' hd _ hJ
      apply Exec.sat_pure
      rw [← hd]
      exact hJ
    | cons src srcs ih =>
      intro before H d' w' hd hmet hJ
      rw [sourcesMet, List.forall_mem_cons] at hmet
      obtain ⟨hfirst, hrest⟩ := hmet
      unfold pollSources
      apply Exec.sat_bind (hsource H d' before src srcs w' hd hfirst hJ).res
      intro H₁ r₁ h₁
      obtain ⟨src₁, w₁⟩ := r₁
      obtain ⟨hJ₁, hres⟩ := h₁
      rw [hres, Option.toList_some, List.flatMap_singleton] at hrest
      apply Exec.sat_bind (ih (before ++ [src₁]) H₁ _ w₁ (by simp) hrest hJ₁)
      intro H₂ r₂ hJ₂
      obtain ⟨rest, w₂⟩ := r₂
      apply Exec.sat_pure
      rw [List.append_assoc] at hJ₂
      exact hJ₂
  exact hloop d.sources [] H d w rfl (fun _ hp => hp) hJ

theorem pollSources_sat {J : List ReceiverEvent → ReceiverData → Prop}
    (hsource : ∀ H (d : ReceiverData) before src after w, d.sources = before ++ src :: after →
      J H d → (src.poll w).Sat good H fun H' r =>
        J H' { d with sources := before ++ r.1 :: after }) (hJ : J H d) (w : World) :
    (pollSources d.sources w).Sat good H fun H' r => J H' { d with sources := r.1 } :=
  pollSources_sat_met (fun H d' before src after w' hd _ hJ => hsource H d' before src after w' hd hJ) hJ

theorem KeptByParts.next (hk : KeptByParts P good I) {w : World} {raw : RawPacket} {c : Call} {i : ℕ}
    (hp : P raw.data) (hc : c.Of raw i) (hI : I H d packets) :
    good H (receiverHandlers.visit d c) ∧ I (H ++ [receiverHandlers.visit d c])
      (receiverHandlers.next d packets w c).1 (receiverHandlers.next d packets w c).2 := by
  cases c with
  | rtp pkt j => exact hk.rtp H d packets w raw pkt j hp hc.2 hI
  | rtcp call j =>
    cases call with
    | sr pkt id => exact hk.sr H d packets w pkt id j hI
    | rr pkt id ssrc => exact hk.rr H d packets pkt id ssrc j hI

theorem KeptByParts.pollAll (hk : KeptByParts P good I) (hI : I H r.obj r.packets)
    (hf : ∀ f ∈ r.interfaces, f.Keeps P) (fuel : ℕ) {io : PollInput} (hio : io.Brings P) :
    (Receiver.poll fuel io r).Sat good H
      fun H' r' => I H' r'.obj r'.packets ∧ ∀ f ∈ r'.interfaces, f.Keeps P := by
  have hsession : (Session.poll receiverHandlers fuel io r).Sat good H
      fun H' r => I H' r.1.obj r.1.packets ∧ ∀ f ∈ r.1.interfaces, f.Keeps P :=
    Session.poll_obj (fun H d packets w raw c i hp hc hd => hk.next hp hc hd) hio hf hI
  unfold Receiver.poll
  apply Exec.sat_bind hsession
  intro H₁ p h₁
  obtain ⟨r₁, status⟩ := p
  obtain ⟨hI₁, hf₁⟩ := h₁
  dsimp only at hI₁ hf₁ ⊢
  apply Exec.sat_bind (hk.sources H₁ r₁.obj r₁.packets r₁.world hI₁)
  intro H₂ p₂ hI₂
  obtain ⟨srcs, w⟩ := p₂
  exact Exec.sat_pure ⟨hI₂, hf₁⟩

/-- What a poll brings satisfies `P`. -/
def Step.Brings (P : List UInt8 → Prop) : Step → Prop
  | .poll _ io => io.Brings P
  | _ => True

theorem Step.brings_true (e : Step) : e.Brings fun _ => True := by
  cases e with
  | poll fuel io => exact fun _ _ _ _ => trivial
  | _ => trivial

/-- The step rule. -/
theorem KeptByParts.step (hk : KeptByParts P good I) (hI : I H r.obj r.packets)
    (hf : ∀ f ∈ r.interfaces, f.Keeps P) {e : Step} (he : e.Brings P) : (step r e).Sat good H
      fun H' r' => I H' r'.obj r'.packets ∧ ∀ f ∈ r'.interfaces, f.Keeps P := by
  cases e with
  | addInterface addr opened =>
    apply Exec.sat_pure
    refine ⟨?_, Session.addInterface_keeps hf addr opened⟩
    unfold Session.addInterface
    split
    · exact hI
    · exact hI
  | suspendInterface addr suspend =>
    exact Exec.sat_pure ⟨hI, Session.suspendInterface_keeps hf addr suspend⟩
  | poll fuel io => exact hk.pollAll hI hf fuel he
  | fetchPacket =>
    unfold Receiver.step Session.fetchPacket
    cases hp : r.packets with
    | nil =>
      rw [hp] at hI
      exact Exec.sat_pure ⟨by rwa [hp], hf⟩
    | cons p ps =>
      rw [hp] at hI
      obtain ⟨hg, hI'⟩ := hk.fetched H r.obj p ps hI
      refine Exec.sat_bind (Q := fun H' _ => I H' r.obj ps) (Exec.sat_tell hg hI') ?_
      intro H' _ hI''
      exact Exec.sat_pure ⟨hI'', hf⟩

theorem KeptBySteps.step (hk : KeptBySteps P good I) (hI : I H r.obj r.packets)
    (hf : ∀ f ∈ r.interfaces, f.Keeps P) {e : Step} (he : e.Brings P) : (step r e).Sat good H
      fun H' r' => I H' r'.obj r'.packets ∧ ∀ f ∈ r'.interfaces, f.Keeps P :=
  hk.parts.step hI hf he

/-- The run rule for a receiver that may receive anything. -/
theorem KeptByParts.run (hk : KeptByParts (fun _ => True) good I) {timestampUnit : ℚ} {ssrc : UInt32}
    {w : World} (h₀ : I [] (new timestampUnit ssrc w).obj []) {r : Option Receiver}
    (hrun : Run Receiver.step (fun _ _ _ => True) (new timestampUnit ssrc w) H r) :
    (∀ n e, H[n]? = some e → good (H.take n) e) ∧ ∀ r', r = some r' → I H r'.obj r'.packets := by
  have hstep : ∀ H (r : Receiver) e, I H r.obj r.packets → True →
      (Receiver.step r e).Sat good H fun H' r' => I H' r'.obj r'.packets := by
    intro H r e hI _
    have hkeeps : ∀ f ∈ r.interfaces, f.Keeps fun _ => True := fun _ _ _ _ => trivial
    exact (hk.step hI hkeeps e.brings_true).mono (fun _ _ hg => hg) fun _ _ hr => hr.1
  have h₀' : I [] (new timestampUnit ssrc w).obj (new timestampUnit ssrc w).packets := h₀
  constructor
  · intro n e hn
    exact Run.sat_getElem (I := fun H r => I H r.obj r.packets) h₀' hstep hrun hn
  · exact (Run.sat (I := fun H r => I H r.obj r.packets) h₀' hstep hrun).2

end Receiver

end Mprtp
