import Mprtp.Receiver.Reports
import Mprtp.Session.Suspension

/-! The interfaces that a receiver sends its reports through. -/
namespace Mprtp

def ReceiverEvent.out? (e : ReceiverEvent) : Option OutDatagram := e.sent?.map Prod.snd

/-- The interface that a report of the source goes through, when one is due. -/
def Source.Reaches (src : Source) (i : ℕ) : Prop :=
  src.sendRr = true ∧ ∃ sf, src.subflows.head? = some sf ∧ sf.iface = i

namespace Receiver

/-- No source with a report due sends it through an interface with the mark. -/
def Spares (r : Receiver) : Prop :=
  ∀ src ∈ r.obj.sources, ∀ i, src.Reaches i → Session.suspended r.interfaces i = false

def Step.suspend? : Step → Option (Endpoint × Bool)
  | .suspendInterface addr suspend => some (addr, suspend)
  | _ => none

theorem step_suspend (r : Receiver) (e : Step) (addr : Endpoint) (suspend : Bool)
    (he : e.suspend? = some (addr, suspend)) : step r e = pure (r.suspendInterface addr suspend).1 := by
  cases e with
  | suspendInterface addr' suspend' =>
    cases he
    rfl
  | _ => cases he

/-- A step that sends finds sources that send through no interface with the mark. -/
def SparesIn (r : Receiver) : Step → Prop
  | .poll fuel io => ∀ r' status, (Session.poll receiverHandlers fuel io r).res = some (r', status) →
      Spares r'
  | _ => True

end Receiver

theorem Source.poll_reaches (src : Source) (w : World) (H : List ReceiverEvent) :
    (src.poll w).Sat (fun _ e => ∀ out, e.out? = some out → src.Reaches out.iface) H
      fun _ r => ∀ i, ¬ r.1.Reaches i := by
  refine src.poll_sat (Q := fun _ src' => ∀ i, ¬ src'.Reaches i) w ?_ ?_ ?_ ?_
  · exact fun _ hout => by cases hout
  · intro hidle i hi
    rw [hi.1] at hidle
    cases hidle
  · exact fun _ _ hout => by cases hout
  · intro sf hrr _ hsf
    constructor
    · intro out hout
      cases hout
      obtain ⟨sf', hsf', rfl⟩ : ∃ sf', src.subflows.head? = some sf' ∧ sf'.reported = sf := by
        have hmap : src.reported.subflows.head? = src.subflows.head?.map Subflow.reported :=
          List.head?_map
        rw [hmap] at hsf
        exact Option.map_eq_some_iff.mp hsf
      exact ⟨hrr, sf', hsf', rfl⟩
    · intro i hi
      cases hi.1

/-- A report that fits its buffer is sent through this interface. -/
theorem Source.reaches_iff {src : Source} {w : World} (hfits : (src.buildReport w).2.1.length ≤ maxPacketSize)
    {i : ℕ} : src.Reaches i ↔ ∃ out, .sent src.ssrc out ∈ (src.poll w).log ∧ out.iface = i := by
  constructor
  · intro h
    obtain ⟨hrr, sf, hsf, rfl⟩ := h
    obtain ⟨sfs, hlist⟩ := List.head?_eq_some_iff.mp hsf
    refine ⟨src.reportDatagram w sf, ?_, rfl⟩
    rw [src.poll_log w hrr hlist hfits]
    exact List.mem_cons_of_mem _ (List.mem_cons_of_mem _ List.mem_cons_self)
  · intro h
    obtain ⟨out, hmem, rfl⟩ := h
    obtain ⟨pre, post, hlog⟩ := List.append_of_mem hmem
    exact (src.poll_reaches w []).1 pre _ post hlog out rfl

namespace Receiver

/-- What a step that starts in `r` may log. -/
def Sparing (r : Receiver) (e : Step) (_ : List ReceiverEvent) (a : ReceiverEvent) : Prop :=
  SparesIn r e → ∀ out, a.out? = some out → Session.suspended r.interfaces out.iface = false

theorem Sparing.of_silent {r : Receiver} {e : Step} {H : List ReceiverEvent} {a : ReceiverEvent}
    (ha : a.out? = none) : Sparing r e H a := by
  intro _ out hout
  rw [ha] at hout
  cases hout

theorem pollSources_sat_reaches (d : ReceiverData) (w : World) (H : List ReceiverEvent) :
    (pollSources d.sources w).Sat
      (fun _ a => ∀ out, a.out? = some out → ∃ src ∈ d.sources, src.Reaches out.iface) H
      fun _ _ => True := by
  -- a source that has been polled has no report due
  let Due : ReceiverData → Prop := fun d' => ∀ src ∈ d'.sources, ∀ i, src.Reaches i →
    ∃ src ∈ d.sources, src.Reaches i
  have hsource : ∀ H (d' : ReceiverData) before src after w, d'.sources = before ++ src :: after →
      Due d' → (src.poll w).Sat
        (fun _ a => ∀ out, a.out? = some out → ∃ src ∈ d.sources, src.Reaches out.iface) H
        fun _ r => Due { d' with sources := before ++ r.1 :: after } := by
    intro H d' before src after w hd hdue
    have hmem : ∀ src' ∈ before ++ src :: after, ∀ i, src'.Reaches i → ∃ src ∈ d.sources, src.Reaches i := by
      rw [← hd]
      exact hdue
    refine (src.poll_reaches w H).mono ?_ ?_
    · intro _ a ha out hout
      exact hmem src (by simp) _ (ha out hout)
    · intro _ r hr src' hsrc' i hi
      rcases List.mem_append.mp hsrc' with hb | hb
      · exact hmem src' (by simp [hb]) i hi
      · rcases List.mem_cons.mp hb with rfl | ha
        · exact absurd hi (hr i)
        · exact hmem src' (by simp [ha]) i hi
  have hloop := pollSources_sat (J := fun _ d' => Due d') hsource
    (fun src hsrc i hi => ⟨src, hsrc, hi⟩) (H := H) (d := d) w
  exact hloop.mono (fun _ _ hg => hg) fun _ _ _ => trivial

theorem poll_sparing (r : Receiver) (fuel : ℕ) (io : PollInput) (H : List ReceiverEvent) :
    (poll fuel io r).Sat (Sparing r (.poll fuel io)) H
      fun _ r' => Session.suspended r'.interfaces = Session.suspended r.interfaces := by
  have hmarks : (Session.poll receiverHandlers fuel io r).Sat (Sparing r (.poll fuel io)) H
      fun _ p => Session.suspended p.1.interfaces = Session.suspended r.interfaces :=
    Session.poll_suspended (fun _ _ _ => .of_silent rfl) fuel io r H
  have hsession : (Session.poll receiverHandlers fuel io r).Sat (Sparing r (.poll fuel io)) H
      fun _ p => Session.suspended p.1.interfaces = Session.suspended r.interfaces ∧
        (SparesIn r (.poll fuel io) → Spares p.1) :=
    ⟨hmarks.1, fun p hp => ⟨hmarks.2 p hp, fun hspares => hspares p.1 p.2 hp⟩⟩
  unfold Receiver.poll
  apply Exec.sat_bind hsession
  intro H₁ p h₁
  obtain ⟨r₁, status⟩ := p
  obtain ⟨hsame, hspares⟩ := h₁
  dsimp only at hsame hspares ⊢
  apply Exec.sat_bind (Q := fun _ _ => True)
  · refine (pollSources_sat_reaches r₁.obj r₁.world H₁).mono ?_ fun _ _ _ => trivial
    intro _ a ha hin out hout
    obtain ⟨src, hsrc, hi⟩ := ha out hout
    rw [← hsame]
    exact hspares hin src hsrc _ hi
  · exact fun _ _ _ => Exec.sat_pure hsame

/-- The steps other than `suspend_interface` leave the marks as they are. -/
theorem step_sparing (r : Receiver) (e : Step) (he : e.suspend? = none) (H : List ReceiverEvent) :
    (step r e).Sat (Sparing r e) H
      fun _ r' => Session.suspended r'.interfaces = Session.suspended r.interfaces := by
  cases e with
  | addInterface addr opened => exact Exec.sat_pure (Session.suspended_addInterface r addr opened)
  | suspendInterface addr suspend => cases he
  | poll fuel io => exact poll_sparing r fuel io H
  | fetchPacket =>
    unfold step Session.fetchPacket
    cases r.packets with
    | nil => exact Exec.sat_pure rfl
    | cons p ps =>
      refine Exec.sat_bind (Q := fun _ _ => True) (Exec.sat_tell (.of_silent rfl) trivial) ?_
      exact fun _ _ _ => Exec.sat_pure rfl

theorem run_suspended {timestampUnit : ℚ} {ssrc : UInt32} {w : World}
    {ok : List ((Receiver × Step) ⊕ ReceiverEvent) → Receiver → Step → Prop}
    {H : List ((Receiver × Step) ⊕ ReceiverEvent)} {r : Option Receiver}
    (hrun : Run (noting step) ok (new timestampUnit ssrc w) H r) :
    ((∀ H r e, ok H r e → SparesIn r e) → ∀ n a (out : OutDatagram), H[n]? = some (.inr a) →
      a.out? = some out → ¬ Session.SuspendedSince Step.suspend? out.iface (H.take n)) ∧
    ∀ r', r = some r' → Session.MarksFollow Step.suspend? H r' :=
  Session.run_suspended step_suspend step_sparing rfl hrun

end Receiver

end Mprtp
