import Mprtp.Sender.Choice
import Mprtp.Session.Suspension

/-! The interfaces that a sender can send through. -/
namespace Mprtp

def SenderEvent.out? : SenderEvent → Option OutDatagram
  | .sent _ out => some out
  | _ => none

namespace SenderData

variable {d : SenderData}

/-- The interface of a subflow that `select_subflow` can return. -/
def Reaches (d : SenderData) (i : ℕ) : Prop := ∃ k sf, d.Selectable k ∧ d.subflows[k]? = some sf ∧ sf.iface = i

theorem sendData_reaches (d : SenderData) (w : World) (data : List UInt8) (ret : ℤ) (H : List SenderEvent) :
    (d.sendData w data ret).Sat (fun _ e => ∀ out, e.out? = some out → d.Reaches out.iface) H
      fun _ _ => True := by
  rcases d.sendData_eq w data ret with hres | ⟨k, sf, hchosen, hsf, hres⟩
  · rw [hres]
    exact Exec.sat_stuck_nil
  · rw [hres]
    refine Exec.sat_single ?_ trivial
    intro out hout
    cases hout
    exact ⟨k, sf, ⟨w, hchosen⟩, hsf, rfl⟩

/-- A sender report goes where the data could go. -/
theorem sendSenderReport_reaches (d : SenderData) (w : World) (H : List SenderEvent) :
    (d.sendSenderReport w).Sat (fun _ e => ∀ out, e.out? = some out → d.Reaches out.iface) H
      fun _ _ => True := by
  rcases d.sendSenderReport_eq w with hres | ⟨k, sf, hchosen, hsf, -, hres⟩
  · rw [hres]
    exact Exec.sat_stuck_nil
  · rw [hres]
    refine Exec.sat_single ?_ trivial
    intro out hout
    cases hout
    have hstamped : d.Unmoved (d.stamped w) := (d.getNextTimestamp_unmoved w).1
    have hselectable : (d.stamped w).Selectable k := ⟨_, hchosen⟩
    exact ⟨k, sf, hselectable.congr hstamped.choices, hsf, rfl⟩

/-- With some draw `send_data` sends through each of these interfaces. -/
theorem reaches_iff {i : ℕ} (data : List UInt8) (ret : ℤ) : d.Reaches i ↔
    ∃ w k out, .sent k out ∈ (d.sendData w data ret).log ∧ out.iface = i := by
  constructor
  · intro h
    obtain ⟨k, sf, hk, hsf, rfl⟩ := h
    obtain ⟨w, hw⟩ := hk
    refine ⟨w, k, Interface.sendto sf.iface (d.rtpDatagram sf (d.numbered w).1.timestamp data) sf.remote
      false, ?_, rfl⟩
    rw [sendData_of_chosen hw hsf data ret]
    exact List.mem_singleton_self _
  · intro h
    obtain ⟨w, k, out, hmem, rfl⟩ := h
    obtain ⟨pre, post, hlog⟩ := List.append_of_mem hmem
    exact (d.sendData_reaches w data ret []).1 pre _ post hlog out rfl

end SenderData

namespace Sender

/-- Nothing that is sent now can go through an interface with the mark. -/
def Spares (s : Sender) : Prop := ∀ i, s.obj.Reaches i → Session.suspended s.interfaces i = false

def Step.suspend? : Step → Option (Endpoint × Bool)
  | .suspendInterface addr suspend => some (addr, suspend)
  | _ => none

theorem step_suspend (isPathValid : Endpoint → Endpoint → Bool) (s : Sender) (e : Step) (addr : Endpoint)
    (suspend : Bool) (he : e.suspend? = some (addr, suspend)) :
    step isPathValid s e = pure (s.suspendInterface addr suspend).1 := by
  cases e with
  | suspendInterface addr' suspend' =>
    cases he
    rfl
  | _ => cases he

/-- A step that sends is made by a sender that can send through no interface with the mark. -/
def SparesIn (s : Sender) : Step → Prop
  | .sendData _ _ => Spares s
  | .poll fuel io => ∀ s' status, (Session.poll senderHandlers fuel io s).res = some (s', status) →
      s'.obj.ReportDue s'.world.now → Spares s'
  | _ => True

/-- What a step that starts in `s` may log. -/
def Sparing (s : Sender) (e : Step) (_ : List SenderEvent) (a : SenderEvent) : Prop :=
  SparesIn s e → ∀ out, a.out? = some out → Session.suspended s.interfaces out.iface = false

theorem Sparing.of_silent {s : Sender} {e : Step} {H : List SenderEvent} {a : SenderEvent}
    (ha : a.out? = none) : Sparing s e H a := by
  intro _ out hout
  rw [ha] at hout
  cases hout

variable {s : Sender}

theorem sendData_sparing (s : Sender) (data : List UInt8) (ret : ℤ) (H : List SenderEvent) :
    (sendData s data ret).Sat (Sparing s (.sendData data ret)) H
      fun _ r => r.2.interfaces = s.interfaces := by
  unfold sendData
  apply Exec.sat_bind (Q := fun _ _ => True)
  · refine (s.obj.sendData_reaches s.world data ret H).mono ?_ fun _ _ _ => trivial
    exact fun _ a ha hspares out hout => hspares _ (ha out hout)
  · intro H' r _
    exact Exec.sat_pure rfl

theorem poll_sparing (s : Sender) (fuel : ℕ) (io : PollInput) (H : List SenderEvent) :
    (poll fuel io s).Sat (Sparing s (.poll fuel io)) H
      fun _ s' => Session.suspended s'.interfaces = Session.suspended s.interfaces := by
  refine poll_sat
    (fun _ s' => Session.suspended s'.interfaces = Session.suspended s.interfaces ∧
      (SparesIn s (.poll fuel io) → s'.obj.ReportDue s'.world.now → Spares s'))
    (fun _ s' => Session.suspended s'.interfaces = Session.suspended s.interfaces)
    (fun _ s' => Session.suspended s'.interfaces = Session.suspended s.interfaces) ?_ ?_ ?_ ?_
  · have hmarks : (Session.poll senderHandlers fuel io s).Sat (Sparing s (.poll fuel io)) H
        fun _ r => Session.suspended r.1.interfaces = Session.suspended s.interfaces :=
      Session.poll_suspended (fun _ _ _ => .of_silent rfl) fuel io s H
    refine ⟨hmarks.1, ?_⟩
    intro r hr
    exact ⟨hmarks.2 r hr, fun hspares => hspares r.1 r.2 hr⟩
  · intro H' s' hs'
    obtain ⟨hmarks, hdue⟩ := hs'
    apply Exec.sat_ite
    · intro hd
      refine (s'.obj.sendSenderReport_reaches s'.world.tick H').mono ?_ fun _ _ _ => hmarks
      intro _ a ha hspares out hout
      rw [← hmarks]
      exact hdue hspares hd _ (ha out hout)
    · exact fun _ => Exec.sat_pure hmarks
  · intro H' s' curtime hs'
    exact ⟨.of_silent rfl, hs'⟩
  · intro H' s' hs'
    apply Exec.sat_ite
    · exact fun _ => Exec.sat_pure hs'
    · intro _
      refine Exec.sat_bind (Q := fun _ _ => True) (Exec.sat_tell (.of_silent rfl) trivial) ?_
      exact fun _ _ _ => Exec.sat_pure hs'

/-- The steps other than `suspend_interface` leave the marks as they are. -/
theorem step_sparing (isPathValid : Endpoint → Endpoint → Bool) (s : Sender) (e : Step)
    (he : e.suspend? = none) (H : List SenderEvent) : (step isPathValid s e).Sat (Sparing s e) H
      fun _ s' => Session.suspended s'.interfaces = Session.suspended s.interfaces := by
  cases e with
  | addInterface addr opened => exact Exec.sat_pure (Session.suspended_addInterface s addr opened)
  | suspendInterface addr suspend => cases he
  | connect ssrc destination =>
    apply Exec.sat_pure
    rw [(connect_queues isPathValid s ssrc destination).1]
  | sendData data ret =>
    apply Exec.sat_bind (sendData_sparing s data ret H)
    intro H' r hr
    apply Exec.sat_pure
    rw [hr]
  | poll fuel io => exact poll_sparing s fuel io H
  | fetchPacket =>
    apply Exec.sat_pure
    unfold Session.fetchPacket
    split
    · rfl
    · rfl

section Runs

variable {isPathValid : Endpoint → Endpoint → Bool} {timestampUnit : ℚ} {w : World}
  {ok : List ((Sender × Step) ⊕ SenderEvent) → Sender → Step → Prop}
  {H : List ((Sender × Step) ⊕ SenderEvent)} {r : Option Sender}

theorem run_suspended (hrun : Run (noting (step isPathValid)) ok (new timestampUnit w) H r) :
    ((∀ H s e, ok H s e → SparesIn s e) → ∀ n a (out : OutDatagram), H[n]? = some (.inr a) →
      a.out? = some out → ¬ Session.SuspendedSince Step.suspend? out.iface (H.take n)) ∧
    ∀ s, r = some s → Session.MarksFollow Step.suspend? H s :=
  Session.run_suspended (step_suspend isPathValid) (step_sparing isPathValid) rfl hrun

/-- Data for a subflow on an interface with the mark is sent while the interface is suspended. -/
theorem sends_suspended (hrun : Run (noting (step isPathValid)) ok (new timestampUnit w) H (some s))
    (data : List UInt8) (ret : ℤ) (hok : ok H s (.sendData data ret)) {k : ℕ} {sf : Subflow}
    (hchosen : (s.obj.selectSubflow s.world).1 = some k) (hsf : s.obj.subflows[k]? = some sf)
    {i : ℕ} (hmark : Session.suspended s.interfaces i = true) : ∃ H' r n out,
      Run (noting (step isPathValid)) ok (new timestampUnit w) H' r ∧ .inl (s, .sendData data ret) ∈ H' ∧
      H'[n]? = some (.inr (.sent k out)) ∧ out.iface = sf.iface ∧
      Session.SuspendedSince Step.suspend? i (H'.take n) := by
  let pkt := s.obj.rtpDatagram sf (s.obj.numbered s.world).1.timestamp data
  let out := Interface.sendto sf.iface pkt sf.remote false
  have hlog : (step isPathValid s (.sendData data ret)).log = [.sent k out] := by
    change ((fun p : Bool × Sender => p.2) <$>
      ((fun q => (q.1, { s with obj := q.2.1, world := q.2.2 })) <$> s.obj.sendData s.world data ret)).log = _
    rw [Exec.log_map, Exec.log_map, SenderData.sendData_of_chosen hchosen hsf]
  have hnoted : (noting (step isPathValid) s (.sendData data ret)).log =
      [.inl (s, .sendData data ret), .inr (.sent k out)] := by
    rw [noting_log, hlog]
    rfl
  have hrun' := hrun.snoc _ hok
  rw [hnoted] at hrun'
  refine ⟨_, _, H.length + 1, out, hrun', by simp, ?_, rfl, ?_⟩
  · simp
  · have htake : (H ++ [Sum.inl (s, Step.sendData data ret), Sum.inr (SenderEvent.sent k out)]).take
        (H.length + 1) = H ++ [Sum.inl (s, Step.sendData data ret)] := by simp [List.take_append]
    rw [htake, Session.suspendedSince_concat_of_none rfl]
    exact ((run_suspended hrun).2 s rfl i).mp hmark

end Runs

end Sender

end Mprtp
