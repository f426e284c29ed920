import Mprtp.Sender.Divisors
import Mprtp.Sender.Steps
import Mprtp.Session.Queues

/-! The step rule of a sender: an invariant that every operation keeps. -/
namespace Mprtp

/-- The distribution changes percentages only, also when it cannot be calculated. -/
theorem SenderData.redistributed_reweighted (d : SenderData) :
    d.subflows.Forall₂ Subflow.Reweighted (d.recalcSubflowPercentage.res.getD d.subflows) := by
  cases hres : d.recalcSubflowPercentage.res with
  | none => exact List.forall₂_same.mpr fun sf _ => .refl sf
  | some sfs => exact SenderData.recalcSubflowPercentage_reweighted hres

namespace Sender

/-- `I` is kept by what a sender does, and every entry it logs is `good`; `B` holds of what it meets
when it polls. -/
structure KeptBySteps (B : PollInput → Prop) (good : List SenderEvent → SenderEvent → Prop)
    (I : List SenderEvent → Sender → Prop) : Prop where
  session : ∀ H s fuel io, B io → I H s →
    (Session.poll senderHandlers fuel io s).Sat good H fun H' r => I H' r.1
  tick : ∀ H s, I H s → I H { s with world := s.world.tick }
  sends : ∀ H s data ret k sf timestamp r,
    SenderData.Sends s.obj s.world data ret k sf timestamp r → I H s →
    good H (.sent k (Interface.sendto sf.iface (s.obj.rtpDatagram sf timestamp data) sf.remote false)) ∧
      I (H ++ [.sent k
          (Interface.sendto sf.iface (s.obj.rtpDatagram sf timestamp data) sf.remote false)])
        { s with obj := r.2.1, world := r.2.2 }
  sendsReport : ∀ H s k sf pkt r, SenderData.SendsReport s.obj s.world k sf pkt r → I H s →
    good H (.sent k (Interface.sendto sf.iface pkt sf.remote true)) ∧
      I (H ++ [.sent k (Interface.sendto sf.iface pkt sf.remote true)])
        { s with obj := r.1, world := r.2 }
  measure : ∀ H s curtime, I H s → good H (.measure s.obj curtime) ∧
    I (H ++ [.measure s.obj curtime]) { s with obj := s.obj.measureStreamBitrate curtime }
  recalc : ∀ H (s : Sender) sfs, s.obj.subflows.Forall₂ Subflow.Reweighted sfs → I H s →
    good H (.recalc s.obj s.obj.recalcSubflowPercentage.log) ∧
      I (H ++ [.recalc s.obj s.obj.recalcSubflowPercentage.log])
        { s with obj := { s.obj with subflows := sfs, recalcDistribution := false } }
  connect : ∀ H s ssrc destAddr, I H s → I H { s with obj := { s.obj with ssrc, destAddr } }
  addSubflow : ∀ H s iface remote, I H s →
    I H { s with obj := s.obj.addSubflow iface remote s.world, world := s.world.drawn }
  addInterface : ∀ H s addr opened, I H s → I H (s.addInterface addr opened)
  suspendInterface : ∀ H s addr suspend, I H s → I H (s.suspendInterface addr suspend).1
  fetchPacket : ∀ H s, I H s → I H s.fetchPacket.2

/-- What all operations but the sending of data keep. -/
structure KeptBetweenSends (B : PollInput → Prop) (good : List SenderEvent → SenderEvent → Prop)
    (I : List SenderEvent → Sender → Prop) : Prop where
  session : ∀ H s fuel io, B io → I H s →
    (Session.poll senderHandlers fuel io s).Sat good H fun H' r => I H' r.1
  tick : ∀ H s, I H s → I H { s with world := s.world.tick }
  sendsReport : ∀ H s k sf pkt r, SenderData.SendsReport s.obj s.world k sf pkt r → I H s →
    good H (.sent k (Interface.sendto sf.iface pkt sf.remote true)) ∧
      I (H ++ [.sent k (Interface.sendto sf.iface pkt sf.remote true)])
        { s with obj := r.1, world := r.2 }
  measure : ∀ H s curtime, I H s → good H (.measure s.obj curtime) ∧
    I (H ++ [.measure s.obj curtime]) { s with obj := s.obj.measureStreamBitrate curtime }
  recalc : ∀ H (s : Sender) sfs, s.obj.subflows.Forall₂ Subflow.Reweighted sfs → I H s →
    good H (.recalc s.obj s.obj.recalcSubflowPercentage.log) ∧
      I (H ++ [.recalc s.obj s.obj.recalcSubflowPercentage.log])
        { s with obj := { s.obj with subflows := sfs, recalcDistribution := false } }
  connect : ∀ H s ssrc destAddr, I H s → I H { s with obj := { s.obj with ssrc, destAddr } }
  addSubflow : ∀ H s iface remote, I H s →
    I H { s with obj := s.obj.addSubflow iface remote s.world, world := s.world.drawn }
  addInterface : ∀ H s addr opened, I H s → I H (s.addInterface addr opened)
  suspendInterface : ∀ H s addr suspend, I H s → I H (s.suspendInterface addr suspend).1
  fetchPacket : ∀ H s, I H s → I H s.fetchPacket.2

variable {B : PollInput → Prop} {good : List SenderEvent → SenderEvent → Prop}
  {I : List SenderEvent → Sender → Prop} {H : List SenderEvent} {s : Sender}

theorem KeptBySteps.betweenSends (hk : KeptBySteps B good I) : KeptBetweenSends B good I :=
  ⟨hk.session, hk.tick, hk.sendsReport, hk.measure, hk.recalc, hk.connect, hk.addSubflow,
    hk.addInterface, hk.suspendInterface, hk.fetchPacket⟩

section Sends

variable {d : SenderData} {w : World}

/-- The rule for `send_data`. -/
theorem sendData_sat {Q : List SenderEvent → Bool × SenderData × World → Prop} {data : List UInt8} {ret : ℤ}
    (hsends : ∀ k sf timestamp r, SenderData.Sends d w data ret k sf timestamp r →
      good H (.sent k (Interface.sendto sf.iface (d.rtpDatagram sf timestamp data) sf.remote false)) ∧
        Q (H ++ [.sent k
          (Interface.sendto sf.iface (d.rtpDatagram sf timestamp data) sf.remote false)]) r) :
    (d.sendData w data ret).Sat good H Q := by
  rcases d.sendData_cases w data ret with hres | ⟨k, sf, timestamp, r, hs⟩
  · rw [hres]
    exact Exec.sat_stuck_nil
  · obtain ⟨hg, hQ⟩ := hsends k sf timestamp r hs
    rw [hs.result]
    exact Exec.sat_single hg hQ

/-- The rule for the part of a poll that sends a report when it is due. -/
theorem sendDueReport_sat {Q : List SenderEvent → SenderData × World → Prop} {curtime : RtpTime}
    (hsends : ∀ k sf pkt r, SenderData.SendsReport d w k sf pkt r →
      good H (.sent k (Interface.sendto sf.iface pkt sf.remote true)) ∧
        Q (H ++ [.sent k (Interface.sendto sf.iface pkt sf.remote true)]) r) (hidle : Q H (d, w)) :
    (d.sendDueReport curtime w).Sat good H Q := by
  apply Exec.sat_ite
  · intro _
    rcases d.sendSenderReport_cases w with hres | ⟨k, sf, pkt, r, hs⟩
    · rw [hres]
      exact Exec.sat_stuck_nil
    · obtain ⟨hg, hQ⟩ := hsends k sf pkt r hs
      rw [hs.result]
      exact Exec.sat_single hg hQ
  · intro _
    exact Exec.sat_pure hidle

end Sends

theorem KeptBySteps.sendData (hk : KeptBySteps B good I) (hI : I H s) (data : List UInt8) (ret : ℤ) :
    (s.obj.sendData s.world data ret).Sat good H
      fun H' r => I H' { s with obj := r.2.1, world := r.2.2 } :=
  sendData_sat fun k sf timestamp r hs => hk.sends H s data ret k sf timestamp r hs hI

theorem KeptBetweenSends.sendDueReport (hk : KeptBetweenSends B good I) (hI : I H s) (curtime : RtpTime) :
    (s.obj.sendDueReport curtime s.world).Sat good H
      fun H' r => I H' { s with obj := r.1, world := r.2 } :=
  sendDueReport_sat (fun k sf pkt r hs => hk.sendsReport H s k sf pkt r hs hI) hI

theorem KeptBetweenSends.redistribute (hk : KeptBetweenSends B good I) (hI : I H s) :
    s.obj.redistribute.Sat good H fun H' d => I H' { s with obj := d } := by
  unfold SenderData.redistribute
  apply Exec.sat_ite
  · intro _
    exact Exec.sat_pure hI
  · intro _
    obtain ⟨hg, hI'⟩ := hk.recalc H s _ s.obj.redistributed_reweighted hI
    refine Exec.sat_bind
      (Q := fun H' _ => H' = H ++ [.recalc s.obj s.obj.recalcSubflowPercentage.log])
      (Exec.sat_tell hg rfl) ?_
    intro H' _ h
    obtain rfl := h
    exact Exec.sat_pure hI'

/-- The rule for a poll, part by part. -/
theorem poll_sat (I₁ I₂ I₃ : List SenderEvent → Sender → Prop) {I₄ : List SenderEvent → Sender → Prop}
    {fuel : ℕ} {io : PollInput}
    (hsession : (Session.poll senderHandlers fuel io s).Sat good H fun H' r => I₁ H' r.1)
    (hreport : ∀ H (s : Sender), I₁ H s → (s.obj.sendDueReport s.world.now s.world.tick).Sat good H
      fun H' r => I₂ H' { s with obj := r.1, world := r.2 })
    (hmeasure : ∀ H s curtime, I₂ H s → good H (.measure s.obj curtime) ∧
      I₃ (H ++ [.measure s.obj curtime]) { s with obj := s.obj.measureStreamBitrate curtime })
    (hredistribute : ∀ H s, I₃ H s →
      s.obj.redistribute.Sat good H fun H' d => I₄ H' { s with obj := d }) :
    (poll fuel io s).Sat good H I₄ := by
  unfold Sender.poll
  apply Exec.sat_bind hsession
  intro H₁ p hI₁
  obtain ⟨s₁, status⟩ := p
  dsimp only at hI₁ ⊢
  apply Exec.sat_bind (hreport H₁ s₁ hI₁)
  intro H₂ p hI₂
  obtain ⟨d, w⟩ := p
  dsimp only at hI₂ ⊢
  obtain ⟨hg, hI₃⟩ := hmeasure H₂ _ s₁.world.now hI₂
  refine Exec.sat_bind (Q := fun H' _ => H' = H₂ ++ [.measure d s₁.world.now])
    (Exec.sat_tell hg rfl) ?_
  intro H₃ _ h
  obtain rfl := h
  apply Exec.sat_bind (hredistribute _ _ hI₃)
  intro H₄ d' hI₄
  exact Exec.sat_pure hI₄

theorem KeptBetweenSends.poll (hk : KeptBetweenSends B good I) (hI : I H s) (fuel : ℕ) {io : PollInput}
    (hio : B io) : (poll fuel io s).Sat good H I :=
  poll_sat I I I (hk.session H s fuel io hio hI)
    (fun H' s' hI' => hk.sendDueReport (hk.tick H' s' hI') s'.world.now)
    (fun H' s' curtime hI' => hk.measure H' s' curtime hI')
    fun _ _ hI' => hk.redistribute hI'

/-- What a poll meets satisfies `B`. -/
def Step.Meets (B : PollInput → Prop) : Step → Prop
  | .poll _ io => B io
  | _ => True

/-- The rule for the steps that send no data. -/
theorem KeptBetweenSends.step (hk : KeptBetweenSends B good I)
    (isPathValid : Endpoint → Endpoint → Bool) (hI : I H s) {e : Step} (he : e.Meets B)
    (hne : ∀ data ret, e ≠ .sendData data ret) : (step isPathValid s e).Sat good H I := by
  cases e with
  | addInterface addr opened => exact Exec.sat_pure (hk.addInterface H s addr opened hI)
  | suspendInterface addr suspend => exact Exec.sat_pure (hk.suspendInterface H s addr suspend hI)
  | connect ssrc destination =>
    apply Exec.sat_pure
    unfold Sender.connect
    split
    · exact hI
    · exact connectPaths_rule (I := fun d w => I H { s with obj := d, world := w })
        (fun d w iface remote hd => hk.addSubflow H _ iface remote hd) isPathValid s.interfaces _
        (hk.connect H s ssrc destination hI)
  | sendData data ret => exact absurd rfl (hne data ret)
  | poll fuel io => exact hk.poll hI fuel he
  | fetchPacket => exact Exec.sat_pure (hk.fetchPacket H s hI)

/-- The step rule. -/
theorem KeptBySteps.step (hk : KeptBySteps B good I) (isPathValid : Endpoint → Endpoint → Bool)
    (hI : I H s) {e : Step} (he : e.Meets B) : (step isPathValid s e).Sat good H I := by
  by_cases hdata : ∃ data ret, e = .sendData data ret
  · obtain ⟨data, ret, rfl⟩ := hdata
    apply Exec.sat_bind (Q := fun H' r => I H' r.2)
    · apply Exec.sat_bind (hk.sendData hI data ret)
      intro H' p hI'
      obtain ⟨sent, d, w⟩ := p
      exact Exec.sat_pure hI'
    · intro H' p hI'
      obtain ⟨sent, s'⟩ := p
      exact Exec.sat_pure hI'
  · apply hk.betweenSends.step isPathValid hI he
    intro data ret h
    exact hdata ⟨data, ret, h⟩

/-- `J` is kept by what a sender does to its data, and every entry it logs is `good`; `P` holds of the
datagrams it receives. -/
structure KeptByData (P : List UInt8 → Prop) (good : List SenderEvent → SenderEvent → Prop)
    (J : List SenderEvent → SenderData → Prop) : Prop where
  rr : ∀ H d w (raw : RawPacket) fuel pkt id ssrc i, P raw.data → .rr pkt id ssrc ∈ (raw.rtcpCalls fuel).1 →
    J H d → good H (.visit d (.rtcp (.rr pkt id ssrc) i)) ∧
      J (H ++ [.visit d (.rtcp (.rr pkt id ssrc) i)]) (d.onRtcpRrPacket w pkt id).1
  visit : ∀ H d c, (∀ pkt id ssrc i, c ≠ .rtcp (.rr pkt id ssrc) i) → J H d →
    good H (.visit d c) ∧ J (H ++ [.visit d c]) d
  sends : ∀ H d w data ret k sf timestamp r, SenderData.Sends d w data ret k sf timestamp r → J H d →
    good H (.sent k (Interface.sendto sf.iface (d.rtpDatagram sf timestamp data) sf.remote false)) ∧
      J (H ++ [.sent k
        (Interface.sendto sf.iface (d.rtpDatagram sf timestamp data) sf.remote false)]) r.2.1
  sendsReport : ∀ H d w k sf pkt r, SenderData.SendsReport d w k sf pkt r → J H d →
    good H (.sent k (Interface.sendto sf.iface pkt sf.remote true)) ∧
      J (H ++ [.sent k (Interface.sendto sf.iface pkt sf.remote true)]) r.1
  measure : ∀ H d curtime, J H d → good H (.measure d curtime) ∧
    J (H ++ [.measure d curtime]) (d.measureStreamBitrate curtime)
  recalc : ∀ H (d : SenderData) sfs, d.subflows.Forall₂ Subflow.Reweighted sfs → J H d →
    good H (.recalc d d.recalcSubflowPercentage.log) ∧
      J (H ++ [.recalc d d.recalcSubflowPercentage.log])
        { d with subflows := sfs, recalcDistribution := false }
  connect : ∀ H d ssrc destAddr, J H d → J H { d with ssrc, destAddr }
  addSubflow : ∀ H d iface remote w, J H d → J H (d.addSubflow iface remote w)

variable {P : List UInt8 → Prop} {J : List SenderEvent → SenderData → Prop}

/-- The rule for the calls of the handlers in a poll. -/
theorem session_sat
    (hrr : ∀ H d w (raw : RawPacket) fuel pkt id ssrc i, P raw.data →
      .rr pkt id ssrc ∈ (raw.rtcpCalls fuel).1 → J H d → good H (.visit d (.rtcp (.rr pkt id ssrc) i)) ∧
        J (H ++ [.visit d (.rtcp (.rr pkt id ssrc) i)]) (d.onRtcpRrPacket w pkt id).1)
    (hvisit : ∀ H d c, (∀ pkt id ssrc i, c ≠ .rtcp (.rr pkt id ssrc) i) → J H d →
      good H (.visit d c) ∧ J (H ++ [.visit d c]) d)
    (hJ : J H s.obj) (hf : ∀ f ∈ s.interfaces, f.Keeps P) (fuel : ℕ) {io : PollInput} (hio : io.Brings P) :
    (Session.poll senderHandlers fuel io s).Sat good H
      fun H' r => J H' r.1.obj ∧ ∀ f ∈ r.1.interfaces, f.Keeps P := by
  refine Session.poll_obj (I := fun H d _ => J H d) ?_ hio hf hJ
  intro H d packets w raw c i hp hc hd
  cases c with
  | rtp pkt j => exact hvisit H d (.rtp pkt j) (fun _ _ _ _ h => by cases h) hd
  | rtcp call j =>
    cases call with
    | sr pkt id => exact hvisit H d (.rtcp (.sr pkt id) j) (fun _ _ _ _ h => by cases h) hd
    | rr pkt id ssrc =>
      obtain ⟨-, fuel', hcall⟩ := hc
      exact hrr H d w raw fuel' pkt id ssrc j hp hcall hd

theorem KeptByData.steps (hk : KeptByData P good J) : KeptBySteps (PollInput.Brings P) good
    fun H s => J H s.obj ∧ ∀ f ∈ s.interfaces, f.Keeps P where
  session := fun H s fuel io hio hI => session_sat hk.rr hk.visit hI.1 hI.2 fuel hio
  tick := fun H s hI => hI
  sends := by
    intro H s data ret k sf timestamp r hs hI
    obtain ⟨hg, hJ⟩ := hk.sends H s.obj s.world data ret k sf timestamp r hs hI.1
    exact ⟨hg, hJ, hI.2⟩
  sendsReport := by
    intro H s k sf pkt r hs hI
    obtain ⟨hg, hJ⟩ := hk.sendsReport H s.obj s.world k sf pkt r hs hI.1
    exact ⟨hg, hJ, hI.2⟩
  measure := by
    intro H s curtime hI
    obtain ⟨hg, hJ⟩ := hk.measure H s.obj curtime hI.1
    exact ⟨hg, hJ, hI.2⟩
  recalc := by
    intro H s sfs hsfs hI
    obtain ⟨hg, hJ⟩ := hk.recalc H s.obj sfs hsfs hI.1
    exact ⟨hg, hJ, hI.2⟩
  connect := fun H s ssrc destAddr hI => ⟨hk.connect H s.obj ssrc destAddr hI.1, hI.2⟩
  addSubflow := fun H s iface remote hI => ⟨hk.addSubflow H s.obj iface remote s.world hI.1, hI.2⟩
  addInterface := by
    intro H s addr opened hI
    refine ⟨?_, Session.addInterface_keeps hI.2 addr opened⟩
    unfold Session.addInterface
    split
    · exact hI.1
    · exact hI.1
  suspendInterface := fun H s addr suspend hI =>
    ⟨hI.1, Session.suspendInterface_keeps hI.2 addr suspend⟩
  fetchPacket := by
    intro H s hI
    unfold Session.fetchPacket
    split
    · exact hI
    · exact hI

/-- The run rule for the data of a sender that may receive anything. -/
theorem KeptByData.run (hk : KeptByData (fun _ => True) good J) {timestampUnit : ℚ} {w : World}
    (h₀ : J [] (new timestampUnit w).obj) {isPathValid : Endpoint → Endpoint → Bool} {s : Sender}
    (hrun : Run (step isPathValid) (fun _ _ _ => True) (new timestampUnit w) H (some s)) :
    J H s.obj := by
  have hstep : ∀ H s (e : Step), J H s.obj → True →
      (step isPathValid s e).Sat good H fun H s => J H s.obj := by
    intro H s e hJ _
    have hkeeps : ∀ f ∈ s.interfaces, f.Keeps fun _ => True := fun _ _ _ _ => trivial
    have hmeets : e.Meets (PollInput.Brings fun _ => True) := by
      cases e with
      | poll fuel io => exact fun _ _ _ _ => trivial
      | _ => trivial
    exact (hk.steps.step isPathValid ⟨hJ, hkeeps⟩ hmeets).mono (fun _ _ hg => hg) fun _ _ hs => hs.1
  exact (Run.sat (I := fun H s => J H s.obj) h₀ hstep hrun).2 s rfl

/-- The calls of the application other than `connect`. -/
def Step.Unconnected : Step → Prop
  | .connect _ _ => False
  | _ => True

/-- `J` is kept by what these calls do to the data of a sender, and every entry they log is `good`. -/
structure KeptByUse (good : List SenderEvent → SenderEvent → Prop)
    (J : List SenderEvent → SenderData → Prop) : Prop where
  rr : ∀ H d w pkt id ssrc i, J H d → good H (.visit d (.rtcp (.rr pkt id ssrc) i)) ∧
    J (H ++ [.visit d (.rtcp (.rr pkt id ssrc) i)]) (d.onRtcpRrPacket w pkt id).1
  visit : ∀ H d c, (∀ pkt id ssrc i, c ≠ .rtcp (.rr pkt id ssrc) i) → J H d →
    good H (.visit d c) ∧ J (H ++ [.visit d c]) d
  sends : ∀ H d w data ret k sf timestamp r, SenderData.Sends d w data ret k sf timestamp r → J H d →
    good H (.sent k (Interface.sendto sf.iface (d.rtpDatagram sf timestamp data) sf.remote false)) ∧
      J (H ++ [.sent k
        (Interface.sendto sf.iface (d.rtpDatagram sf timestamp data) sf.remote false)]) r.2.1
  sendsReport : ∀ H d w k sf pkt r, SenderData.SendsReport d w k sf pkt r → J H d →
    good H (.sent k (Interface.sendto sf.iface pkt sf.remote true)) ∧
      J (H ++ [.sent k (Interface.sendto sf.iface pkt sf.remote true)]) r.1
  measure : ∀ H d curtime, J H d → good H (.measure d curtime) ∧
    J (H ++ [.measure d curtime]) (d.measureStreamBitrate curtime)
  redistribute : ∀ H d, J H d → d.redistribute.Sat good H J

theorem KeptByUse.session (hk : KeptByUse good J) (hJ : J H s.obj) (fuel : ℕ) (io : PollInput) :
    (Session.poll senderHandlers fuel io s).Sat good H fun H' r => J H' r.1.obj := by
  have hbrings : io.Brings fun _ => True := fun _ _ _ _ => trivial
  have hkeeps : ∀ f ∈ s.interfaces, f.Keeps fun _ => True := fun _ _ _ _ => trivial
  have hsat := session_sat
    (fun H d w _ _ pkt id ssrc i _ _ hd => hk.rr H d w pkt id ssrc i hd) hk.visit hJ hkeeps fuel hbrings
  exact hsat.mono (fun _ _ hg => hg) fun _ _ hr => hr.1

theorem KeptByUse.sendData (hk : KeptByUse good J) (hJ : J H s.obj) (data : List UInt8) (ret : ℤ) :
    (s.obj.sendData s.world data ret).Sat good H fun H' r => J H' r.2.1 :=
  sendData_sat fun k sf timestamp r hs => hk.sends H s.obj s.world data ret k sf timestamp r hs hJ

theorem KeptByUse.sendDueReport (hk : KeptByUse good J) {d : SenderData} (hJ : J H d)
    (curtime : RtpTime) (w : World) :
    (d.sendDueReport curtime w).Sat good H fun H' r => J H' r.1 :=
  sendDueReport_sat (fun k sf pkt r hs => hk.sendsReport H d w k sf pkt r hs hJ) hJ

/-- The rule for the calls other than `connect`. -/
theorem KeptByUse.step (hk : KeptByUse good J) (isPathValid : Endpoint → Endpoint → Bool)
    (hJ : J H s.obj) {e : Step} (he : e.Unconnected) :
    (step isPathValid s e).Sat good H fun H' s' => J H' s'.obj := by
  let K : List SenderEvent → Sender → Prop := fun H' s' => J H' s'.obj
  cases e with
  | addInterface addr opened =>
    apply Exec.sat_pure
    unfold Session.addInterface
    split
    · exact hJ
    · exact hJ
  | suspendInterface addr suspend => exact Exec.sat_pure hJ
  | connect ssrc destination => exact he.elim
  | sendData data ret =>
    refine Exec.sat_bind (Q := fun H' p => K H' p.2) ?_ ?_
    · apply Exec.sat_bind (hk.sendData hJ data ret)
      intro H' r hr
      exact Exec.sat_pure hr
    · intro H' p hp
      exact Exec.sat_pure hp
  | poll fuel io =>
    exact poll_sat K K K (hk.session hJ fuel io)
      (fun H' s' hs' => hk.sendDueReport hs' s'.world.now s'.world.tick)
      (fun H' s' curtime hs' => hk.measure H' s'.obj curtime hs')
      fun H' s' hs' => hk.redistribute H' s'.obj hs'
  | fetchPacket =>
    apply Exec.sat_pure
    unfold Session.fetchPacket
    split
    · exact hJ
    · exact hJ

end Sender

end Mprtp
