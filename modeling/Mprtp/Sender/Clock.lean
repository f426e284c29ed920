import Mprtp.Sender.Rules

/-! The step rule of a sender for what it does by the clock: when it reports, and what it measures. -/
namespace Mprtp

def SenderEvent.measure? : SenderEvent → Option (SenderData × RtpTime)
  | .measure d curtime => some (d, curtime)
  | _ => none

theorem getElem?_of_measure {H : List ((Sender × Sender.Step) ⊕ SenderEvent)} {n : ℕ} {d : SenderData}
    {curtime : RtpTime} (h : (H[n]?.bind Sum.getRight?).bind SenderEvent.measure? = some (d, curtime)) :
    H[n]? = some (.inr (.measure d curtime)) := by
  obtain ⟨e, he, hmeasure⟩ := Option.bind_eq_some_iff.mp h
  obtain ⟨x, hx, hxe⟩ := Option.bind_eq_some_iff.mp he
  rw [hx, Sum.getRight?_eq_some_iff.mp hxe]
  cases e with
  | measure d' curtime' =>
    cases hmeasure
    rfl
  | _ => cases hmeasure

namespace SenderData

/-- What the sender does by the clock is not changed. -/
structure SameTimes (d d' : SenderData) : Prop where
  packetCount : d'.packetCount = d.packetCount
  reported : d'.lastSenderReportTime = d.lastSenderReportTime
  size : d'.sbSize = d.sbSize
  measured : d'.sbTime = d.sbTime
  stream : d'.streamBitrate = d.streamBitrate

variable {d : SenderData} {w : World}

theorem onRtcpRrPacket_sameTimes (d : SenderData) (w : World) (pkt : RtcpRrPacket) (id : UInt16) :
    d.SameTimes (d.onRtcpRrPacket w pkt id).1 := by
  obtain ⟨subflows, recalcDistribution, hfields⟩ := d.onRtcpRrPacket_fields w pkt id
  rw [hfields]
  exact ⟨rfl, rfl, rfl, rfl, rfl⟩

/-- A report that is due goes on from the clock it meets. -/
theorem sendDueReport_leads {curtime : RtpTime} {r : SenderData × World}
    (hres : (d.sendDueReport curtime w).res = some r) : w.Leads r.2 := by
  unfold sendDueReport at hres
  split at hres
  · rcases d.sendSenderReport_cases w with hstuck | ⟨k, sf, pkt, r', hs⟩
    · rw [hstuck] at hres
      cases hres
    · rw [hs.result] at hres
      cases hres
      exact hs.leads
  · cases hres
    exact .refl w

end SenderData

namespace Sender

/-- `J` is kept by what a sender does between the sending of data, and every entry it logs is `good`; the
clock has reached `T`. After the report of a poll, `K` holds at the time of the poll. -/
structure KeptByClock (T : RtpTime) (good : List SenderEvent → SenderEvent → Prop)
    (J : List SenderEvent → SenderData → World → Prop)
    (K : RtpTime → List SenderEvent → SenderData → World → Prop) : Prop where
  leads : ∀ H d w w', w.Leads w' → J H d w → J H d w'
  same : ∀ H d d' w, d.SameTimes d' → J H d w → J H d' w
  visit : ∀ H d w c, J H d w → good H (.visit d c) ∧ J (H ++ [.visit d c]) d w
  report : ∀ H d w curtime, T ≤ curtime → w.From curtime → J H d w →
    (d.sendDueReport curtime w).Sat good H fun H' r => K curtime H' r.1 r.2
  measure : ∀ H d w curtime, T ≤ curtime → K curtime H d w → good H (.measure d curtime) ∧
    J (H ++ [.measure d curtime]) (d.measureStreamBitrate curtime) w
  recalc : ∀ H d w divisors, J H d w → good H (.recalc d divisors) ∧ J (H ++ [.recalc d divisors]) d w

variable {T : RtpTime} {good : List SenderEvent → SenderEvent → Prop}
  {J : List SenderEvent → SenderData → World → Prop}
  {K : RtpTime → List SenderEvent → SenderData → World → Prop} {H : List SenderEvent} {s : Sender}

theorem KeptByClock.session (hk : KeptByClock T good J K) (hJ : J H s.obj s.world) (hw : s.world.From T)
    (fuel : ℕ) (io : PollInput) : (Session.poll senderHandlers fuel io s).Sat good H
      fun H' r => J H' r.1.obj r.1.world ∧ r.1.world.From T := by
  have hfrom : s.world.Leads (Session.pollInterfaces io 0 s.interfaces s.world).2.1 :=
    fun U hU => Session.pollInterfaces_from hU io 0 s.interfaces
  generalize hpoll : Session.pollInterfaces io 0 s.interfaces s.world = r at hfrom
  obtain ⟨fs, w, status⟩ := r
  have hcalls : Session.KeptByCalls senderHandlers good (fun _ _ => True)
      fun H (s : Sender) => J H s.obj s.world ∧ s.world.From T := by
    intro H s i raw c _ _ hI
    obtain ⟨hJ, hw⟩ := hI
    obtain ⟨hg, hJ'⟩ := hk.visit H s.obj s.world c hJ
    refine ⟨hg, ?_⟩
    cases c with
    | rtp pkt j => exact ⟨hJ', hw⟩
    | rtcp call j =>
      cases call with
      | sr pkt id => exact ⟨hJ', hw⟩
      | rr pkt id ssrc =>
        have hleads := s.obj.onRtcpRrPacket_leads s.world pkt id
        exact ⟨hk.leads _ _ _ _ hleads (hk.same _ _ _ _ (s.obj.onRtcpRrPacket_sameTimes s.world pkt id) hJ'),
          hleads T hw⟩
  have hsat : (Session.poll senderHandlers fuel io s).Sat good H _ :=
    Session.poll_sat (I := fun H (s : Sender) => J H s.obj s.world ∧ s.world.From T)
      (fun _ _ _ hI => hI) hcalls hpoll (fun _ _ _ _ _ => trivial) ⟨hk.leads _ _ _ _ hfrom hJ, hfrom T hw⟩
  exact hsat.mono (fun _ _ hg => hg) fun _ _ hr => hr.1

theorem KeptByClock.redistribute (hk : KeptByClock T good J K) {d : SenderData} {w : World} (hJ : J H d w) :
    d.redistribute.Sat good H fun H' d' => J H' d' w := by
  unfold SenderData.redistribute
  apply Exec.sat_ite
  · intro _
    exact Exec.sat_pure hJ
  · intro _
    obtain ⟨hg, hJ'⟩ := hk.recalc H d w d.recalcSubflowPercentage.log hJ
    refine Exec.sat_bind (Q := fun H' _ => H' = H ++ [.recalc d d.recalcSubflowPercentage.log])
      (Exec.sat_tell hg rfl) ?_
    intro H' _ h
    obtain rfl := h
    exact Exec.sat_pure (hk.same _ d _ _ ⟨rfl, rfl, rfl, rfl, rfl⟩ hJ')

theorem KeptByClock.poll (hk : KeptByClock T good J K) (hJ : J H s.obj s.world) (hw : s.world.From T)
    (fuel : ℕ) (io : PollInput) :
    (poll fuel io s).Sat good H fun H' s' => J H' s'.obj s'.world ∧ s'.world.From T := by
  unfold Sender.poll
  apply Exec.sat_bind (hk.session hJ hw fuel io)
  intro H₁ p hp
  obtain ⟨s₁, status⟩ := p
  obtain ⟨hJ₁, hw₁⟩ := hp
  dsimp only at hJ₁ hw₁ ⊢
  have hreport := hk.report H₁ s₁.obj s₁.world.tick s₁.world.now hw₁.le_now hw₁.refl.tick
    (hk.leads _ _ _ _ (.tick _) hJ₁)
  refine Exec.sat_bind (Q := fun H' r => K s₁.world.now H' r.1 r.2 ∧ r.2.From T) ?_ ?_
  · refine ⟨hreport.1, fun r hres => ⟨hreport.2 r hres, ?_⟩⟩
    exact SenderData.sendDueReport_leads hres T hw₁.tick
  · intro H₂ p hp
    obtain ⟨d, w⟩ := p
    obtain ⟨hJ₂, hw₂⟩ := hp
    dsimp only at hJ₂ hw₂ ⊢
    obtain ⟨hg, hJ₃⟩ := hk.measure H₂ d w s₁.world.now hw₁.le_now hJ₂
    refine Exec.sat_bind (Q := fun H' _ => H' = H₂ ++ [.measure d s₁.world.now]) (Exec.sat_tell hg rfl) ?_
    intro H₃ _ h
    obtain rfl := h
    apply Exec.sat_bind (hk.redistribute hJ₃)
    intro H₄ d' hJ₄
    exact Exec.sat_pure ⟨hJ₄, hw₂⟩

/-- The rule for the steps that send no data. -/
theorem KeptByClock.step (hk : KeptByClock T good J K) (isPathValid : Endpoint → Endpoint → Bool)
    (hJ : J H s.obj s.world) (hw : s.world.From T) {e : Step} (hne : ∀ data ret, e ≠ .sendData data ret) :
    (step isPathValid s e).Sat good H fun H' s' => J H' s'.obj s'.world ∧ s'.world.From T := by
  cases e with
  | addInterface addr opened =>
    apply Exec.sat_pure
    unfold Session.addInterface
    split <;> exact ⟨hJ, hw⟩
  | suspendInterface addr suspend => exact Exec.sat_pure ⟨hJ, hw⟩
  | connect ssrc destination =>
    apply Exec.sat_pure
    unfold Sender.connect
    split
    · exact ⟨hJ, hw⟩
    · have hadd : ∀ d w iface remote, J H d w ∧ w.From T →
          J H (d.addSubflow iface remote w) w.drawn ∧ w.drawn.From T := by
        intro d w iface remote h
        exact ⟨hk.leads _ _ _ _ (.drawn w) (hk.same _ d _ _ ⟨rfl, rfl, rfl, rfl, rfl⟩ h.1), h.2.drawn⟩
      exact connectPaths_rule (I := fun d w => J H d w ∧ w.From T) hadd isPathValid s.interfaces _
        ⟨hk.same _ s.obj _ _ ⟨rfl, rfl, rfl, rfl, rfl⟩ hJ, hw⟩
  | sendData data ret => exact absurd rfl (hne data ret)
  | poll fuel io => exact hk.poll hJ hw fuel io
  | fetchPacket =>
    apply Exec.sat_pure
    unfold Session.fetchPacket
    split <;> exact ⟨hJ, hw⟩

end Sender

end Mprtp
