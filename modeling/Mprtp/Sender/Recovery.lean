import Mprtp.Sender.Runs
import Mprtp.Sender.Numbers

/-! How fast the congestion indicator of a subflow can go down. -/
namespace Mprtp

namespace Subflow

variable {sf sf' : Subflow} {w : World}

/-- The earliest time at which the indicator can be zero when it goes down step by step: `TO` seconds for each
of its values. -/
def recoversAt (sf : Subflow) : ℚ :=
  sf.congestionTime + TO * (sf.congestionIndicator * (sf.congestionIndicator + 1)) / 2

/-- The indicator is not negative, and it was set in the past. -/
structure Dated (sf : Subflow) (w : World) : Prop where
  indicator : 0 ≤ sf.congestionIndicator
  time : w.From sf.congestionTime

/-- What a step does to the indicator. -/
structure Recovers (sf sf' : Subflow) (w' : World) : Prop where
  dated : sf'.Dated w'
  recoversAt : sf.recoversAt ≤ sf'.recoversAt

theorem Dated.same (h : sf.Dated w) {w' : World} (hw : w.Leads w')
    (hindicator : sf'.congestionIndicator = sf.congestionIndicator)
    (htime : sf'.congestionTime = sf.congestionTime) : sf.Recovers sf' w' := by
  refine ⟨⟨hindicator ▸ h.indicator, htime ▸ hw _ h.time⟩, ?_⟩
  unfold recoversAt
  rw [hindicator, htime]

/-- The indicator goes down after `TO` seconds for its value. -/
theorem Dated.relax (h : sf.Dated w) (hpos : 0 < sf.congestionIndicator) :
    sf.Recovers (sf.relax w).1 (sf.relax w).2 := by
  unfold Subflow.relax
  split
  · rename_i hlt
    have htick := h.time.tick.now_lt_tick
    have hnow := h.time.now_lt_tick
    refine ⟨⟨?_, h.time.tick.refl.tick⟩, ?_⟩
    · dsimp only
      omega
    · unfold recoversAt
      dsimp only
      push_cast
      unfold TO at hlt ⊢
      linarith
  · exact h.same (.tick w) rfl rfl

theorem Dated.withoutLoss (h : sf.Dated w) (b : ExtRat) :
    sf.Recovers (sf.withoutLoss b w).1 (sf.withoutLoss b w).2 := by
  unfold Subflow.withoutLoss
  dsimp only
  split
  · rename_i hpos
    have hfollowed : Dated
        { sf with
          instantBitrate := b
          testedBitrate := follow sf.tbInitialized sf.testedBitrate b
          tbInitialized := true
          congestedBitrate := follow sf.cbInitialized sf.congestedBitrate b
          cbInitialized := true } w := ⟨h.indicator, h.time⟩
    have hrelax := hfollowed.relax hpos
    exact ⟨hrelax.dated, hrelax.recoversAt⟩
  · exact h.same (.refl w) rfl rfl

/-- Loss starts the time anew, from the next value if there is one. -/
theorem Dated.withLoss (h : sf.Dated w) (b : ExtRat) :
    sf.Recovers (sf.withLoss b w).1 (sf.withLoss b w).2 := by
  have hnow := h.time.le_now
  have hindicator : (0 : ℚ) ≤ sf.congestionIndicator := by exact_mod_cast h.indicator
  unfold Subflow.withLoss
  refine ⟨⟨?_, h.time.refl.tick⟩, ?_⟩
  · dsimp only
    split
    · exact Int.le_add_one h.indicator
    · exact h.indicator
  · unfold recoversAt TO
    dsimp only
    split
    · push_cast
      linarith
    · linarith

theorem Dated.measure (h : sf.Dated w) (last pkt : RtcpRrPacket) :
    sf.Recovers ((sf.measure last pkt w).1.store pkt) (sf.measure last pkt w).2 := by
  unfold Subflow.measure
  dsimp only
  split
  · obtain ⟨hdated, hrecovers⟩ := h.withoutLoss (sf.bitrate last pkt)
    exact ⟨⟨hdated.indicator, hdated.time⟩, hrecovers⟩
  · obtain ⟨hdated, hrecovers⟩ := h.withLoss (sf.bitrate last pkt)
    exact ⟨⟨hdated.indicator, hdated.time⟩, hrecovers⟩

end Subflow

namespace SenderData

variable {d d' : SenderData} {w w' : World}

/-- The clock has reached `T`, and every subflow is dated. -/
structure Dated (d : SenderData) (T : RtpTime) (w : World) : Prop where
  clock : w.From T
  subflow : ∀ (k : ℕ) (sf : Subflow), d.subflows[k]? = some sf → sf.Dated w

/-- No subflow recovers earlier than before. -/
def Recovers (d d' : SenderData) : Prop := ∀ (k : ℕ) (sf : Subflow), d.subflows[k]? = some sf →
  ∃ sf' : Subflow, d'.subflows[k]? = some sf' ∧ sf.recoversAt ≤ sf'.recoversAt

theorem Recovers.refl (d : SenderData) : d.Recovers d := fun _ sf hk => ⟨sf, hk, le_refl _⟩

theorem Recovers.trans {d₁ d₂ d₃ : SenderData} (h : d₁.Recovers d₂) (h' : d₂.Recovers d₃) : d₁.Recovers d₃ := by
  intro k sf hk
  obtain ⟨sf₂, hk₂, hle⟩ := h k sf hk
  obtain ⟨sf₃, hk₃, hle'⟩ := h' k sf₂ hk₂
  exact ⟨sf₃, hk₃, hle.trans hle'⟩

/-- The sender is dated, and no subflow recovers earlier than in `base`. -/
structure Recovering (base : SenderData) (T : RtpTime) (d : SenderData) (w : World) : Prop where
  dated : d.Dated T w
  recovers : base.Recovers d

variable {base : SenderData} {T : RtpTime}

theorem Recovering.leads (h : base.Recovering T d w) (hw : w.Leads w') : base.Recovering T d w' where
  dated := ⟨hw T h.dated.clock, fun k sf hk => ⟨(h.dated.subflow k sf hk).indicator,
    hw _ (h.dated.subflow k sf hk).time⟩⟩
  recovers := h.recovers

/-- A step after which every subflow recovers from the one there was. -/
theorem Recovering.step (h : base.Recovering T d w) (hw : w.Leads w') (hlen : d'.subflows.length = d.subflows.length)
    (hstep : ∀ (k : ℕ) (sf sf' : Subflow), d.subflows[k]? = some sf → d'.subflows[k]? = some sf' →
      sf.Dated w → sf.Recovers sf' w') : base.Recovering T d' w' := by
  have hget : ∀ (k : ℕ) (sf : Subflow), d.subflows[k]? = some sf → ∃ sf' : Subflow, d'.subflows[k]? = some sf' := by
    intro k sf hk
    have hlt := (List.getElem?_eq_some_iff.mp hk).1
    exact ⟨_, List.getElem?_eq_getElem (hlen ▸ hlt)⟩
  refine ⟨⟨hw T h.dated.clock, ?_⟩, ?_⟩
  · intro k sf' hk'
    have hlt := (List.getElem?_eq_some_iff.mp hk').1
    have hk := List.getElem?_eq_getElem (hlen ▸ hlt)
    exact (hstep k _ sf' hk hk' (h.dated.subflow k _ hk)).dated
  · intro k sf₀ hk₀
    obtain ⟨sf, hk, hle⟩ := h.recovers k sf₀ hk₀
    obtain ⟨sf', hk'⟩ := hget k sf hk
    exact ⟨sf', hk', hle.trans (hstep k sf sf' hk hk' (h.dated.subflow k sf hk)).recoversAt⟩

/-- The indicators and their times are the same. -/
theorem Recovering.same (h : base.Recovering T d w) (hw : w.Leads w')
    (hindicator : d'.subflows.map Subflow.congestionIndicator = d.subflows.map Subflow.congestionIndicator)
    (htime : d'.subflows.map Subflow.congestionTime = d.subflows.map Subflow.congestionTime) :
    base.Recovering T d' w' := by
  have hlen : d'.subflows.length = d.subflows.length := by simpa using congrArg List.length hindicator
  refine h.step hw hlen ?_
  intro k sf sf' hk hk' hdated
  have hget : ∀ {β : Type} {f : Subflow → β}, d'.subflows.map f = d.subflows.map f → f sf' = f sf := by
    intro β f hf
    have hf' := congrArg (fun l => l[k]?) hf
    rw [List.getElem?_map, List.getElem?_map, hk, hk'] at hf'
    exact Option.some.inj hf'
  exact hdated.same hw (hget hindicator) (hget htime)

/-- One subflow takes a step. -/
theorem Recovering.put (h : base.Recovering T d w) (hw : w.Leads w') {k : ℕ} {sf sf' : Subflow}
    (hk : d.subflows[k]? = some sf) (hsf : sf.Dated w → sf.Recovers sf' w') : base.Recovering T (d.put k sf') w' := by
  refine h.step hw (List.length_set ..) ?_
  intro j sf₁ sf₂ hj hj' hdated
  rcases getElem?_put hj' with ⟨rfl, rfl⟩ | ⟨-, hj''⟩
  · rw [hk] at hj
    cases hj
    exact hsf hdated
  · rw [hj] at hj''
    cases hj''
    exact hdated.same hw rfl rfl

theorem Recovering.onRtcpRrPacket (h : base.Recovering T d w) (pkt : RtcpRrPacket) (id : UInt16) :
    base.Recovering T (d.onRtcpRrPacket w pkt id).1 (d.onRtcpRrPacket w pkt id).2 := by
  rcases d.onRtcpRrPacket_cases w pkt id with ⟨hres, -⟩ | ⟨k, sf, hst⟩ | ⟨m, hms⟩
  · rw [hres]
    exact h
  · rw [hst.result]
    have hstore : sf.Dated w → sf.Recovers (sf.store pkt) w := fun hsf => hsf.same (.refl w) rfl rfl
    have hput := h.put (.refl w) hst.subflow hstore
    exact ⟨⟨hput.dated.clock, hput.dated.subflow⟩, hput.recovers⟩
  · rw [hms.result]
    have hput := h.put (m.sf.measure_leads m.last pkt w) hms.subflow fun hsf => hsf.measure m.last pkt
    exact ⟨⟨hput.dated.clock, hput.dated.subflow⟩, hput.recovers⟩

/-- A new subflow has no congestion. -/
theorem Recovering.addSubflow (h : base.Recovering T d w) (hT : 0 ≤ T) (iface : ℕ) (remote : Endpoint) :
    base.Recovering T (d.addSubflow iface remote w) w.drawn := by
  refine ⟨⟨h.dated.clock.drawn, ?_⟩, ?_⟩
  · intro k sf hk
    rcases Nat.lt_trichotomy k d.subflows.length with hlt | rfl | hgt
    · have hsf := h.dated.subflow k sf (by rw [← hk]; exact (List.getElem?_append_left hlt).symm)
      exact ⟨hsf.indicator, hsf.time.drawn⟩
    · have hnew : sf = (Subflow.new d.nextSubflowId iface remote w).1 :=
        Option.some.inj (hk.symm.trans List.getElem?_concat_length)
      rw [hnew]
      exact ⟨le_refl (0 : ℤ), h.dated.clock.strict, hT.trans h.dated.clock.le_now⟩
    · rw [List.getElem?_eq_none] at hk
      · cases hk
      · unfold SenderData.addSubflow
        rw [List.length_append, List.length_singleton]
        exact hgt
  · intro k sf₀ hk₀
    obtain ⟨sf, hk, hle⟩ := h.recovers k sf₀ hk₀
    exact ⟨sf, (List.getElem?_append_left (List.getElem?_eq_some_iff.mp hk).1).trans hk, hle⟩

end SenderData

namespace Sender

open SenderData

variable {base : SenderData} {T : RtpTime}

theorem session_recovering {H : List SenderEvent} {s : Sender} (h : base.Recovering T s.obj s.world) (fuel : ℕ)
    (io : PollInput) : (Session.poll senderHandlers fuel io s).Sat (fun _ _ => True) H
      fun _ r => base.Recovering T r.1.obj r.1.world := by
  have hleads : s.world.Leads (Session.pollInterfaces io 0 s.interfaces s.world).2.1 :=
    fun U hU => Session.pollInterfaces_from hU io 0 s.interfaces
  generalize hpoll : Session.pollInterfaces io 0 s.interfaces s.world = r at hleads
  obtain ⟨fs, w, status⟩ := r
  have hcalls : Session.KeptByCalls senderHandlers (fun _ _ => True) (fun _ _ => True)
      fun _ (s : Sender) => base.Recovering T s.obj s.world := by
    intro H s i raw c _ _ hs
    refine ⟨trivial, ?_⟩
    cases c with
    | rtp pkt j => exact hs
    | rtcp call j =>
      cases call with
      | sr pkt id => exact hs
      | rr pkt id ssrc => exact hs.onRtcpRrPacket pkt id
  have hsat : (Session.poll senderHandlers fuel io s).Sat (fun _ _ => True) H _ :=
    Session.poll_sat (I := fun _ (s : Sender) => base.Recovering T s.obj s.world) (fun _ _ _ hs => hs) hcalls hpoll
      (fun _ _ _ _ _ => trivial) (h.leads hleads)
  exact hsat.mono (fun _ _ hg => hg) fun _ _ hr => hr.1

theorem keptBySteps_recovering (hT : 0 ≤ T) : KeptBySteps (fun _ => True) (fun _ _ => True)
    fun _ s => base.Recovering T s.obj s.world where
  session := fun _ _ fuel io _ h => session_recovering h fuel io
  tick := fun _ s h => h.leads (.tick s.world)
  sends := by
    intro H s data ret k sf timestamp r hs h
    have hsent : sf.Dated s.world → sf.Recovers
        (sf.sendto (s.obj.rtpDatagram sf timestamp data) (UInt32.ofNat data.length) false ret).2 r.2.2 := by
      intro hsf
      refine hsf.same hs.leads ?_ ?_
      all_goals
        unfold Subflow.sendto
        dsimp only
        split_ifs <;> rfl
    have hput := h.put hs.leads hs.subflow hsent
    have hsubflows := hs.unmoved.subflows
    exact ⟨trivial, hput.same (.refl _) (congrArg _ hsubflows) (congrArg _ hsubflows)⟩
  sendsReport := by
    intro H s k sf pkt r hs h
    have hsubflows := hs.unmoved.subflows
    exact ⟨trivial, h.same hs.leads (congrArg _ hsubflows) (congrArg _ hsubflows)⟩
  measure := by
    intro H s curtime h
    obtain ⟨hsubflows, -⟩ := s.obj.measureStreamBitrate_numbers curtime
    exact ⟨trivial, h.same (.refl _) (congrArg _ hsubflows) (congrArg _ hsubflows)⟩
  recalc := fun H s sfs hsfs h => ⟨trivial, h.same (.refl _) (Subflow.Reweighted.map_eq (fun _ _ => rfl) hsfs)
    (Subflow.Reweighted.map_eq (fun _ _ => rfl) hsfs)⟩
  connect := fun H s ssrc destAddr h => h.same (.refl _) rfl rfl
  addSubflow := fun H s iface remote h => h.addSubflow hT iface remote
  addInterface := by
    intro H s addr opened h
    unfold Session.addInterface
    split <;> exact h
  suspendInterface := fun H s addr suspend h => h
  fetchPacket := by
    intro H s h
    unfold Session.fetchPacket
    split <;> exact h

/-- In every run: when the congestion indicator of a subflow has gone down from `c` to `c'` between two calls,
`TO` seconds have passed for each value that it had, counted from the loss; so a subflow that has become congested
is neither congested nor lossy after 18 seconds at the earliest. -/
theorem congestion_recovery {isPathValid : Endpoint → Endpoint → Bool} {timestampUnit : ℚ} {w : World}
    {H : List ((Sender × Step) ⊕ SenderEvent)} {r : Option Sender} (hclock : StrictMono w.clock) (hpos : 0 ≤ w.now)
    (hrun : Run (noting (step isPathValid)) (fun _ _ _ => True) (new timestampUnit w) H r) {m n : ℕ}
    {s s' : Sender} {e e' : Step} (hmn : m < n) (hm : H[m]? = some (.inl (s, e)))
    (hn : H[n]? = some (.inl (s', e'))) {k : ℕ} {sf : Subflow} (hk : s.obj.subflows[k]? = some sf) :
    ∃ sf' : Subflow, s'.obj.subflows[k]? = some sf' ∧ 0 ≤ sf'.congestionIndicator ∧
      sf'.congestionTime ≤ s'.world.now ∧
      sf.congestionTime + TO * (sf.congestionIndicator * (sf.congestionIndicator + 1) -
        sf'.congestionIndicator * (sf'.congestionIndicator + 1)) / 2 ≤ sf'.congestionTime := by
  have hstep : ∀ (s : Sender) (e : Step), s.obj.Dated w.now s.world →
      (step isPathValid s e).Sat (fun _ _ => True) [] fun _ s' =>
        s'.obj.Dated w.now s'.world ∧ s.obj.Recovers s'.obj := by
    intro s e hs
    have hmeets : e.Meets fun _ => True := by cases e <;> trivial
    have hbase : s.obj.Recovering w.now s.obj s.world := ⟨hs, .refl _⟩
    have hsat := (keptBySteps_recovering hpos).step (H := []) isPathValid hbase hmeets
    exact hsat.mono (fun _ _ hg => hg) fun _ _ hs' => ⟨hs'.dated, hs'.recovers⟩
  have h₀ : (new timestampUnit w).obj.Dated w.now (new timestampUnit w).world := by
    refine ⟨⟨hclock, le_refl _⟩, ?_⟩
    intro k sf hk
    cases hk
  obtain ⟨hdated, hrecovers⟩ := Run.noted_rel (I := fun s : Sender => s.obj.Dated w.now s.world)
    (R := fun s s' => s.obj.Recovers s'.obj) (fun _ _ _ h h' => h.trans h') h₀ hstep hrun hmn hm hn
  obtain ⟨sf', hk', hle⟩ := hrecovers k sf hk
  obtain ⟨hindicator, htime⟩ := hdated.subflow k sf' hk'
  refine ⟨sf', hk', hindicator, htime.le_now, ?_⟩
  unfold Subflow.recoversAt at hle
  linarith

/-- A receiver report on subflow 1 with some loss. -/
def reportOfLoss (fractionlost : UInt8) (exthighseqnr : UInt32) : List UInt8 :=
  (losslessReport exthighseqnr).take 28 ++ [fractionlost] ++ (losslessReport exthighseqnr).drop 29

/-- The second of three reports tells of loss. -/
def recovered : List Step :=
  [.addInterface ⟨0x0A000001, 23000⟩ true, .connect 0xDEAD [⟨0x0A000002, 22000⟩], .sendData [65] 25,
    .poll 10 (.arrive true ⟨0x0A000002, 22001⟩ [reportOfLoss 0 7]), .sendData [66] 25,
    .poll 10 (.arrive true ⟨0x0A000002, 22001⟩ [reportOfLoss 64 8]), .sendData [67] 25,
    .poll 10 (.arrive true ⟨0x0A000002, 22001⟩ [reportOfLoss 0 9]), .fetchPacket]

def recoveredLog : List ((Sender × Step) ⊕ SenderEvent) :=
  (recovered.foldlM (noting (step fun _ _ => true)) (new 1 (.ticking 1000))).log

/-- The indicator goes from 1 to 0, three seconds or more after the loss. -/
theorem recovered_congestion : ∃ (s s' : Sender) (e e' : Step) (sf sf' : Subflow),
    recoveredLog[15]? = some (.inl (s, e)) ∧ recoveredLog[22]? = some (.inl (s', e')) ∧
      s.obj.subflows[0]? = some sf ∧ s'.obj.subflows[0]? = some sf' ∧ sf.congestionIndicator = 1 ∧
      sf'.congestionIndicator = 0 ∧ sf.congestionTime + TO ≤ sf'.congestionTime := by
  have hrun : Run (noting (step fun _ _ => true)) (fun _ _ _ => True) (new 1 (.ticking 1000)) recoveredLog _ :=
    Run.foldlM (new 1 (.ticking 1000)) recovered
  have hpos : (0 : RtpTime) ≤ (World.ticking 1000).now := by decide +kernel
  have hsome : ∃ p ∈ recoveredLog[15]?.bind Sum.getLeft?, ∃ p' ∈ recoveredLog[22]?.bind Sum.getLeft?,
      ∃ sf ∈ p.1.obj.subflows[0]?, sf.congestionIndicator = 1 ∧
        ∃ sf' ∈ p'.1.obj.subflows[0]?, sf'.congestionIndicator = 0 := by
    decide +kernel
  obtain ⟨⟨s, e⟩, hp, ⟨s', e'⟩, hp', sf, hk, hone, sf', hk', hzero⟩ := hsome
  obtain ⟨x, hx, hxs⟩ := Option.bind_eq_some_iff.mp hp
  obtain ⟨y, hy, hys⟩ := Option.bind_eq_some_iff.mp hp'
  rw [Sum.getLeft?_eq_some_iff.mp hxs] at hx
  rw [Sum.getLeft?_eq_some_iff.mp hys] at hy
  obtain ⟨sf₁, hk₁, -, -, hle⟩ :=
    congestion_recovery (World.ticking_strictMono 1000) hpos hrun (by decide) hx hy hk
  rw [Option.some.inj (hk₁.symm.trans hk'), hone, hzero] at hle
  refine ⟨s, s', e, e', sf, sf', hx, hy, hk, hk', hone, hzero, le_trans (le_of_eq ?_) hle⟩
  norm_num

end Sender

end Mprtp
