import Mprtp.Sender.Accounts
import Mprtp.Sender.Clock

/-! When sender reports are sent: not before the first packet, not too often and not too late. -/
namespace Mprtp

theorem getSeconds_mono {t u : RtpTime} (h : t ≤ u) : getSeconds t ≤ getSeconds u := by
  unfold getSeconds
  split <;> split
  · exact Int.floor_mono h
  · exact absurd (le_trans ‹0 ≤ t› h) ‹¬ 0 ≤ u›
  · have hceil : ⌈t⌉ ≤ 0 := Int.ceil_le.mpr (by exact_mod_cast (not_le.mp ‹¬ 0 ≤ t›).le)
    exact hceil.trans (Int.floor_nonneg.mpr ‹0 ≤ u›)
  · exact Int.ceil_mono h

def SenderEvent.isReport : SenderEvent → Bool
  | .sent _ out => out.rtcp
  | _ => false

/-- The sender reports in a log. -/
def reportCount (L : List SenderEvent) : ℕ := L.countP SenderEvent.isReport

theorem reportCount_append (L L' : List SenderEvent) :
    reportCount (L ++ L') = reportCount L + reportCount L' := List.countP_append

theorem reportCount_single {e : SenderEvent} (h : e.isReport = false) (L : List SenderEvent) :
    reportCount (L ++ [e]) = reportCount L := by
  unfold reportCount
  rw [List.countP_append, List.countP_singleton, h]
  rfl

namespace SenderData

variable {d d' : SenderData} {w w' : World} {windows : Set (RtpTime × ℕ)} {sends : Prop}
  {L : List SenderEvent}

/-- The schedule of the reports in the log `L`; `sends` says that a packet was sent. A window is a reading of
the clock with the number of reports before it. -/
structure Scheduled (windows : Set (RtpTime × ℕ)) (sends : Prop) (L : List SenderEvent) (d : SenderData)
    (w : World) : Prop where
  last : w.From d.lastSenderReportTime
  begun : d.lastSenderReportTime ≠ 0 ↔ sends
  counted : d.packetCount ≠ 0 → sends
  window : ∀ t n, (t, n) ∈ windows → w.From t ∧ (reportCount L = n ∨
    getSeconds t + 5 * (reportCount L : ℤ) ≤ getSeconds d.lastSenderReportTime + 5 * (n : ℤ) + 5)

theorem Scheduled.leads (h : d.Scheduled windows sends L w) (hw : w.Leads w') :
    d.Scheduled windows sends L w' where
  last := hw _ h.last
  begun := h.begun
  counted := h.counted
  window := fun t n hmem => ⟨hw _ (h.window t n hmem).1, (h.window t n hmem).2⟩

theorem Scheduled.keep (h : d.Scheduled windows sends L w)
    (hlast : d'.lastSenderReportTime = d.lastSenderReportTime) (hcount : d'.packetCount = d.packetCount) :
    d'.Scheduled windows sends L w := by
  obtain ⟨hfrom, hbegun, hcounted, hwindow⟩ := h
  rw [← hlast] at hfrom hbegun hwindow
  rw [← hcount] at hcounted
  exact ⟨hfrom, hbegun, hcounted, hwindow⟩

theorem Scheduled.mono (h : d.Scheduled windows sends L w) {windows' : Set (RtpTime × ℕ)}
    (hsub : windows' ⊆ windows) : d.Scheduled windows' sends L w :=
  ⟨h.last, h.begun, h.counted, fun t n hmem => h.window t n (hsub hmem)⟩

theorem Scheduled.log (h : d.Scheduled windows sends L w) {L' : List SenderEvent}
    (hL : reportCount L' = reportCount L) : d.Scheduled windows sends L' w := by
  obtain ⟨hlast, hbegun, hcounted, hwindow⟩ := h
  rw [← hL] at hwindow
  exact ⟨hlast, hbegun, hcounted, hwindow⟩

/-- The first packet, and the one after 2^32 packets, starts the schedule. -/
theorem Scheduled.start (h : d.Scheduled windows sends L w) (hpos : 0 < w.now) {sends' : Prop} (hsends : sends') :
    { d with lastSenderReportTime := w.now }.Scheduled windows sends' L w := by
  have hle := getSeconds_mono h.last.le_now
  refine ⟨h.last.refl, iff_of_true hpos.ne' hsends, fun _ => hsends, ?_⟩
  intro t n hmem
  obtain ⟨ht, hcount⟩ := h.window t n hmem
  refine ⟨ht, hcount.imp_right fun hcount => ?_⟩
  dsimp only
  omega

/-- A packet that is counted. -/
theorem Scheduled.countSent (h : d.Scheduled windows sends L w) {T : RtpTime} (hw : w.From T) (hpos : 0 < T)
    (dataLen pktLen : ℕ) {sends' : Prop} (hsends : sends') :
    (d.countSent dataLen pktLen w).1.Scheduled windows sends' L (d.countSent dataLen pktLen w).2 := by
  have hrest : ∀ (d : SenderData) (w : World), d.Scheduled windows sends' L w →
      let r := { d with
        packetCount := d.packetCount + 1
        octetCount := d.octetCount + UInt32.ofNat dataLen }.updateStreamBitrate (UInt32.ofNat pktLen) w
      r.1.Scheduled windows sends' L r.2 := by
    intro d w hd
    have hd' : { d with
        packetCount := d.packetCount + 1
        octetCount := d.octetCount + UInt32.ofNat dataLen }.Scheduled windows sends' L w :=
      ⟨hd.last, hd.begun, fun _ => hsends, hd.window⟩
    obtain ⟨sbSize, sbTime, hfields⟩ := { d with
        packetCount := d.packetCount + 1
        octetCount := d.octetCount + UInt32.ofNat dataLen }.updateStreamBitrate_fields (UInt32.ofNat pktLen) w
    dsimp only
    refine (hd'.leads (updateStreamBitrate_unmoved _ (UInt32.ofNat pktLen) w).2).keep ?_ ?_
    · rw [hfields]
    · rw [hfields]
  unfold SenderData.countSent
  by_cases hcount : d.packetCount = 0
  · rw [if_pos hcount]
    exact hrest _ _ ((h.start (hpos.trans_le hw.le_now) hsends).leads (.tick w))
  · rw [if_neg hcount]
    have hall : sends ↔ sends' := iff_of_true (h.counted hcount) hsends
    exact hrest _ _ ⟨h.last, h.begun.trans hall, fun _ => hsends, h.window⟩

theorem Scheduled.sendData (h : d.Scheduled windows sends L w) {T : RtpTime} (hw : w.From T) (hpos : 0 < T)
    {data : List UInt8} {ret : ℤ} {r : Bool × SenderData × World} (hres : (d.sendData w data ret).res = some r) :
    r.2.1.Scheduled windows (sends ∨ ret = (24 + data.length : ℕ)) L r.2.2 := by
  rcases d.sendData_eq w data ret with hstuck | ⟨k, sf, -, hk, heq⟩
  · rw [hstuck] at hres
    cases hres
  · obtain ⟨lastPacketTime, timestamp, hfields⟩ :=
      { d with sequesnceNumber := d.sequesnceNumber + 1 }.getNextTimestamp_fields (d.selectSubflow w).2
    change (d.numbered w).1 = _ at hfields
    have hlen : (d.rtpDatagram sf (d.numbered w).1.timestamp data).length = 24 + data.length := rtpBytes_length ..
    have hleads := (d.numbered_unmoved w).2
    dsimp only at heq
    rw [hlen] at heq
    generalize d.rtpDatagram sf (d.numbered w).1.timestamp data = pkt at heq
    have hnumbered : ((d.numbered w).1.put k (sf.sendto pkt (UInt32.ofNat data.length) false ret).2).Scheduled
        windows sends L (d.numbered w).2 := by
      refine (h.leads hleads).keep ?_ ?_
      · rw [hfields]
      · rw [hfields]
    rw [heq] at hres
    by_cases hret : ret = (24 + data.length : ℕ)
    · rw [if_pos hret] at hres
      cases hres
      exact hnumbered.countSent (hleads T hw) hpos data.length (24 + data.length) (Or.inr hret)
    · rw [if_neg hret] at hres
      cases hres
      rw [or_iff_left hret]
      exact hnumbered

/-- A report that is due. -/
theorem Scheduled.report (h : d.Scheduled windows sends L w) {curtime : RtpTime} (hdue : d.ReportDue curtime)
    (hw : w.From curtime) (hpos : 0 < curtime) (hlast : d'.lastSenderReportTime = w.now) {e : SenderEvent}
    (he : e.isReport = true) : sends ∧ d'.Scheduled windows sends (L ++ [e]) w := by
  have hsends : sends := h.begun.mp hdue.1
  have hle := getSeconds_mono hw.le_now
  have hlen : reportCount (L ++ [e]) = reportCount L + 1 := by
    unfold reportCount
    rw [List.countP_append, List.countP_singleton, if_pos he]
  have hne : d'.lastSenderReportTime ≠ 0 := hlast ▸ (hpos.trans_le hw.le_now).ne'
  refine ⟨hsends, hlast ▸ h.last.refl, iff_of_true hne hsends, fun _ => hsends, ?_⟩
  intro t n hmem
  obtain ⟨ht, hcount⟩ := h.window t n hmem
  have hage := hdue.2
  have hbehind := getSeconds_mono ht.le_now
  refine ⟨ht, Or.inr ?_⟩
  rw [hlen, hlast, Nat.cast_add, Nat.cast_one]
  rcases hcount with hcount | hcount
  · rw [hcount]
    omega
  · omega

/-- `send_sender_report` notes the time that it reads. -/
theorem sendSenderReport_time {r : SenderData × World} (hres : (d.sendSenderReport w).res = some r) :
    r.1.lastSenderReportTime = w.now := by
  rcases d.sendSenderReport_eq w with hstuck | ⟨k, sf, -, -, -, heq⟩
  · rw [hstuck] at hres
    cases hres
  · have htime : (d.stamped w).lastPacketTime = w.now := by
      unfold stamped getNextTimestamp
      split <;> rfl
    rw [heq] at hres
    cases hres
    obtain ⟨sbSize, sbTime, hfields⟩ := (d.stamped w).updateStreamBitrate_fields
      (UInt32.ofNat (d.builtReport w).length) ((d.stamped w).selectSubflow (d.getNextTimestamp w).2).2
    rw [hfields]
    exact htime

theorem countSent_lastSenderReportTime (hcount : d.packetCount ≠ 0) (dataLen pktLen : ℕ) (w : World) :
    (d.countSent dataLen pktLen w).1.lastSenderReportTime = d.lastSenderReportTime := by
  unfold countSent updateStreamBitrate
  rw [if_neg hcount]
  dsimp only
  split <;> rfl

/-- Once packets are counted, a packet leaves the time of the last report as it is. -/
theorem sendData_lastSenderReportTime (hcount : d.packetCount ≠ 0) {data : List UInt8} {ret : ℤ}
    {r : Bool × SenderData × World} (hres : (d.sendData w data ret).res = some r) :
    r.2.1.lastSenderReportTime = d.lastSenderReportTime := by
  rcases d.sendData_eq w data ret with hstuck | ⟨k, sf, -, hk, heq⟩
  · rw [hstuck] at hres
    cases hres
  · obtain ⟨lastPacketTime, timestamp, hfields⟩ :=
      { d with sequesnceNumber := d.sequesnceNumber + 1 }.getNextTimestamp_fields (d.selectSubflow w).2
    change (d.numbered w).1 = _ at hfields
    dsimp only at heq
    generalize d.rtpDatagram sf (d.numbered w).1.timestamp data = pkt at heq
    rw [heq, hfields] at hres
    split at hres
    · cases hres
      exact countSent_lastSenderReportTime (by exact hcount) _ _ _
    · cases hres
      rfl

end SenderData

namespace Sender

open SenderData

/-- A report is sent after a packet only, and a poll leaves no report that is due. -/
def Punctual (sends : Prop) : SenderEvent → Prop
  | .sent _ out => out.rtcp = true → sends
  | .measure d curtime => sends → getSeconds curtime < getSeconds d.lastSenderReportTime + 5
  | _ => True

theorem keptByClock_scheduled {T : RtpTime} (hpos : 0 < T) (windows : Set (RtpTime × ℕ)) (sends : Prop) :
    KeptByClock T (fun _ => Punctual sends) (Scheduled windows sends) fun curtime L d w =>
      d.Scheduled windows sends L w ∧ (sends → getSeconds curtime < getSeconds d.lastSenderReportTime + 5) where
  leads := fun L d w w' hw h => h.leads hw
  same := fun L d d' w hs h => h.keep hs.reported hs.packetCount
  visit := fun L d w c h => ⟨trivial, h.log (reportCount_single rfl L)⟩
  report := by
    intro L d w curtime hT hw h
    unfold sendDueReport
    apply Exec.sat_ite
    · intro hdue
      rcases d.sendSenderReport_cases w with hstuck | ⟨k, sf, pkt, r, hs⟩
      · rw [hstuck]
        exact Exec.sat_stuck_nil
      · have hres : (d.sendSenderReport w).res = some r := by rw [hs.result]
        have hlast := sendSenderReport_time hres
        obtain ⟨hsends, hr⟩ := h.report (e := .sent k (Interface.sendto sf.iface pkt sf.remote true)) hdue hw
          (hpos.trans_le hT) hlast rfl
        rw [hs.result]
        refine Exec.sat_single (fun _ => hsends) ⟨hr.leads hs.leads, fun _ => ?_⟩
        have hle := getSeconds_mono hw.le_now
        rw [hlast]
        omega
    · intro hdue
      refine Exec.sat_pure ⟨h, fun hsends => ?_⟩
      have hne := h.begun.mpr hsends
      have hage := (not_and.mp hdue) hne
      dsimp only
      omega
  measure := by
    intro L d w curtime _ h
    obtain ⟨streamBitrate, sbSize, sbTime, hfields⟩ := d.measureStreamBitrate_fields curtime
    refine ⟨h.2, (h.1.log (reportCount_single rfl L)).keep ?_ ?_⟩
    · rw [hfields]
    · rw [hfields]
  recalc := fun L d w divisors h => ⟨trivial, h.log (reportCount_single rfl L)⟩

variable {isPathValid : Endpoint → Endpoint → Bool} {H : List ((Sender × Step) ⊕ SenderEvent)}

/-- The calls in a log, each with its reading of the clock and the number of sender reports before it. -/
def windowsOf (H : List ((Sender × Step) ⊕ SenderEvent)) : Set (RtpTime × ℕ) :=
  { p | ∃ m s e, H[m]? = some (.inl (s, e)) ∧ p = (s.world.now, reportCount (told (H.take m))) }

/-- A call in the log is one from before, or the one that is noted. -/
theorem call_of_noted {s s₀ : Sender} {e e₀ : Step} {L : List SenderEvent} {m : ℕ}
    (hm : (H ++ [.inl (s, e)] ++ L.map .inr)[m]? = some (.inl (s₀, e₀))) :
    m < H.length ∧ H[m]? = some (.inl (s₀, e₀)) ∨ m = H.length ∧ s₀ = s := by
  rw [List.append_assoc] at hm
  rcases lt_trichotomy m H.length with hlt | rfl | hlt
  · rw [List.getElem?_append_left hlt] at hm
    exact Or.inl ⟨hlt, hm⟩
  · rw [List.getElem?_append_right (le_refl _), Nat.sub_self] at hm
    cases hm
    exact Or.inr ⟨rfl, rfl⟩
  · obtain ⟨k, rfl⟩ := Nat.exists_eq_add_of_lt hlt
    rw [List.getElem?_append_right (by omega)] at hm
    have hk : H.length + k + 1 - H.length = k + 1 := by omega
    rw [hk, List.singleton_append, List.getElem?_cons_succ, List.getElem?_map] at hm
    obtain ⟨a, -, ha⟩ := Option.map_eq_some_iff.mp hm
    cases ha

theorem windowsOf_noted (H : List ((Sender × Step) ⊕ SenderEvent)) (s : Sender) (e : Step) (L : List SenderEvent) :
    windowsOf (H ++ [.inl (s, e)] ++ L.map .inr) ⊆
      insert (s.world.now, reportCount (told H)) (windowsOf H) := by
  rintro p ⟨m, s₀, e₀, hm, rfl⟩
  have hcall := call_of_noted hm
  rw [List.append_assoc]
  rcases hcall with ⟨hlt, hm⟩ | ⟨rfl, rfl⟩
  · rw [List.take_append_of_le_length hlt.le]
    exact Set.mem_insert_of_mem _ ⟨m, s₀, e₀, hm, rfl⟩
  · rw [List.take_left' rfl]
    exact Set.mem_insert _ _

/-- The schedule of a run. -/
structure OnSchedule (T : RtpTime) (H : List ((Sender × Step) ⊕ SenderEvent)) (s : Sender) : Prop where
  clock : s.world.From T
  schedule : s.obj.Scheduled (windowsOf H) (acceptedCalls H ≠ []) (told H) s.world

/-- What is logged keeps the schedule of the entries before it. -/
def KeepsSchedule (H : List ((Sender × Step) ⊕ SenderEvent)) : (Sender × Step) ⊕ SenderEvent → Prop
  | .inl (s, _) => (s.obj.packetCount ≠ 0 → acceptedCalls H ≠ []) ∧ s.obj.lastSenderReportTime ≤ s.world.now ∧
      ∀ m s₀ e₀, H[m]? = some (.inl (s₀, e₀)) →
        5 * (reportCount (told (H.drop m)) : ℤ) ≤ getSeconds s.world.now - getSeconds s₀.world.now + 5
  | .inr e => Punctual (acceptedCalls H ≠ []) e

theorem OnSchedule.window {T : RtpTime} {s : Sender} (h : OnSchedule T H s) (e : Step) :
    KeepsSchedule H (.inl (s, e)) := by
  refine ⟨h.schedule.counted, h.schedule.last.le_now, ?_⟩
  intro m s₀ e₀ hm
  obtain ⟨hfrom, hcount⟩ := h.schedule.window _ _ ⟨m, s₀, e₀, hm, rfl⟩
  have hsplit : reportCount (told H) = reportCount (told (H.take m)) + reportCount (told (H.drop m)) := by
    rw [← reportCount_append, ← told_append, List.take_append_drop]
  have hle := getSeconds_mono hfrom.le_now
  have hlast := getSeconds_mono h.schedule.last.le_now
  omega

/-- A call begins a window. -/
theorem OnSchedule.begin {T : RtpTime} {s : Sender} (h : OnSchedule T H s) :
    s.obj.Scheduled (insert (s.world.now, reportCount (told H)) (windowsOf H)) (acceptedCalls H ≠ []) (told H)
      s.world := by
  refine ⟨h.schedule.last, h.schedule.begun, h.schedule.counted, ?_⟩
  intro t n hmem
  rcases Set.mem_insert_iff.mp hmem with hnew | hmem
  · cases hnew
    exact ⟨h.clock.refl, Or.inl rfl⟩
  · exact h.schedule.window t n hmem

theorem step_sendData_scheduled {T : RtpTime} {windows : Set (RtpTime × ℕ)} {sends : Prop} {L : List SenderEvent}
    {s : Sender} (hpos : 0 < T) (hw : s.world.From T) (h : s.obj.Scheduled windows sends L s.world)
    (data : List UInt8) (ret : ℤ) :
    (step isPathValid s (.sendData data ret)).Sat (fun _ e => ∀ sends, Punctual sends e) L fun L' s' =>
      s'.obj.Scheduled windows (sends ∨ ret = (24 + data.length : ℕ)) L' s'.world ∧ s'.world.From T := by
  refine Exec.sat_bind (Q := fun L' p => p.2.obj.Scheduled windows (sends ∨ ret = (24 + data.length : ℕ)) L'
    p.2.world ∧ p.2.world.From T) ?_ fun _ _ h => Exec.sat_pure h
  refine Exec.sat_bind (Q := fun L' r => r.2.1.Scheduled windows (sends ∨ ret = (24 + data.length : ℕ)) L'
    r.2.2 ∧ r.2.2.From T) ?_ fun _ _ h => Exec.sat_pure h
  apply sendData_sat
  intro k sf timestamp r hs
  have hres : (s.obj.sendData s.world data ret).res = some r := by rw [hs.result]
  refine ⟨fun sends hrtcp => ?_, (h.sendData hw hpos hres).log (reportCount_single rfl L), hs.leads T hw⟩
  cases hrtcp

theorem noting_scheduled {T : RtpTime} {s : Sender} (hpos : 0 < T) (h : OnSchedule T H s) (e : Step) :
    (noting (step isPathValid) s e).Sat KeepsSchedule H (OnSchedule T) := by
  have hbegin := h.begin
  by_cases hdata : ∃ data ret, e = .sendData data ret
  · obtain ⟨data, ret, rfl⟩ := hdata
    refine Exec.sat_noting (h.window _) (step_sendData_scheduled hpos h.clock hbegin data ret) ?_ ?_
    · intro L a ha
      exact ha _
    · intro L s' hs'
      have haccepted : acceptedCalls (H ++ [.inl (s, .sendData data ret)] ++ L.map .inr) ≠ [] ↔
          acceptedCalls H ≠ [] ∨ ret = (24 + data.length : ℕ) := by
        rw [acceptedCalls_noted]
        dsimp only
        by_cases hret : ret = (24 + data.length : ℕ)
        · rw [if_pos hret]
          exact iff_of_true (List.append_ne_nil_of_right_ne_nil _ (List.cons_ne_nil _ _)) (Or.inr hret)
        · rw [if_neg hret, List.append_nil, or_iff_left hret]
      refine ⟨hs'.2, ?_⟩
      rw [haccepted, told_noted]
      exact hs'.1.mono (windowsOf_noted H s _ L)
  · have hsat := (keptByClock_scheduled hpos _ _).step (H := told H) isPathValid hbegin h.clock
      fun data ret he => hdata ⟨data, ret, he⟩
    have hsame : ∀ L : List SenderEvent,
        acceptedCalls (H ++ [.inl (s, e)] ++ L.map .inr) = acceptedCalls H := by
      intro L
      rw [acceptedCalls_noted]
      cases e with
      | sendData data ret => exact absurd ⟨data, ret, rfl⟩ hdata
      | _ => exact List.append_nil _
    refine Exec.sat_noting (h.window e) hsat ?_ ?_
    · intro L a ha
      change Punctual (acceptedCalls _ ≠ []) a
      rw [hsame]
      exact ha
    · intro L s' hs'
      refine ⟨hs'.2, ?_⟩
      rw [hsame, told_noted]
      exact hs'.1.mono (windowsOf_noted H s e L)

theorem run_scheduled {timestampUnit : ℚ} {w : World} {r : Option Sender} (hclock : StrictMono w.clock)
    (hpos : 0 < w.now)
    (hrun : Run (noting (step isPathValid)) (fun _ _ _ => True) (new timestampUnit w) H r) :
    ∀ n e, H[n]? = some e → KeepsSchedule (H.take n) e := by
  have hw : w.drawn.From w.now := ⟨hclock, le_refl _⟩
  have h₀ : OnSchedule w.now [] (new timestampUnit w) := by
    refine ⟨hw, ⟨hclock, hpos.le⟩, ?_, ?_, ?_⟩
    · exact iff_of_false (not_not.mpr rfl) (not_not.mpr rfl)
    · intro hcount
      exact absurd rfl hcount
    · rintro t n ⟨m, s, e, hm, -⟩
      cases hm
  intro n e hn
  exact Run.sat_getElem h₀ (fun _ _ e h _ => noting_scheduled hpos h e) hrun hn

/-- At a measurement, if there are still `n` reports, the time of the last one is still `t`. -/
def Untouched (n : ℕ) (t : RtpTime) (L : List SenderEvent) : SenderEvent → Prop
  | .measure d _ => reportCount L = n → d.lastSenderReportTime = t
  | _ => True

theorem keptByClock_untouched (T : RtpTime) (n : ℕ) (t : RtpTime) : KeptByClock T (Untouched n t)
    (fun L d _ => n ≤ reportCount L ∧ (reportCount L = n → d.lastSenderReportTime = t))
    fun _ L d _ => n ≤ reportCount L ∧ (reportCount L = n → d.lastSenderReportTime = t) where
  leads := fun L d w w' _ h => h
  same := fun L d d' w hs h => ⟨h.1, fun hn => hs.reported.trans (h.2 hn)⟩
  visit := fun L d w c h => ⟨trivial, by rwa [reportCount_single rfl L]⟩
  report := by
    intro L d w curtime _ _ h
    unfold sendDueReport
    apply Exec.sat_ite
    · intro _
      rcases d.sendSenderReport_cases w with hstuck | ⟨k, sf, pkt, r, hs⟩
      · rw [hstuck]
        exact Exec.sat_stuck_nil
      · rw [hs.result]
        have hmore : reportCount (L ++ [.sent k (Interface.sendto sf.iface pkt sf.remote true)]) =
            reportCount L + 1 := reportCount_append ..
        refine Exec.sat_single trivial ?_
        rw [hmore]
        refine ⟨by omega, fun hn => ?_⟩
        omega
    · exact fun _ => Exec.sat_pure h
  measure := by
    intro L d w curtime _ h
    obtain ⟨streamBitrate, sbSize, sbTime, hfields⟩ := d.measureStreamBitrate_fields curtime
    refine ⟨h.2, ?_⟩
    rw [reportCount_single rfl L, hfields]
    exact h
  recalc := fun L d w divisors h => ⟨trivial, by rwa [reportCount_single rfl L]⟩

/-- Once packets are counted, nothing but a report changes the time of the last one. -/
theorem step_untouched {T : RtpTime} {s : Sender} (hw : s.world.From T) (e : Step) (L : List SenderEvent) :
    (step isPathValid s e).Sat
      (fun L' a => s.obj.packetCount ≠ 0 → Untouched (reportCount L) s.obj.lastSenderReportTime L' a) L
      fun L' s' => s'.world.From T ∧ (s.obj.packetCount ≠ 0 → reportCount L' = reportCount L →
        s'.obj.lastSenderReportTime = s.obj.lastSenderReportTime) := by
  by_cases hdata : ∃ data ret, e = .sendData data ret
  · obtain ⟨data, ret, rfl⟩ := hdata
    refine Exec.sat_bind (Q := fun _ p => p.2.world.From T ∧ (s.obj.packetCount ≠ 0 →
      p.2.obj.lastSenderReportTime = s.obj.lastSenderReportTime)) ?_
      fun _ _ h => Exec.sat_pure ⟨h.1, fun hcount _ => h.2 hcount⟩
    refine Exec.sat_bind (Q := fun _ r => r.2.2.From T ∧ (s.obj.packetCount ≠ 0 →
      r.2.1.lastSenderReportTime = s.obj.lastSenderReportTime)) ?_ fun _ _ h => Exec.sat_pure h
    apply sendData_sat
    intro k sf timestamp r hs
    have hres : (s.obj.sendData s.world data ret).res = some r := by rw [hs.result]
    exact ⟨fun _ => trivial, hs.leads T hw, fun hcount => sendData_lastSenderReportTime hcount hres⟩
  · refine ((keptByClock_untouched T (reportCount L) s.obj.lastSenderReportTime).step isPathValid
      ⟨le_refl _, fun _ => rfl⟩ hw fun data ret he => hdata ⟨data, ret, he⟩).mono (fun _ _ h _ => h) ?_
    exact fun _ _ h => ⟨h.2, fun _ => h.1.2⟩

/-- The time `t` is that of the last report at each call from which on packets are counted and no report is
sent. -/
def LastSince (H : List ((Sender × Step) ⊕ SenderEvent)) (t : RtpTime) : Prop :=
  ∀ m s e, H[m]? = some (.inl (s, e)) → (∀ s' e', .inl (s', e') ∈ H.drop m → s'.obj.packetCount ≠ 0) →
    reportCount (told (H.drop m)) = 0 → t = s.obj.lastSenderReportTime

theorem LastSince.noted {s : Sender} {e : Step} (h : LastSince H s.obj.lastSenderReportTime) {L : List SenderEvent}
    {t : RtpTime}
    (hlast : s.obj.packetCount ≠ 0 → reportCount L = 0 → t = s.obj.lastSenderReportTime) :
    LastSince (H ++ [.inl (s, e)] ++ L.map .inr) t := by
  intro m s₀ e₀ hm hcounted hnone
  have hcall := call_of_noted hm
  have hle : m ≤ H.length := by
    rcases hcall with ⟨hlt, -⟩ | ⟨rfl, -⟩
    · exact hlt.le
    · exact le_refl _
  have hdrop : (H ++ [Sum.inl (s, e)] ++ L.map Sum.inr).drop m =
      H.drop m ++ [Sum.inl (s, e)] ++ L.map Sum.inr := by
    rw [List.append_assoc, List.drop_append_of_le_length hle, List.append_assoc]
  rw [hdrop] at hcounted hnone
  rw [told_noted, reportCount_append] at hnone
  have ht : t = s.obj.lastSenderReportTime := hlast (hcounted s e (by simp)) (by omega)
  rcases hcall with ⟨-, hget⟩ | ⟨-, rfl⟩
  · rw [ht]
    refine h m s₀ e₀ hget ?_ (by omega)
    intro s' e' hmem
    exact hcounted s' e' (List.mem_append_left _ (List.mem_append_left _ hmem))
  · exact ht

/-- A measurement finds the time of the last report as `LastSince` says. -/
def MeasuresSince (H : List ((Sender × Step) ⊕ SenderEvent)) : (Sender × Step) ⊕ SenderEvent → Prop
  | .inr (.measure d _) => LastSince H d.lastSenderReportTime
  | _ => True

theorem noting_lastSince {T : RtpTime} {s : Sender} (hw : s.world.From T)
    (h : LastSince H s.obj.lastSenderReportTime) (e : Step) : (noting (step isPathValid) s e).Sat MeasuresSince H
      fun H' s' => s'.world.From T ∧ LastSince H' s'.obj.lastSenderReportTime := by
  have hsame : ∀ L : List SenderEvent, reportCount L = 0 → reportCount (told H ++ L) = reportCount (told H) := by
    intro L hL
    rw [reportCount_append, hL, Nat.add_zero]
  refine Exec.sat_noting trivial (step_untouched hw e (told H)) ?_ ?_
  · intro L a ha
    cases a with
    | measure d curtime => exact h.noted fun hcount hL => ha hcount (hsame L hL)
    | _ => trivial
  · intro L s' hs'
    exact ⟨hs'.1, h.noted fun hcount hL => hs'.2 hcount (hsame L hL)⟩

theorem run_lastSince {timestampUnit : ℚ} {w : World} {r : Option Sender} (hclock : StrictMono w.clock)
    (hrun : Run (noting (step isPathValid)) (fun _ _ _ => True) (new timestampUnit w) H r) :
    ∀ n e, H[n]? = some e → MeasuresSince (H.take n) e := by
  have h₀ : (new timestampUnit w).world.From w.now ∧ LastSince [] (new timestampUnit w).obj.lastSenderReportTime :=
    ⟨⟨hclock, le_refl _⟩, fun m s e hm => by cases hm⟩
  intro n e hn
  exact Run.sat_getElem (I := fun H s => s.world.From w.now ∧ LastSince H s.obj.lastSenderReportTime) h₀
    (fun _ _ e h _ => noting_lastSince h.1 h.2 e) hrun hn

/-- In every run: between two calls of the application, at most one sender report more is sent than five
seconds fit in between; no report is sent before the socket has taken a packet; when a poll comes to its
measurement after that, the last report, or the first packet, is less than five seconds old; and so is each call
from which on packets are counted and no report is sent. -/
theorem senderReports_scheduled {timestampUnit : ℚ} {w : World} {r : Option Sender} (hclock : StrictMono w.clock)
    (hpos : 0 < w.now)
    (hrun : Run (noting (step isPathValid)) (fun _ _ _ => True) (new timestampUnit w) H r) :
    (∀ m n s e s' e', m < n → H[m]? = some (.inl (s, e)) → H[n]? = some (.inl (s', e')) →
      5 * (reportCount (told ((H.take n).drop m)) : ℤ) ≤
        getSeconds s'.world.now - getSeconds s.world.now + 5) ∧
    (∀ n k out, H[n]? = some (.inr (.sent k out)) → out.rtcp = true → acceptedCalls (H.take n) ≠ []) ∧
    (∀ n d curtime, H[n]? = some (.inr (.measure d curtime)) → acceptedCalls (H.take n) ≠ [] →
      getSeconds curtime < getSeconds d.lastSenderReportTime + 5) ∧
    ∀ m n s e d curtime, m < n → H[m]? = some (.inl (s, e)) → H[n]? = some (.inr (.measure d curtime)) →
      (∀ s' e', .inl (s', e') ∈ (H.take n).drop m → s'.obj.packetCount ≠ 0) →
      reportCount (told ((H.take n).drop m)) = 0 → getSeconds curtime < getSeconds s.world.now + 5 := by
  have hall := run_scheduled hclock hpos hrun
  have hmeasured : ∀ n d curtime, H[n]? = some (.inr (.measure d curtime)) → acceptedCalls (H.take n) ≠ [] →
      getSeconds curtime < getSeconds d.lastSenderReportTime + 5 := fun n _ _ hn => hall n _ hn
  refine ⟨?_, ?_, hmeasured, ?_⟩
  · intro m n s e s' e' hmn hm hn
    refine (hall n _ hn).2.2 m s e ?_
    rw [List.getElem?_take_of_lt hmn]
    exact hm
  · intro n k out hn hrtcp
    exact hall n _ hn hrtcp
  · intro m n s e d curtime hmn hm hn hcounted hnone
    have hm' : (H.take n)[m]? = some (.inl (s, e)) := by
      rw [List.getElem?_take_of_lt hmn]
      exact hm
    have hlast : d.lastSenderReportTime = s.obj.lastSenderReportTime :=
      run_lastSince hclock hrun n _ hn m s e hm' hcounted hnone
    obtain ⟨haccepted, hle, -⟩ := hall m _ hm
    have hcount : s.obj.packetCount ≠ 0 := hcounted s e (List.mem_of_getElem? (i := 0) (by simpa using hm'))
    have hsome : acceptedCalls (H.take n) ≠ [] := by
      intro hnil
      have hprefix : acceptedCalls (H.take m) <+: acceptedCalls (H.take n) :=
        (List.take_prefix_take_left hmn.le).filterMap _
      rw [hnil] at hprefix
      exact haccepted hcount (List.prefix_nil.mp hprefix)
    have hsoon := hmeasured n d curtime hn hsome
    have hmono := getSeconds_mono hle
    rw [hlast] at hsoon
    omega

/-- One path and one packet, and many polls after it. -/
def polledOften : List Step :=
  [.addInterface ⟨0x0A000001, 23000⟩ true, .connect 0xDEAD [⟨0x0A000002, 22000⟩], .sendData [65] 25] ++
    List.replicate 12 (.poll 10 fun _ _ => {})

def polledOftenLog : List ((Sender × Step) ⊕ SenderEvent) :=
  (polledOften.foldlM (noting (step fun _ _ => true)) (new 1 (.ticking 1000))).log

/-- Two reports from the first poll to the last one, twelve seconds later. -/
theorem polledOften_scheduled :
    (∃ s e s' e', polledOftenLog[4]? = some (.inl (s, e)) ∧ polledOftenLog[28]? = some (.inl (s', e')) ∧
      reportCount (told ((polledOftenLog.take 28).drop 4)) = 2 ∧
      5 * (2 : ℤ) ≤ getSeconds s'.world.now - getSeconds s.world.now + 5) ∧
    (∃ k out, polledOftenLog[11]? = some (.inr (.sent k out)) ∧ out.rtcp = true ∧
      acceptedCalls (polledOftenLog.take 11) ≠ []) ∧
    (∃ d curtime, polledOftenLog[12]? = some (.inr (.measure d curtime)) ∧
      getSeconds curtime < getSeconds d.lastSenderReportTime + 5) ∧
    ∃ s e d curtime, polledOftenLog[4]? = some (.inl (s, e)) ∧
      polledOftenLog[9]? = some (.inr (.measure d curtime)) ∧
      getSeconds curtime < getSeconds s.world.now + 5 := by
  have hrun : Run (noting (step fun _ _ => true)) (fun _ _ _ => True) (new 1 (.ticking 1000)) polledOftenLog _ :=
    Run.foldlM (new 1 (.ticking 1000)) polledOften
  have hpos : (0 : RtpTime) < (World.ticking 1000).now := by decide +kernel
  obtain ⟨hwindow, hreport, hpoll, hcall⟩ :=
    senderReports_scheduled (World.ticking_strictMono 1000) hpos hrun
  have hcalls : (polledOftenLog[4]?.bind Sum.getLeft?).isSome ∧ (polledOftenLog[28]?.bind Sum.getLeft?).isSome := by
    decide +kernel
  have hcount : reportCount (told ((polledOftenLog.take 28).drop 4)) = 2 := by decide +kernel
  have hsent : ∃ out ∈ (polledOftenLog[11]?.bind Sum.getRight?).bind SenderEvent.out?, out.rtcp = true := by
    decide +kernel
  have hmeasure : ((polledOftenLog[12]?.bind Sum.getRight?).bind SenderEvent.measure?).isSome := by decide +kernel
  have hearly : ((polledOftenLog[9]?.bind Sum.getRight?).bind SenderEvent.measure?).isSome := by decide +kernel
  have hcounted : ∀ p ∈ ((polledOftenLog.take 9).drop 4).filterMap Sum.getLeft?, p.1.obj.packetCount ≠ 0 := by
    decide +kernel
  have hnone : reportCount (told ((polledOftenLog.take 9).drop 4)) = 0 := by decide +kernel
  obtain ⟨⟨s, e⟩, hs⟩ := Option.isSome_iff_exists.mp hcalls.1
  obtain ⟨⟨s', e'⟩, hs'⟩ := Option.isSome_iff_exists.mp hcalls.2
  obtain ⟨x, hx, hxs⟩ := Option.bind_eq_some_iff.mp hs
  obtain ⟨y, hy, hys⟩ := Option.bind_eq_some_iff.mp hs'
  rw [Sum.getLeft?_eq_some_iff.mp hxs] at hx
  rw [Sum.getLeft?_eq_some_iff.mp hys] at hy
  refine ⟨?_, ?_, ?_, ?_⟩
  · have hle := hwindow 4 28 s e s' e' (by decide) hx hy
    rw [hcount] at hle
    exact ⟨s, e, s', e', hx, hy, hcount, hle⟩
  · obtain ⟨out, hout, hrtcp⟩ := hsent
    obtain ⟨e, he, heo⟩ := Option.bind_eq_some_iff.mp hout
    obtain ⟨x, hx, hxe⟩ := Option.bind_eq_some_iff.mp he
    rw [Sum.getRight?_eq_some_iff.mp hxe] at hx
    cases e with
    | sent k out' =>
      cases heo
      exact ⟨k, out, hx, hrtcp, hreport 11 k out hx hrtcp⟩
    | _ => cases heo
  · obtain ⟨⟨d, curtime⟩, hd⟩ := Option.isSome_iff_exists.mp hmeasure
    have hx := getElem?_of_measure hd
    have haccepted : acceptedCalls (polledOftenLog.take 12) ≠ [] := by
      have hlen : (acceptedCalls (polledOftenLog.take 12)).length = 1 := by decide +kernel
      exact List.ne_nil_of_length_eq_add_one hlen
    exact ⟨d, curtime, hx, hpoll 12 d curtime hx haccepted⟩
  · obtain ⟨⟨d, curtime⟩, hd⟩ := Option.isSome_iff_exists.mp hearly
    have hmeasured := getElem?_of_measure hd
    refine ⟨s, e, d, curtime, hx, hmeasured, hcall 4 9 s e d curtime (by decide) hx hmeasured ?_ hnone⟩
    intro s' e' hmem
    exact hcounted (s', e') (List.mem_filterMap.mpr ⟨_, hmem, rfl⟩)

end Sender

end Mprtp
