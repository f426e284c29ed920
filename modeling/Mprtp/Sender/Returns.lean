import Mprtp.Sender.Reports
import Mprtp.Sender.Rules
import Mprtp.Session.Returns

/-! When the calls of a sender return. -/
namespace Mprtp

namespace SenderData

variable {d : SenderData}

theorem ne_nil_of_getElem? {sfs : List Subflow} {k : ℕ} {sf : Subflow} (h : sfs[k]? = some sf) : sfs ≠ [] :=
  List.ne_nil_of_mem (List.mem_of_getElem? h)

theorem sendData_ends_iff (d : SenderData) (w : World) (data : List UInt8) (ret : ℤ) :
    (d.sendData w data ret).Ends ↔ d.subflows ≠ [] := by
  constructor
  · intro hends
    rcases d.sendData_eq w data ret with hstuck | ⟨k, sf, -, hsf, -⟩
    · rw [hstuck] at hends
      exact absurd hends (Exec.not_ends_stuck _)
    · exact ne_nil_of_getElem? hsf
  · intro hne
    obtain ⟨k, sf, hchosen, hsf⟩ := selectSubflow_some hne w
    rw [sendData_of_chosen hchosen hsf]
    exact ⟨_, rfl⟩

/-- A report needs a subflow to go to, and fits its buffer for 2046 subflows. -/
theorem sendSenderReport_ends_iff (d : SenderData) (w : World) :
    (d.sendSenderReport w).Ends ↔ d.subflows ≠ [] ∧ d.subflows.length ≤ 2046 := by
  have hsubflows : (d.stamped w).subflows = d.subflows := (d.getNextTimestamp_unmoved w).1.subflows
  have hlength : (d.builtReport w).length = 40 + 32 * d.subflows.length := by
    unfold builtReport
    rw [reportBytes_length, hsubflows]
  have hfits : (d.builtReport w).length ≤ maxPacketSize ↔ d.subflows.length ≤ 2046 := by
    rw [hlength]
    unfold maxPacketSize
    omega
  constructor
  · intro hends
    rcases d.sendSenderReport_eq w with hstuck | ⟨k, sf, -, hsf, hlen, -⟩
    · rw [hstuck] at hends
      exact absurd hends (Exec.not_ends_stuck _)
    · exact ⟨ne_nil_of_getElem? hsf, hfits.mp hlen⟩
  · intro hboth
    obtain ⟨hne, hcount⟩ := hboth
    obtain ⟨k, sf, r, -, hres⟩ := sendSenderReport_of_fits hne (hfits.mpr hcount)
    rw [hres]
    exact ⟨r, rfl⟩

theorem redistribute_ends (d : SenderData) : d.redistribute.Ends := by
  unfold redistribute
  split
  · exact Exec.ends_pure _
  · exact ⟨_, rfl⟩

theorem length_put (d : SenderData) (k : ℕ) (sf : Subflow) : (d.put k sf).subflows.length = d.subflows.length :=
  List.length_set ..

/-- Receiver reports change neither the number of the subflows nor when the next sender report is due. -/
theorem onRtcpRrPacket_due (d : SenderData) (w : World) (pkt : RtcpRrPacket) (id : UInt16) :
    (d.onRtcpRrPacket w pkt id).1.subflows.length = d.subflows.length ∧
      (d.onRtcpRrPacket w pkt id).1.lastSenderReportTime = d.lastSenderReportTime := by
  rcases d.onRtcpRrPacket_cases w pkt id with ⟨hres, -⟩ | ⟨k, sf, hst⟩ | ⟨m, hms⟩
  · rw [hres]
    exact ⟨rfl, rfl⟩
  · rw [hst.result]
    exact ⟨length_put .., rfl⟩
  · rw [hms.result]
    exact ⟨length_put .., rfl⟩

theorem sendDueReport_of_due {curtime : RtpTime} (hdue : d.ReportDue curtime) (w : World) :
    d.sendDueReport curtime w = d.sendSenderReport w := if_pos hdue

theorem sendDueReport_of_not_due {curtime : RtpTime} (hdue : ¬ d.ReportDue curtime) (w : World) :
    d.sendDueReport curtime w = pure (d, w) := if_neg hdue

/-- A report is due only once there is a subflow. -/
def ReportsOnSubflow (d : SenderData) : Prop := d.lastSenderReportTime ≠ 0 → d.subflows ≠ []

theorem ReportsOnSubflow.same {d' : SenderData} (h : d.ReportsOnSubflow)
    (hlength : d'.subflows.length = d.subflows.length) (htime : d'.lastSenderReportTime = d.lastSenderReportTime) :
    d'.ReportsOnSubflow := by
  intro hne hnil
  rw [htime] at hne
  rw [hnil] at hlength
  exact h hne (List.length_eq_zero_iff.mp hlength.symm)

theorem reportsOnSubflow_of_length {k : ℕ} {sf : Subflow} {d' : SenderData} (hk : d.subflows[k]? = some sf)
    (hlength : d'.subflows.length = d.subflows.length) : d'.ReportsOnSubflow := by
  intro _ hnil
  rw [hnil] at hlength
  exact ne_nil_of_getElem? hk (List.length_eq_zero_iff.mp hlength.symm)

end SenderData

namespace Sender

open SenderData

theorem keptByData_reports : KeptByData (fun _ => True) (fun _ _ => True) fun _ d => d.ReportsOnSubflow where
  rr := by
    intro H d w raw fuel pkt id ssrc i _ _ h
    obtain ⟨hlength, htime⟩ := d.onRtcpRrPacket_due w pkt id
    exact ⟨trivial, h.same hlength htime⟩
  visit := fun _ _ _ _ h => ⟨trivial, h⟩
  sends := by
    intro H d w data ret k sf timestamp r hs _
    refine ⟨trivial, reportsOnSubflow_of_length hs.subflow ?_⟩
    rw [hs.unmoved.subflows, length_put]
  sendsReport := by
    intro H d w k sf pkt r hs _
    refine ⟨trivial, reportsOnSubflow_of_length hs.subflow ?_⟩
    rw [hs.unmoved.subflows]
  measure := by
    intro H d curtime h
    refine ⟨trivial, h.same ?_ ?_⟩
    all_goals
      unfold measureStreamBitrate
      split_ifs <;> rfl
  recalc := fun H d sfs hsfs h => ⟨trivial, h.same hsfs.length_eq.symm rfl⟩
  connect := fun H d ssrc destAddr h => h
  addSubflow := by
    intro H d iface remote w _ _
    exact List.append_ne_nil_of_right_ne_nil _ (List.cons_ne_nil _ _)

variable {isPathValid : Endpoint → Endpoint → Bool} {s : Sender}

theorem session_due (s : Sender) (fuel : ℕ) (io : PollInput) {s' : Sender} {status : ℤ}
    (h : (Session.poll senderHandlers fuel io s).res = some (s', status)) :
    s'.obj.subflows.length = s.obj.subflows.length ∧
      s'.obj.lastSenderReportTime = s.obj.lastSenderReportTime := by
  have hbrings : io.Brings fun _ => True := fun _ _ _ _ => trivial
  have hkeeps : ∀ f ∈ s.interfaces, f.Keeps fun _ => True := fun _ _ _ _ => trivial
  have hsat : (Session.poll senderHandlers fuel io s).Sat (fun _ _ => True) [] fun _ r =>
      (r.1.obj.subflows.length = s.obj.subflows.length ∧
        r.1.obj.lastSenderReportTime = s.obj.lastSenderReportTime) ∧ ∀ f ∈ r.1.interfaces, f.Keeps fun _ => True := by
    refine session_sat (J := fun _ d => d.subflows.length = s.obj.subflows.length ∧
      d.lastSenderReportTime = s.obj.lastSenderReportTime) ?_ ?_ ⟨rfl, rfl⟩ hkeeps fuel hbrings
    · intro H d w raw fuel pkt id ssrc i _ _ hd
      obtain ⟨hlength, htime⟩ := d.onRtcpRrPacket_due w pkt id
      exact ⟨trivial, hlength.trans hd.1, htime.trans hd.2⟩
    · exact fun _ _ _ _ hd => ⟨trivial, hd⟩
  exact (hsat.2 _ h).1

theorem poll_ends_iff (h : s.obj.ReportsOnSubflow) (fuel : ℕ) (io : PollInput) : (poll fuel io s).Ends ↔
    (Session.poll senderHandlers fuel io s).Ends ∧
      ∀ s' status, (Session.poll senderHandlers fuel io s).res = some (s', status) →
        s'.obj.ReportDue s'.world.now → s.obj.subflows.length ≤ 2046 := by
  have hreport : ∀ s' status, (Session.poll senderHandlers fuel io s).res = some (s', status) →
      ((s'.obj.sendDueReport s'.world.now s'.world.tick).Ends ↔
        (s'.obj.ReportDue s'.world.now → s.obj.subflows.length ≤ 2046)) := by
    intro s' status hres
    obtain ⟨hlength, htime⟩ := session_due s fuel io hres
    by_cases hdue : s'.obj.ReportDue s'.world.now
    · rw [sendDueReport_of_due hdue, sendSenderReport_ends_iff, hlength, forall_prop_of_true hdue]
      exact and_iff_right ((h.same hlength htime) hdue.1)
    · rw [sendDueReport_of_not_due hdue]
      exact iff_of_true (Exec.ends_pure _) fun habsurd => absurd habsurd hdue
  unfold poll
  constructor
  · intro hpoll
    obtain ⟨⟨s', status⟩, hres, hpoll⟩ := Exec.ends_bind_iff.mp hpoll
    obtain ⟨p, hp, -⟩ := Exec.ends_bind_iff.mp hpoll
    refine ⟨⟨_, hres⟩, ?_⟩
    intro s'' status' hres'
    rw [hres] at hres'
    cases hres'
    exact (hreport s' status hres).mp ⟨p, hp⟩
  · intro hboth
    obtain ⟨⟨⟨s', status⟩, hres⟩, hfits⟩ := hboth
    obtain ⟨p, hp⟩ := (hreport s' status hres).mpr (hfits s' status hres)
    refine Exec.ends_bind_iff.mpr ⟨_, hres, Exec.ends_bind_iff.mpr ⟨p, hp, ?_⟩⟩
    obtain ⟨d, w⟩ := p
    refine Exec.ends_bind_iff.mpr ⟨(), rfl, ?_⟩
    obtain ⟨d', hd'⟩ := redistribute_ends (d.measureStreamBitrate s'.world.now)
    exact Exec.ends_bind_iff.mpr ⟨d', hd', Exec.ends_pure _⟩

/-- What a poll needs to return: no datagram that it has received, unless an interface has ended it, has an empty
block, and there are not more subflows than a report holds, if one is due when the datagrams have been handled. -/
def PollReturns (s : Sender) (io : PollInput) : Prop :=
  let (fs, _, status) := Session.pollInterfaces io 0 s.interfaces s.world
  (0 ≤ status → ∀ f ∈ fs, ∀ pkt ∈ f.packets, pkt.NoEmptyBlock) ∧
    ∀ fuel s' status, (Session.poll senderHandlers fuel io s).res = some (s', status) →
      s'.obj.ReportDue s'.world.now → s.obj.subflows.length ≤ 2046

/-- In every run, for the call that comes next: `send_data` returns exactly when there is a subflow, and a poll
exactly when it has no datagram with an empty block to walk through and no report to send on more than 2046
subflows. -/
theorem returns_iff {timestampUnit : ℚ} {w : World} {H : List SenderEvent}
    (hrun : Run (step isPathValid) (fun _ _ _ => True) (new timestampUnit w) H (some s)) :
    (∀ data ret, (step isPathValid s (.sendData data ret)).Ends ↔ s.obj.subflows ≠ []) ∧
      ∀ io, (∃ fuel, (step isPathValid s (.poll fuel io)).Ends) ↔ PollReturns s io := by
  have hreports : s.obj.ReportsOnSubflow := by
    refine keptByData_reports.run ?_ hrun
    intro hne
    exact absurd rfl hne
  constructor
  · intro data ret
    rw [← s.obj.sendData_ends_iff s.world data ret]
    constructor
    · intro hends
      obtain ⟨_, hres, -⟩ := Exec.ends_bind_iff.mp hends
      obtain ⟨p, hp, -⟩ := Exec.ends_bind_iff.mp ⟨_, hres⟩
      exact ⟨p, hp⟩
    · intro hends
      obtain ⟨p, hp⟩ := hends
      have hsend : (sendData s data ret).Ends := Exec.ends_bind_iff.mpr ⟨p, hp, Exec.ends_pure _⟩
      obtain ⟨p', hp'⟩ := hsend
      exact Exec.ends_bind_iff.mpr ⟨p', hp', Exec.ends_pure _⟩
  · intro io
    have hsession : (∃ fuel, (Session.poll senderHandlers fuel io s).Ends) ↔ _ := Session.exists_poll_ends_iff rfl
    unfold PollReturns
    dsimp only
    rw [← hsession]
    constructor
    · intro hends
      obtain ⟨fuel, hends⟩ := hends
      obtain ⟨hpolled, hfits⟩ := (poll_ends_iff hreports fuel io).mp hends
      refine ⟨⟨fuel, hpolled⟩, ?_⟩
      intro fuel' s' status hres
      -- both amounts of fuel lead where the larger one does
      have hres' : (Session.poll senderHandlers (max fuel fuel') io s).res = some (s', status) := by
        rw [Session.poll_eq_of_ends (le_max_right fuel fuel') ⟨_, hres⟩]
        exact hres
      rw [Session.poll_eq_of_ends (le_max_left fuel fuel') hpolled] at hres'
      exact hfits s' status hres'
    · intro hboth
      obtain ⟨⟨fuel, hpolled⟩, hfits⟩ := hboth
      exact ⟨fuel, (poll_ends_iff hreports fuel io).mpr ⟨hpolled, hfits fuel⟩⟩

/-- A sender with one path. -/
def onePath : List Step := [.addInterface ⟨0x0A000001, 23000⟩ true, .connect 7 [⟨0x0A000002, 22000⟩]]

/-- An RTCP datagram from its receiver. -/
def fromReceiver (data : List UInt8) : PollInput := .arrive true ⟨0x0A000002, 22001⟩ [data]

/-- Once a sender has been connected it can send, and poll a report without blocks but not an empty block. -/
theorem connected_returns : ∃ s, (onePath.foldlM (step fun _ _ => true) (new 1 (.ticking 1000))).res = some s ∧
    (step (fun _ _ => true) s (.sendData [65] 25)).Ends ∧
    (∃ fuel, (step (fun _ _ => true) s (.poll fuel (fromReceiver [0x80, 201, 0, 1, 0, 0, 0, 1]))).Ends) ∧
    ¬ ∃ fuel, (step (fun _ _ => true) s (.poll fuel (fromReceiver emptyBlockPacket.data))).Ends := by
  have hsome : ∃ s ∈ (onePath.foldlM (step fun _ _ => true) (new 1 (.ticking 1000))).res,
      s.obj.subflows.length = 1 ∧
      (∀ f ∈ (Session.pollInterfaces (fromReceiver [0x80, 201, 0, 1, 0, 0, 0, 1]) 0 s.interfaces s.world).1,
        ∀ pkt ∈ f.packets, pkt.isrtcp = true → (pkt.rtcpCalls 9).2 = true) ∧
      0 ≤ (Session.pollInterfaces (fromReceiver emptyBlockPacket.data) 0 s.interfaces s.world).2.2 ∧
      ∃ f ∈ (Session.pollInterfaces (fromReceiver emptyBlockPacket.data) 0 s.interfaces s.world).1,
        ∃ pkt ∈ f.packets, pkt.isrtcp = true ∧ 0 < pkt.dataLen ∧ pkt.mem 1 = rtcpTypeMprtp ∧
          12 < 0 + packetBytes pkt.mem 0 ∧ blockBytes pkt.mem 12 = 0 := by decide +kernel
  have hrun : Run (step fun _ _ => true) (fun _ _ _ => True) _ _ _ := Run.foldlM (new 1 (.ticking 1000)) onePath
  obtain ⟨s, hs, hlength, hwalked, hstatus, f, hf, pkt, hpkt, hrtcp, hlen, htype, hfirst, hempty⟩ := hsome
  rw [hs] at hrun
  obtain ⟨hsend, hpoll⟩ := returns_iff hrun
  refine ⟨s, hs, (hsend [65] 25).mpr ?_, (hpoll _).mpr ⟨?_, ?_⟩, ?_⟩
  · intro hnil
    rw [hnil] at hlength
    cases hlength
  · intro _ f hf pkt hpkt
    exact (RawPacket.exists_walked_iff pkt).mp ⟨9, hwalked f hf pkt hpkt⟩
  · intro _ _ _ _ _
    omega
  · intro hends
    obtain ⟨hno, -⟩ := (hpoll _).mp hends
    exact hno hstatus f hf pkt hpkt hrtcp 0 (.first hlen) ⟨htype, 12, .first hfirst, hempty⟩

end Sender

end Mprtp
