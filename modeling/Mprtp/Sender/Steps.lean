import Mprtp.Sender.History
import Mprtp.Session.Clock

/-! What each operation of a sender does to its subflows. -/
namespace Mprtp

/-- The clock goes on from `w` to `w'`. -/
def World.Leads (w w' : World) : Prop := ∀ U, w.From U → w'.From U

namespace World

theorem Leads.refl (w : World) : w.Leads w := fun _ h => h

theorem Leads.tick (w : World) : w.Leads w.tick := fun _ h => h.tick

theorem Leads.drawn (w : World) : w.Leads w.drawn := fun _ h => h.drawn

theorem Leads.trans {w₁ w₂ w₃ : World} (h : w₁.Leads w₂) (h' : w₂.Leads w₃) : w₁.Leads w₃ :=
  fun U hU => h' U (h U hU)

end World

namespace Subflow

theorem relax_leads (sf : Subflow) (w : World) : w.Leads (sf.relax w).2 := by
  unfold relax
  split
  · exact (World.Leads.tick w).trans (World.Leads.tick _)
  · exact .tick w

theorem measure_leads (sf : Subflow) (last pkt : RtcpRrPacket) (w : World) :
    w.Leads (sf.measure last pkt w).2 := by
  unfold measure
  dsimp only
  split
  · unfold withoutLoss
    dsimp only
    split
    · exact relax_leads _ w
    · exact .refl w
  · exact .tick w

theorem relax_numbers (sf : Subflow) (w : World) :
    (sf.relax w).1.subflowId = sf.subflowId ∧
      (sf.relax w).1.sequesnceNumber = sf.sequesnceNumber := by
  unfold relax
  split
  · exact ⟨rfl, rfl⟩
  · exact ⟨rfl, rfl⟩

/-- The bitrates are computed without a change of the numbering. -/
theorem measure_numbers (sf : Subflow) (last pkt : RtcpRrPacket) (w : World) :
    (sf.measure last pkt w).1.subflowId = sf.subflowId ∧
      (sf.measure last pkt w).1.sequesnceNumber = sf.sequesnceNumber := by
  unfold measure
  dsimp only
  split
  · unfold withoutLoss
    dsimp only
    split
    · exact relax_numbers _ w
    · exact ⟨rfl, rfl⟩
  · exact ⟨rfl, rfl⟩

/-- An RTP packet takes the next number, whether the socket sends it or not. -/
theorem sendto_numbers (sf : Subflow) (data : List UInt8) (len : UInt32) (ret : ℤ) :
    (sf.sendto data len false ret).2.subflowId = sf.subflowId ∧
      (sf.sendto data len false ret).2.sequesnceNumber = sf.sequesnceNumber + 1 ∧
      (sf.sendto data len false ret).2.lastReceiverReport = sf.lastReceiverReport := by
  unfold sendto
  dsimp only
  rw [if_neg (by decide)]
  split
  · exact ⟨rfl, rfl, rfl⟩
  · exact ⟨rfl, rfl, rfl⟩

end Subflow

/-- A report is stored at a subflow without looking at the bitrates. -/
structure SenderData.Stores (d : SenderData) (w : World) (pkt : RtcpRrPacket) (subflowId : UInt16)
    (k : ℕ) (sf : Subflow) : Prop where
  subflow : d.subflows[k]? = some sf
  id : sf.subflowId = subflowId
  notMeasured : d.measured? pkt subflowId = none
  result : d.onRtcpRrPacket w pkt subflowId =
    ({ d with subflows := d.subflows.set k (sf.store pkt), recalcDistribution := true }, w)

/-- A report makes the bitrates of a subflow be computed. -/
structure SenderData.Measures (d : SenderData) (w : World) (pkt : RtcpRrPacket)
    (subflowId : UInt16) (m : Measured) : Prop where
  report : m.pkt = pkt
  subflow : d.subflows[m.subflow]? = some m.sf
  id : m.sf.subflowId = subflowId
  last : m.sf.lastReceiverReport = some m.last
  sent : m.sf.packetCountTt ≠ 0
  measured : d.measured? pkt subflowId = some m
  result : d.onRtcpRrPacket w pkt subflowId =
    ({ d with
        subflows := d.subflows.set m.subflow ((m.sf.measure m.last pkt w).1.store pkt)
        recalcDistribution := true }, (m.sf.measure m.last pkt w).2)

/-- What `on_rtcp_rr_packet` can do. -/
theorem SenderData.onRtcpRrPacket_cases (d : SenderData) (w : World) (pkt : RtcpRrPacket)
    (subflowId : UInt16) :
    (d.onRtcpRrPacket w pkt subflowId = (d, w) ∧ d.measured? pkt subflowId = none) ∨
      (∃ k sf, d.Stores w pkt subflowId k sf) ∨ ∃ m, d.Measures w pkt subflowId m := by
  by_cases hid : subflowId = 0
  · refine Or.inl ⟨if_pos hid, ?_⟩
    simp [measured?, hid]
  cases hfind : d.subflows.findIdx? fun sf => sf.subflowId = subflowId with
  | none =>
    refine Or.inl ⟨?_, ?_⟩
    · unfold onRtcpRrPacket
      rw [if_neg hid, hfind]
    · simp [measured?, hfind]
  | some k =>
    obtain ⟨hlt, hk, -⟩ := List.findIdx?_eq_some_iff_getElem.mp hfind
    have hsf : d.subflows[k]? = some d.subflows[k] := List.getElem?_eq_getElem hlt
    generalize d.subflows[k] = sf at hk hsf
    have hid' : sf.subflowId = subflowId := by simpa using hk
    have hres : d.onRtcpRrPacket w pkt subflowId =
        ({ d with
            subflows := d.subflows.set k (sf.processRrPacket pkt w).1
            recalcDistribution := true }, (sf.processRrPacket pkt w).2) := by
      unfold onRtcpRrPacket
      rw [if_neg hid, hfind]
      dsimp only
      rw [hsf]
    cases hlast : sf.lastReceiverReport with
    | none =>
      refine Or.inr (Or.inl ⟨k, sf, hsf, hid', ?_, ?_⟩)
      · simp [measured?, hfind, hsf, hlast]
      · unfold Subflow.processRrPacket at hres
        rwa [hlast] at hres
    | some last =>
      unfold Subflow.processRrPacket at hres
      rw [hlast] at hres
      dsimp only at hres
      by_cases htt : sf.packetCountTt > 0
      · rw [if_pos htt] at hres
        refine Or.inr (Or.inr ⟨⟨k, sf, last, pkt⟩, rfl, hsf, hid', hlast, ?_, ?_, hres⟩)
        · exact fun h0 => absurd htt (by rw [h0]; decide)
        · simp [measured?, hid, hfind, hsf, hlast, htt, guard]
      · rw [if_neg htt] at hres
        refine Or.inr (Or.inl ⟨k, sf, hsf, hid', ?_, hres⟩)
        simp [measured?, hfind, hsf, hlast, htt, guard]

theorem Subflow.sendto_out (sf : Subflow) (data : List UInt8) (len : UInt32) (rtcp : Bool) (ret : ℤ) :
    (sf.sendto data len rtcp ret).1 = Interface.sendto sf.iface data sf.remote rtcp := by
  unfold sendto
  dsimp only
  split
  · rfl
  · split <;> rfl

namespace SenderData

/-! What each operation writes. -/

theorem onRtcpRrPacket_fields (d : SenderData) (w : World) (pkt : RtcpRrPacket) (id : UInt16) :
    ∃ subflows recalcDistribution,
      (d.onRtcpRrPacket w pkt id).1 = { d with subflows, recalcDistribution } := by
  rcases d.onRtcpRrPacket_cases w pkt id with ⟨hres, -⟩ | ⟨k, sf, hst⟩ | ⟨m, hms⟩
  · rw [hres]
    exact ⟨_, _, rfl⟩
  · rw [hst.result]
    exact ⟨_, _, rfl⟩
  · rw [hms.result]
    exact ⟨_, _, rfl⟩

theorem getNextTimestamp_fields (d : SenderData) (w : World) :
    ∃ lastPacketTime timestamp, (d.getNextTimestamp w).1 = { d with lastPacketTime, timestamp } := by
  unfold getNextTimestamp
  split <;> exact ⟨_, _, rfl⟩

theorem updateStreamBitrate_fields (d : SenderData) (size : UInt32) (w : World) :
    ∃ sbSize sbTime, (d.updateStreamBitrate size w).1 = { d with sbSize, sbTime } := by
  unfold updateStreamBitrate
  dsimp only
  split <;> exact ⟨_, _, rfl⟩

theorem countSent_fields (d : SenderData) (dataLen pktLen : ℕ) (w : World) :
    ∃ lastSenderReportTime sbSize sbTime, (d.countSent dataLen pktLen w).1 =
      { d with
        packetCount := d.packetCount + 1
        octetCount := d.octetCount + UInt32.ofNat dataLen
        lastSenderReportTime, sbSize, sbTime } := by
  unfold countSent updateStreamBitrate
  dsimp only
  split <;> split <;> exact ⟨_, _, _, rfl⟩

theorem measureStreamBitrate_fields (d : SenderData) (curtime : RtpTime) :
    ∃ streamBitrate sbSize sbTime,
      d.measureStreamBitrate curtime = { d with streamBitrate, sbSize, sbTime } := by
  unfold measureStreamBitrate
  split_ifs <;> exact ⟨_, _, _, rfl⟩

theorem onRtcpRrPacket_leads (d : SenderData) (w : World) (pkt : RtcpRrPacket) (id : UInt16) :
    w.Leads (d.onRtcpRrPacket w pkt id).2 := by
  rcases d.onRtcpRrPacket_cases w pkt id with ⟨hres, -⟩ | ⟨k, sf, hst⟩ | ⟨m, hms⟩
  · rw [hres]
    exact .refl w
  · rw [hst.result]
    exact .refl w
  · rw [hms.result]
    exact Subflow.measure_leads m.sf m.last pkt w

/-- The subflows, their stream bitrate and the SSRC are the same. -/
structure Unmoved (d d' : SenderData) : Prop where
  subflows : d'.subflows = d.subflows
  stream : d'.streamBitrate = d.streamBitrate
  ssrc : d'.ssrc = d.ssrc
  nextId : d'.nextSubflowId = d.nextSubflowId

theorem Unmoved.trans {d₁ d₂ d₃ : SenderData} (h : d₁.Unmoved d₂) (h' : d₂.Unmoved d₃) :
    d₁.Unmoved d₃ where
  subflows := h'.subflows.trans h.subflows
  stream := h'.stream.trans h.stream
  ssrc := h'.ssrc.trans h.ssrc
  nextId := h'.nextId.trans h.nextId

theorem selectSubflow_leads (d : SenderData) (w : World) : w.Leads (d.selectSubflow w).2 := by
  unfold selectSubflow
  dsimp only
  split <;> exact .drawn w

theorem getNextTimestamp_unmoved (d : SenderData) (w : World) :
    d.Unmoved (d.getNextTimestamp w).1 ∧ w.Leads (d.getNextTimestamp w).2 := by
  obtain ⟨lastPacketTime, timestamp, hfields⟩ := d.getNextTimestamp_fields w
  constructor
  · rw [hfields]
    exact ⟨rfl, rfl, rfl, rfl⟩
  · unfold getNextTimestamp
    split
    · exact (World.Leads.tick w).trans (.drawn _)
    · exact .tick w

theorem updateStreamBitrate_unmoved (d : SenderData) (size : UInt32) (w : World) :
    d.Unmoved (d.updateStreamBitrate size w).1 ∧ w.Leads (d.updateStreamBitrate size w).2 := by
  obtain ⟨sbSize, sbTime, hfields⟩ := d.updateStreamBitrate_fields size w
  constructor
  · rw [hfields]
    exact ⟨rfl, rfl, rfl, rfl⟩
  · unfold updateStreamBitrate
    dsimp only
    split
    · exact .tick w
    · exact .refl w

theorem countSent_unmoved (d : SenderData) (dataLen pktLen : ℕ) (w : World) :
    d.Unmoved (d.countSent dataLen pktLen w).1 ∧ w.Leads (d.countSent dataLen pktLen w).2 := by
  obtain ⟨lastSenderReportTime, sbSize, sbTime, hfields⟩ := d.countSent_fields dataLen pktLen w
  constructor
  · rw [hfields]
    exact ⟨rfl, rfl, rfl, rfl⟩
  · unfold countSent
    by_cases h0 : d.packetCount = 0
    · rw [if_pos h0]
      exact (World.Leads.tick w).trans (updateStreamBitrate_unmoved _ _ _).2
    · rw [if_neg h0]
      exact (updateStreamBitrate_unmoved _ _ _).2

/-- The subflow at an index is replaced. -/
abbrev put (d : SenderData) (k : ℕ) (sf : Subflow) : SenderData :=
  { d with subflows := d.subflows.set k sf }

theorem getElem?_put {d : SenderData} {k j : ℕ} {sf sf₁ : Subflow}
    (hj : (d.put k sf).subflows[j]? = some sf₁) :
    j = k ∧ sf₁ = sf ∨ j ≠ k ∧ d.subflows[j]? = some sf₁ := by
  dsimp only at hj
  by_cases hjk : k = j
  · subst hjk
    have hlt : k < d.subflows.length := by simpa using (List.getElem?_eq_some_iff.mp hj).1
    rw [List.getElem?_set_self hlt] at hj
    cases hj
    exact Or.inl ⟨rfl, rfl⟩
  · rw [List.getElem?_set_ne hjk] at hj
    exact Or.inr ⟨Ne.symm hjk, hj⟩

/-- The datagram that `send_data` sends on a subflow. -/
def rtpDatagram (d : SenderData) (sf : Subflow) (timestamp : UInt32) (data : List UInt8) :
    List UInt8 :=
  rtpBytes d.sequesnceNumber timestamp d.ssrc sf.subflowId sf.sequesnceNumber data

/-- `send_data` sends on the subflow `sf` at `k`. -/
structure Sends (d : SenderData) (w : World) (data : List UInt8) (ret : ℤ) (k : ℕ) (sf : Subflow)
    (timestamp : UInt32) (r : Bool × SenderData × World) : Prop where
  subflow : d.subflows[k]? = some sf
  result : d.sendData w data ret =
    ⟨[.sent k (Interface.sendto sf.iface (d.rtpDatagram sf timestamp data) sf.remote false)], some r⟩
  unmoved : (d.put k (sf.sendto (d.rtpDatagram sf timestamp data) (UInt32.ofNat data.length) false
    ret).2).Unmoved r.2.1
  leads : w.Leads r.2.2

theorem chosen_eq_some {d : SenderData} {chosen : Option ℕ} {k : ℕ} {sf : Subflow}
    (h : (chosen.bind fun k => d.subflows[k]?.map fun sf => (k, sf)) = some (k, sf)) :
    chosen = some k ∧ d.subflows[k]? = some sf := by
  obtain ⟨j, hchosen, hj⟩ := Option.bind_eq_some_iff.mp h
  obtain ⟨sf', hj', he⟩ := Option.map_eq_some_iff.mp hj
  cases he
  exact ⟨hchosen, hj'⟩

/-- The state in which `send_data` builds its datagram. -/
def numbered (d : SenderData) (w : World) : SenderData × World :=
  { d with sequesnceNumber := d.sequesnceNumber + 1 }.getNextTimestamp (d.selectSubflow w).2

theorem numbered_unmoved (d : SenderData) (w : World) :
    d.Unmoved (d.numbered w).1 ∧ w.Leads (d.numbered w).2 := by
  obtain ⟨hu, hl⟩ := { d with sequesnceNumber := d.sequesnceNumber + 1 }.getNextTimestamp_unmoved
    (d.selectSubflow w).2
  have hnext : d.Unmoved { d with sequesnceNumber := d.sequesnceNumber + 1 } := ⟨rfl, rfl, rfl, rfl⟩
  exact ⟨hnext.trans hu, (d.selectSubflow_leads w).trans hl⟩

/-- `send_data` in one piece: it sends the datagram on the chosen subflow, and counts it when the
socket takes all of it. -/
theorem sendData_of_chosen {d : SenderData} {w : World} {k : ℕ} {sf : Subflow}
    (hchosen : (d.selectSubflow w).1 = some k) (hsf : d.subflows[k]? = some sf) (data : List UInt8) (ret : ℤ) :
    let pkt := d.rtpDatagram sf (d.numbered w).1.timestamp data
    let d' := (d.numbered w).1.put k (sf.sendto pkt (UInt32.ofNat data.length) false ret).2
    d.sendData w data ret = ⟨[.sent k (Interface.sendto sf.iface pkt sf.remote false)],
      some (if ret = pkt.length then (true, d'.countSent data.length pkt.length (d.numbered w).2)
        else (false, d', (d.numbered w).2))⟩ := by
  have hssrc := (d.numbered_unmoved w).1.ssrc
  have hc : ((d.selectSubflow w).1.bind fun k => d.subflows[k]?.map fun sf => (k, sf)) = some (k, sf) := by
    rw [hchosen, Option.bind_some, hsf, Option.map_some]
  unfold numbered at hssrc ⊢
  unfold sendData
  dsimp only
  rw [hc]
  generalize { d with sequesnceNumber := d.sequesnceNumber + 1 }.getNextTimestamp
    (d.selectSubflow w).2 = r at hssrc ⊢
  obtain ⟨d₁, w₁⟩ := r
  dsimp only at hssrc ⊢
  have hpkt : rtpBytes d.sequesnceNumber d₁.timestamp d₁.ssrc sf.subflowId sf.sequesnceNumber data =
      d.rtpDatagram sf d₁.timestamp data := by
    rw [hssrc]
    rfl
  rw [hpkt, Subflow.sendto_out]
  split
  · rfl
  · rfl

theorem sendData_eq (d : SenderData) (w : World) (data : List UInt8) (ret : ℤ) :
    d.sendData w data ret = .stuck [] ∨ ∃ k sf, (d.selectSubflow w).1 = some k ∧
      d.subflows[k]? = some sf ∧
      let pkt := d.rtpDatagram sf (d.numbered w).1.timestamp data
      let d' := (d.numbered w).1.put k (sf.sendto pkt (UInt32.ofNat data.length) false ret).2
      d.sendData w data ret = ⟨[.sent k (Interface.sendto sf.iface pkt sf.remote false)],
        some (if ret = pkt.length then (true, d'.countSent data.length pkt.length (d.numbered w).2)
          else (false, d', (d.numbered w).2))⟩ := by
  cases hc : (d.selectSubflow w).1.bind fun k => d.subflows[k]?.map fun sf => (k, sf) with
  | none =>
    left
    unfold sendData
    dsimp only
    rw [hc]
  | some chosen =>
    obtain ⟨k, sf⟩ := chosen
    obtain ⟨hchosen, hsf⟩ := chosen_eq_some hc
    exact Or.inr ⟨k, sf, hchosen, hsf, sendData_of_chosen hchosen hsf data ret⟩

theorem sendData_cases (d : SenderData) (w : World) (data : List UInt8) (ret : ℤ) :
    d.sendData w data ret = .stuck [] ∨ ∃ k sf timestamp r, d.Sends w data ret k sf timestamp r := by
  rcases d.sendData_eq w data ret with hres | ⟨k, sf, -, hsf, hres⟩
  · exact Or.inl hres
  · right
    obtain ⟨hu, hl⟩ := d.numbered_unmoved w
    refine ⟨k, sf, (d.numbered w).1.timestamp, _, hsf, hres, ?_, ?_⟩
    · have hput : ∀ sf', (d.put k sf').Unmoved ((d.numbered w).1.put k sf') :=
        fun sf' => ⟨congrArg (List.set · k sf') hu.subflows, hu.stream, hu.ssrc, hu.nextId⟩
      split
      · exact (hput _).trans (countSent_unmoved _ _ _ _).1
      · exact hput _
    · split
      · exact hl.trans (countSent_unmoved _ _ _ _).2
      · exact hl

theorem selectFrom_lt {rnd : ℚ} {sfs : List Subflow} {p : ExtRat} {k j : ℕ} (h : selectFrom rnd sfs p k = some j) :
    j < k + sfs.length := by
  induction sfs generalizing p k with
  | nil => cases h
  | cons sf sfs ih =>
    unfold selectFrom at h
    dsimp only at h
    rw [List.length_cons]
    split at h
    · cases h
      omega
    · have hlt := ih h
      omega

/-- With a subflow there is one to select. -/
theorem selectSubflow_some {d : SenderData} (hne : d.subflows ≠ []) (w : World) :
    ∃ k sf, (d.selectSubflow w).1 = some k ∧ d.subflows[k]? = some sf := by
  have hpos : 0 < d.subflows.length := List.length_pos_of_ne_nil hne
  unfold selectSubflow
  dsimp only
  cases hfrom : selectFrom ((w.draw % 101 : ℕ) / 100) d.subflows 0 0 with
  | some k =>
    have hlt := selectFrom_lt hfrom
    rw [Nat.zero_add] at hlt
    exact ⟨k, _, rfl, List.getElem?_eq_getElem hlt⟩
  | none =>
    cases hsubflows : d.subflows with
    | nil => exact absurd hsubflows hne
    | cons sf sfs => exact ⟨0, sf, rfl, rfl⟩

/-- The report that `send_sender_report` builds, once the timestamp is set. -/
def reportBytes (d : SenderData) (ntp : RtpNtpTime) : List UInt8 :=
  d.makeSenderReport d.packetCount d.octetCount ntp ++ d.makeSubflowSenderReport ntp

/-- The state in which `send_sender_report` builds its report: the timestamp is set. -/
def stamped (d : SenderData) (w : World) : SenderData := (d.getNextTimestamp w).1

/-- The report that `send_sender_report` builds. -/
def builtReport (d : SenderData) (w : World) : List UInt8 :=
  (d.stamped w).reportBytes (getNtpTime (d.stamped w).lastPacketTime)

/-- `send_sender_report` in one piece: a report that fits goes to the chosen subflow, and nothing else keeps
the call from returning. -/
theorem sendSenderReport_stuck_or (d : SenderData) (w : World) :
    (d.sendSenderReport w = .stuck [] ∧ ((d.builtReport w).length ≤ maxPacketSize →
      ∀ k sf, ((d.stamped w).selectSubflow (d.getNextTimestamp w).2).1 = some k → d.subflows[k]? ≠ some sf)) ∨
    ∃ k sf,
      ((d.stamped w).selectSubflow (d.getNextTimestamp w).2).1 = some k ∧
      d.subflows[k]? = some sf ∧ (d.builtReport w).length ≤ maxPacketSize ∧
      let w' := ((d.stamped w).selectSubflow (d.getNextTimestamp w).2).2
      let r := (d.stamped w).updateStreamBitrate (UInt32.ofNat (d.builtReport w).length) w'
      d.sendSenderReport w = ⟨[.sent k (Interface.sendto sf.iface (d.builtReport w) sf.remote true)],
        some ({ r.1 with lastSenderReportTime := r.1.lastPacketTime }, r.2)⟩ := by
  have hsubflows : (d.stamped w).subflows = d.subflows := (d.getNextTimestamp_unmoved w).1.subflows
  by_cases hlen : maxPacketSize < (d.builtReport w).length
  · left
    refine ⟨?_, fun hfits => absurd hlen (not_lt.mpr hfits)⟩
    change (if maxPacketSize < (d.builtReport w).length then Exec.stuck [] else _) = _
    rw [if_pos hlen]
  · unfold builtReport stamped at hlen ⊢
    unfold stamped at hsubflows
    unfold sendSenderReport
    generalize d.getNextTimestamp w = r at hlen hsubflows ⊢
    obtain ⟨d₁, w₁⟩ := r
    dsimp only at hlen hsubflows ⊢
    have hpkt : d₁.makeSenderReport d₁.packetCount d₁.octetCount (getNtpTime d₁.lastPacketTime) ++
        d₁.makeSubflowSenderReport (getNtpTime d₁.lastPacketTime) =
          d₁.reportBytes (getNtpTime d₁.lastPacketTime) := rfl
    rw [hpkt, if_neg hlen]
    cases hc : (d₁.selectSubflow w₁).1.bind fun k => d₁.subflows[k]?.map fun sf => (k, sf) with
    | none =>
      left
      refine ⟨rfl, ?_⟩
      intro _ k sf hchosen hsf
      rw [hchosen, Option.bind_some, hsubflows, hsf] at hc
      cases hc
    | some chosen =>
      obtain ⟨k, sf⟩ := chosen
      obtain ⟨hchosen, hsf⟩ := chosen_eq_some hc
      rw [hsubflows] at hsf
      exact Or.inr ⟨k, sf, hchosen, hsf, not_lt.mp hlen, rfl⟩

theorem sendSenderReport_eq (d : SenderData) (w : World) :
    d.sendSenderReport w = .stuck [] ∨ ∃ k sf,
      ((d.stamped w).selectSubflow (d.getNextTimestamp w).2).1 = some k ∧
      d.subflows[k]? = some sf ∧ (d.builtReport w).length ≤ maxPacketSize ∧
      let w' := ((d.stamped w).selectSubflow (d.getNextTimestamp w).2).2
      let r := (d.stamped w).updateStreamBitrate (UInt32.ofNat (d.builtReport w).length) w'
      d.sendSenderReport w = ⟨[.sent k (Interface.sendto sf.iface (d.builtReport w) sf.remote true)],
        some ({ r.1 with lastSenderReportTime := r.1.lastPacketTime }, r.2)⟩ :=
  (d.sendSenderReport_stuck_or w).imp_left And.left

/-- With a subflow and a report that fits, `send_sender_report` sends the report and returns. -/
theorem sendSenderReport_of_fits {d : SenderData} {w : World} (hne : d.subflows ≠ [])
    (hfits : (d.builtReport w).length ≤ maxPacketSize) : ∃ k sf r, d.subflows[k]? = some sf ∧
      d.sendSenderReport w = ⟨[.sent k (Interface.sendto sf.iface (d.builtReport w) sf.remote true)], some r⟩ := by
  have hsubflows : (d.stamped w).subflows = d.subflows := (d.getNextTimestamp_unmoved w).1.subflows
  rw [← hsubflows] at hne
  obtain ⟨k, sf, hchosen, hsf⟩ := selectSubflow_some hne (d.getNextTimestamp w).2
  rw [hsubflows] at hsf
  rcases d.sendSenderReport_stuck_or w with ⟨-, hnone⟩ | ⟨k', sf', -, hsf', -, hres⟩
  · exact absurd hsf (hnone hfits k sf hchosen)
  · exact ⟨k', sf', _, hsf', hres⟩

/-- `send_sender_report` sends on the subflow `sf` at `k`. -/
structure SendsReport (d : SenderData) (w : World) (k : ℕ) (sf : Subflow) (pkt : List UInt8)
    (r : SenderData × World) : Prop where
  subflow : d.subflows[k]? = some sf
  bytes : ∃ d' ntp, d.Unmoved d' ∧ pkt = d'.makeSenderReport d'.packetCount d'.octetCount ntp ++
    d'.makeSubflowSenderReport ntp
  result : d.sendSenderReport w =
    ⟨[.sent k (Interface.sendto sf.iface pkt sf.remote true)], some r⟩
  unmoved : d.Unmoved r.1
  leads : w.Leads r.2

theorem sendSenderReport_cases (d : SenderData) (w : World) :
    d.sendSenderReport w = .stuck [] ∨ ∃ k sf pkt r, d.SendsReport w k sf pkt r := by
  rcases d.sendSenderReport_eq w with hres | ⟨k, sf, -, hsf, -, hres⟩
  · exact Or.inl hres
  · right
    obtain ⟨hu₁, hl₁⟩ := d.getNextTimestamp_unmoved w
    have hl₂ := (d.stamped w).selectSubflow_leads (d.getNextTimestamp w).2
    obtain ⟨hu₃, hl₃⟩ := (d.stamped w).updateStreamBitrate_unmoved
      (UInt32.ofNat (d.builtReport w).length) ((d.stamped w).selectSubflow (d.getNextTimestamp w).2).2
    have hu : d.Unmoved (d.stamped w) := hu₁
    refine ⟨k, sf, d.builtReport w, _, hsf, ⟨d.stamped w, _, hu, rfl⟩, hres, ?_, ?_⟩
    · exact hu.trans (hu₃.trans ⟨rfl, rfl, rfl, rfl⟩)
    · exact (hl₁.trans hl₂).trans hl₃

/-- A sender report is due at the time `curtime`. -/
def ReportDue (d : SenderData) (curtime : RtpTime) : Prop :=
  d.lastSenderReportTime ≠ 0 ∧ getSeconds curtime - getSeconds d.lastSenderReportTime ≥ 5

instance (d : SenderData) (curtime : RtpTime) : Decidable (d.ReportDue curtime) :=
  inferInstanceAs (Decidable (_ ∧ _))

end SenderData

/-- A subflow more, as `connect` makes it. -/
def SenderData.addSubflow (d : SenderData) (iface : ℕ) (remote : Endpoint) (w : World) : SenderData :=
  { d with
    subflows := d.subflows ++ [(Subflow.new d.nextSubflowId iface remote w).1]
    nextSubflowId := d.nextSubflowId + 1 }

/-- The rule for the loops of `connect`. -/
theorem Sender.connectPaths_rule {I : SenderData → World → Prop}
    (hadd : ∀ d w iface remote, I d w → I (d.addSubflow iface remote w) w.drawn)
    (isPathValid : Endpoint → Endpoint → Bool) (interfaces : List Interface)
    (pairs : List (ℕ × Endpoint)) {d : SenderData} {w : World} (h : I d w) :
    I (connectPaths isPathValid interfaces pairs d w).1
      (connectPaths isPathValid interfaces pairs d w).2 := by
  induction pairs generalizing d w with
  | nil => exact h
  | cons pair pairs ih =>
    obtain ⟨i, addr⟩ := pair
    unfold connectPaths
    cases interfaces[i]? with
    | none => exact ih h
    | some iface =>
      dsimp only
      split
      · exact ih (hadd d w i addr h)
      · exact ih h

theorem Sender.connect_queues (isPathValid : Endpoint → Endpoint → Bool) (s : Sender) (ssrc : UInt32)
    (destination : List Endpoint) : (s.connect isPathValid ssrc destination).2.interfaces = s.interfaces ∧
      (s.connect isPathValid ssrc destination).2.packets = s.packets := by
  unfold connect
  split
  · exact ⟨rfl, rfl⟩
  · exact ⟨rfl, rfl⟩

end Mprtp
