import Mprtp.Receiver.Rules
import Mprtp.Sender.Rules
import Mprtp.System.Delivery

/-! The runs of a sender, a receiver and the network between them: when the packet count of
`process_rr_packet` is one of packets that were sent. -/
namespace Mprtp

open Subflow

/-- The report is about the SSRC of the last one, it is not behind it, and it is not the first to
tell of received data. -/
def Measured.InOrder (m : Measured) : Prop :=
  m.last.ssrc = m.pkt.ssrc ∧ m.last.exthighseqnr ≤ m.pkt.exthighseqnr ∧
    (m.last.exthighseqnr = 0 → m.pkt.exthighseqnr = 0)

instance (m : Measured) : Decidable m.InOrder := inferInstanceAs (Decidable (_ ∧ _ ∧ (_ → _)))

namespace SystemEvent

/-- The report that makes the sender compute bitrates. -/
def measured? : SystemEvent → Option Measured
  | .sender e => e.measured?
  | .receiver _ => none

/-- No RTP packet is handled behind a wrap of its numbers, and no report that makes bitrates be
computed comes out of order, at a sender with an id for each of its subflows. -/
def InOrder : SystemEvent → Prop
  | .receiver (.visit r (.rtp pkt _)) =>
    ¬ (r.statAt pkt.ssrc pkt.subflowId).Late pkt.subflowSequenceNumber
  | .sender (.visit d (.rtcp (.rr pkt subflowId _) _)) =>
    d.subflows.length ≤ 65535 ∧ ∀ m ∈ d.measured? pkt subflowId, m.InOrder
  | _ => True

instance : DecidablePred InOrder
  | .receiver (.visit r (.rtp pkt _)) =>
    inferInstanceAs (Decidable (¬ (r.statAt pkt.ssrc pkt.subflowId).Late pkt.subflowSequenceNumber))
  | .sender (.visit d (.rtcp (.rr pkt subflowId _) _)) =>
    inferInstanceAs (Decidable (d.subflows.length ≤ 65535 ∧ ∀ m ∈ d.measured? pkt subflowId, m.InOrder))
  | .receiver (.visit _ (.rtcp _ _)) => isTrue trivial
  | .receiver (.poll _) => isTrue trivial
  | .receiver (.report _ _ _) => isTrue trivial
  | .receiver (.sent _ _) => isTrue trivial
  | .receiver (.fetched _) => isTrue trivial
  | .sender (.visit _ (.rtp _ _)) => isTrue trivial
  | .sender (.visit _ (.rtcp (.sr _ _) _)) => isTrue trivial
  | .sender (.sent _ _) => isTrue trivial
  | .sender (.measure _ _) => isTrue trivial
  | .sender (.recalc _ _) => isTrue trivial

end SystemEvent

/-- Few packets on each subflow, few subflows, and nothing out of order. -/
structure Calm (H : List SystemEvent) (d : SenderData) : Prop where
  few : ∀ k, sentOn k H < 2 ^ 15
  subflows : d.subflows.length ≤ 65535
  inOrder : ∀ e ∈ H, e.InOrder

theorem Calm.before {H : List SystemEvent} {e : SystemEvent} {d d' : SenderData}
    (h : Calm (H ++ [e]) d') (hlen : d.subflows.length ≤ d'.subflows.length) : Calm H d where
  few := by
    intro k
    have hk := h.few k
    rw [sentOn_concat] at hk
    omega
  subflows := hlen.trans h.subflows
  inOrder := fun e' he' => h.inOrder e' (by simp [he'])

/-- What an entry of the log says about the packet count of `process_rr_packet`. -/
def CountTold (H : List SystemEvent) : SystemEvent → Prop
  | .sender e => ∀ m, e.measured? = some m → (∀ k, sentOn k H < 2 ^ 15) →
    (∀ e' ∈ H ++ [.sender e], e'.InOrder) → (hsnDiff m.last m.pkt).toNat ≤ sentOn m.subflow H
  | .receiver _ => True

theorem countTold_of_not_measured {H : List SystemEvent} {e : SenderEvent} (h : e.measured? = none) :
    CountTold H (.sender e) := by
  intro m hm
  rw [h] at hm
  cases hm

/-- The data is that of one of the datagrams sent. -/
def Among (sent : List OutDatagram) (data : List UInt8) : Prop :=
  data.length ≤ maxUdpPayload ∧ ∃ out ∈ sent, out.data = data

theorem Among.mono {sent sent' : List OutDatagram} {data : List UInt8} (h : Among sent data)
    (hs : ∀ out ∈ sent, out ∈ sent') : Among sent' data := by
  obtain ⟨hlen, out, hout, hdata⟩ := h
  exact ⟨hlen, out, hs out hout, hdata⟩

/-- A datagram that the network delivers is not cut. -/
theorem Delivers.brings {sent : List OutDatagram} {io : PollInput} (h : Delivers sent io) :
    io.Brings (Among sent) := by
  intro i rtcp a ha
  obtain ⟨hlen, out, hout, hdata⟩ := h i rtcp a ha
  have htake : a.data.take maxPacketSize = a.data := by
    apply List.take_of_length_le
    unfold maxUdpPayload at hlen
    unfold maxPacketSize
    omega
  rw [htake]
  exact ⟨hlen, out, hout, hdata⟩

namespace Numbering

variable {H : List SystemEvent} {d : SenderData} {r : ReceiverData}

/-- The packet count of a report that comes in order. -/
theorem hsnDiff_le (h : Numbering H d r) {k : ℕ} {sf : Subflow}
    {last pkt : RtcpRrPacket} (hk : d.subflows[k]? = some sf)
    (hlast : Reported H last.ssrc sf.subflowId last.exthighseqnr)
    (hpkt : Reported H pkt.ssrc sf.subflowId pkt.exthighseqnr) (hssrc : last.ssrc = pkt.ssrc)
    (hle : last.exthighseqnr ≤ pkt.exthighseqnr)
    (h0 : last.exthighseqnr = 0 → pkt.exthighseqnr = 0) :
    (hsnDiff last pkt).toNat ≤ sentOn k H := by
  unfold hsnDiff
  rw [← hssrc] at hpkt
  cases h.flow last.ssrc sf.subflowId with
  | quiet hq =>
    rw [hq.told _ hlast, hq.told _ hpkt]
    simp
  | counted j sf' count high hj hid hc =>
    by_cases hz : last.exthighseqnr = 0
    · rw [hz, h0 hz]
      simp
    · obtain rfl : j = k := h.idsInOrder.index_unique hj hk hid
      exact (hc.told_sub_lt hlast hpkt hz hle).le

/-- A report in a datagram of the receiver tells a number that was reported. -/
theorem reported_of_call (h : Numbering H d r) {raw : RawPacket} {fuel : ℕ} {pkt : RtcpRrPacket}
    {id : UInt16} {s : UInt32} (hraw : Among (sentByReceiver H) raw.data) (hid : id ≠ 0)
    (hc : .rr pkt id s ∈ (raw.rtcpCalls fuel).1) : Reported H pkt.ssrc id pkt.exthighseqnr := by
  obtain ⟨hlen, out, hout, hdata⟩ := hraw
  obtain ⟨ssrc, hmem⟩ := mem_sentByReceiver.mp hout
  obtain ⟨src, w, hsrc, hbytes⟩ := h.compound ssrc out hmem
  have hlen' : raw.data.length < 65536 := by
    unfold maxUdpPayload at hlen
    omega
  obtain ⟨pkt', id', s', he, hsub⟩ := Source.rtcpCalls_buildReport (hdata.symm.trans hbytes) hlen' hc
  cases he
  obtain ⟨sf, hsf, hid', w', rfl⟩ := hsub hid
  exact ⟨src, hsrc, rfl, sf, hsf, hid', rfl⟩

/-- A report that makes bitrates be computed, in order. -/
theorem measures_le (h : Numbering H d r) {w : World} {pkt : RtcpRrPacket} {id : UInt16}
    {m : Measured} (hm : d.Measures w pkt id m) (hrep : Reported H pkt.ssrc id pkt.exthighseqnr)
    (ho : m.InOrder) : (hsnDiff m.last m.pkt).toNat ≤ sentOn m.subflow H := by
  obtain ⟨hssrc, hle, h0⟩ := ho
  have hlast := h.last m.sf (List.mem_of_getElem? hm.subflow) m.last hm.last
  rw [← hm.id, ← hm.report] at hrep
  exact h.hsnDiff_le hm.subflow hlast hrep hssrc hle h0

/-- A receiver report is handled. -/
theorem onRtcpRrPacket (h : Numbering H d r) {pkt : RtcpRrPacket} {id : UInt16}
    (hrep : id ≠ 0 → Reported H pkt.ssrc id pkt.exthighseqnr) (w : World) (s : UInt32) (i : ℕ) :
    Numbering (H ++ [.sender (.visit d (.rtcp (.rr pkt id s) i))]) (d.onRtcpRrPacket w pkt id).1 r := by
  have ht : Numbering (H ++ [.sender (.visit d (.rtcp (.rr pkt id s) i))]) d r :=
    h.tell rfl fun _ _ he => by cases he
  rcases d.onRtcpRrPacket_cases w pkt id with ⟨hres, -⟩ | ⟨k, sf, hst⟩ | ⟨m, hms⟩
  · rw [hres]
    exact ht
  · have hrep' := hrep (hst.id ▸ h.idsInOrder.id_ne_zero hst.subflow)
    rw [← hst.id] at hrep'
    have hs : Numbering _ (d.put k (sf.store pkt)) r :=
      ht.stored hst.subflow rfl rfl rfl (hrep'.mono _)
    rw [hst.result]
    exact hs.congr rfl rfl
  · have hrep' := hrep (hms.id ▸ h.idsInOrder.id_ne_zero hms.subflow)
    rw [← hms.id] at hrep'
    obtain ⟨hsf, hseq⟩ := m.sf.measure_numbers m.last pkt w
    have hs : Numbering _ (d.put m.subflow ((m.sf.measure m.last pkt w).1.store pkt)) r :=
      ht.stored hms.subflow hsf hseq rfl (hrep'.mono _)
    rw [hms.result]
    exact hs.congr rfl rfl

end Numbering

namespace System

section

variable {H₀ : List SystemEvent}

/-- What one end's log adds to the log of the system. -/
theorem map_concat {ω : Type} (f : ω → SystemEvent) (L : List ω) (e : ω) :
    H₀ ++ (L ++ [e]).map f = H₀ ++ L.map f ++ [f e] := by
  rw [List.map_append, List.append_assoc]
  rfl

theorem sentByReceiver_map_sender (L : List SenderEvent) :
    sentByReceiver (H₀ ++ L.map .sender) = sentByReceiver H₀ := by
  unfold sentByReceiver
  rw [List.filterMap_append, List.filterMap_map]
  simp [Function.comp_def, SystemEvent.byReceiver?]

theorem sentBySender_map_receiver (L : List ReceiverEvent) :
    sentBySender (H₀ ++ L.map .receiver) = sentBySender H₀ := by
  unfold sentBySender
  rw [List.filterMap_append, List.filterMap_map]
  simp [Function.comp_def, SystemEvent.bySender?]

/-- One entry more: what the numbering has to keep when the run so far was calm. -/
theorem numbering_concat {ω : Type} {f : ω → SystemEvent} {L : List ω} {e : ω} {d d' : SenderData}
    {r r' : ReceiverData} (hI : Calm (H₀ ++ L.map f) d → Numbering (H₀ ++ L.map f) d r)
    (hlen : d.subflows.length ≤ d'.subflows.length)
    (hnext : Calm (H₀ ++ L.map f) d → (f e).InOrder → Numbering (H₀ ++ L.map f) d r →
      Numbering (H₀ ++ L.map f ++ [f e]) d' r')
    (hcalm : Calm (H₀ ++ (L ++ [e]).map f) d') : Numbering (H₀ ++ (L ++ [e]).map f) d' r' := by
  rw [map_concat] at hcalm ⊢
  have hbefore := hcalm.before hlen
  exact hnext hbefore (hcalm.inOrder (f e) (by simp)) (hI hbefore)

/-- What the sender does keeps the numbering. -/
theorem keptBySender (H₀ : List SystemEvent) (r : ReceiverData) :
    Sender.KeptByData (Among (sentByReceiver H₀))
      (fun L e => CountTold (H₀ ++ L.map .sender) (.sender e))
      (fun L d => Calm (H₀ ++ L.map .sender) d → Numbering (H₀ ++ L.map .sender) d r) where
  rr := by
    intro L d w raw fuel pkt id ssrc i hraw hcall hI
    rw [← sentByReceiver_map_sender L] at hraw
    have hlen := (SenderData.SameNumbers.onRtcpRrPacket d w pkt id).length.ge
    refine ⟨?_, numbering_concat hI hlen fun _ _ hnum => ?_⟩
    · intro m hm few order
      have hin : SystemEvent.InOrder (.sender (.visit d (.rtcp (.rr pkt id ssrc) i))) :=
        order _ (List.mem_append_right _ (List.mem_singleton.mpr rfl))
      have hcalm : Calm (H₀ ++ L.map .sender) d :=
        ⟨few, hin.1, fun e he => order e (List.mem_append_left _ he)⟩
      have hnum := hI hcalm
      rcases d.onRtcpRrPacket_cases w pkt id with ⟨-, hnone⟩ | ⟨k, sf, hst⟩ | ⟨m', hms⟩
      · exact absurd (hnone.symm.trans hm) (by simp)
      · exact absurd (hst.notMeasured.symm.trans hm) (by simp)
      · have hmm : some m' = some m := hms.measured.symm.trans hm
        cases hmm
        have hid : id ≠ 0 := hms.id ▸ hnum.idsInOrder.id_ne_zero hms.subflow
        exact hnum.measures_le hms (hnum.reported_of_call hraw hid hcall) (hin.2 m hms.measured)
    · exact hnum.onRtcpRrPacket (fun hid => hnum.reported_of_call hraw hid hcall) w ssrc i
  visit := by
    intro L d c hc hI
    have hnone : SenderEvent.measured? (.visit d c) = none := by
      cases c with
      | rtp pkt j => rfl
      | rtcp call j =>
        cases call with
        | sr pkt id => rfl
        | rr pkt id ssrc => exact absurd rfl (hc pkt id ssrc j)
    refine ⟨countTold_of_not_measured hnone, numbering_concat hI le_rfl fun _ _ hnum => ?_⟩
    exact hnum.tell rfl fun _ _ he => by cases he
  sends := by
    intro L d w data ret k sf timestamp res hs hI
    obtain ⟨hid, hseq, hlast⟩ :=
      sf.sendto_numbers (d.rtpDatagram sf timestamp data) (UInt32.ofNat data.length) ret
    have hlen : d.subflows.length ≤ res.2.1.subflows.length := by
      rw [hs.unmoved.subflows, List.length_set]
    refine ⟨countTold_of_not_measured rfl, numbering_concat hI hlen fun hcalm _ hnum => ?_⟩
    refine Numbering.congr ?_ hs.unmoved.subflows hs.unmoved.nextId
    exact hnum.sent hs.subflow hid hseq hlast rfl rfl (hcalm.few k)
  sendsReport := by
    intro L d w k sf pkt res hs hI
    have hlen : d.subflows.length ≤ res.1.subflows.length := by rw [hs.unmoved.subflows]
    refine ⟨countTold_of_not_measured rfl, numbering_concat hI hlen fun _ _ hnum => ?_⟩
    refine Numbering.congr ?_ hs.unmoved.subflows hs.unmoved.nextId
    apply hnum.tell rfl
    intro _ _ h
    cases h
    obtain ⟨d', ntp, -, hbytes⟩ := hs.bytes
    change pkt[1]? = _
    rw [hbytes]
    rfl
  measure := by
    intro L d curtime hI
    obtain ⟨hsf, hnext⟩ := d.measureStreamBitrate_numbers curtime
    have hlen : d.subflows.length ≤ (d.measureStreamBitrate curtime).subflows.length := by rw [hsf]
    refine ⟨countTold_of_not_measured rfl, numbering_concat hI hlen fun _ _ hnum => ?_⟩
    refine Numbering.congr ?_ hsf hnext
    exact hnum.tell rfl fun _ _ he => by cases he
  recalc := by
    intro L d sfs hsfs hI
    refine ⟨countTold_of_not_measured rfl,
      numbering_concat hI hsfs.length_eq.le fun _ _ hnum => ?_⟩
    refine Numbering.reweighted ?_ hsfs false
    exact hnum.tell rfl fun _ _ he => by cases he
  connect := by
    intro L d ssrc destAddr hI hcalm
    exact (hI ⟨hcalm.few, hcalm.subflows, hcalm.inOrder⟩).congr rfl rfl
  addSubflow := by
    intro L d iface remote w hI hcalm
    have hlen : d.subflows.length < 65535 := by
      have hlen' := hcalm.subflows
      unfold SenderData.addSubflow at hlen'
      rw [List.length_append, List.length_singleton] at hlen'
      omega
    exact (hI ⟨hcalm.few, hlen.le, hcalm.inOrder⟩).addSubflow hlen iface remote w

/-- A step of the receiver keeps the numbering. -/
theorem keptByReceiver (H₀ : List SystemEvent) (d : SenderData) :
    Receiver.KeptBySteps (Among (sentBySender H₀))
      (fun L e => CountTold (H₀ ++ L.map .receiver) (.receiver e))
      (fun L r _ => Calm (H₀ ++ L.map .receiver) d → Numbering (H₀ ++ L.map .receiver) d r) where
  rtp := by
    intro L r packets w raw pkt i hraw hparse hI
    refine ⟨trivial, numbering_concat hI le_rfl fun hcalm hlate hnum => ?_⟩
    rw [← sentBySender_map_receiver L] at hraw
    obtain ⟨-, out, hout, hdata⟩ := hraw
    exact hnum.onRtpPacket hcalm.few hout hdata hparse hlate w i
  sr := by
    intro L r packets w pkt id i hI
    refine ⟨trivial, numbering_concat hI le_rfl fun _ _ hnum => ?_⟩
    obtain ⟨M, hM⟩ := hnum.follows
    exact hnum.visit _ ⟨_, hM.onRtcpSrPacket w pkt id i⟩
      (ReceiverData.onRtcpSrPacket_stat hM.ordered w pkt id i)
  rr := by
    intro L r packets pkt id ssrc i hI
    refine ⟨trivial, numbering_concat hI le_rfl fun _ _ hnum => ?_⟩
    exact hnum.visit _ hnum.follows fun _ _ => rfl
  poll := by
    intro L r packets src hsrc hI
    refine ⟨trivial, numbering_concat hI le_rfl fun hcalm _ hnum => ?_⟩
    exact hnum.poll hcalm.few hsrc
  report := by
    intro L r packets src w hsrc hpoll hI
    refine ⟨trivial, numbering_concat hI le_rfl fun _ _ hnum => hnum.idle ?_ ?_⟩
    · intro src' he
      cases he
    · intro ssrc out he
      cases he
  sent := by
    intro L r packets src w sf out hsrc hpoll hsf hout hI
    refine ⟨trivial, numbering_concat hI le_rfl fun _ _ hnum => hnum.idle ?_ ?_⟩
    · intro src' he
      cases he
    · intro ssrc out' he
      cases he
      exact ⟨src, w, List.mem_append_right _ (List.mem_map_of_mem hpoll), by rw [hout]; rfl⟩
  polled := by
    intro L r packets srcs hs hI hcalm
    exact (hI hcalm).polled hs
  fetched := by
    intro L r pkt packets hI
    refine ⟨trivial, numbering_concat hI le_rfl fun _ _ hnum => hnum.idle ?_ ?_⟩
    · intro src' he
      cases he
    · intro ssrc out he
      cases he

end

/-- The invariant of the two ends. -/
structure Invariant (H : List SystemEvent) (s : System) : Prop where
  numbering : Calm H s.sender.obj → Numbering H s.sender.obj s.receiver.obj
  toSender : ∀ f ∈ s.sender.interfaces, f.Keeps (Among (sentByReceiver H))
  toReceiver : ∀ f ∈ s.receiver.interfaces, f.Keeps (Among (sentBySender H))

theorem step_sat {H : List SystemEvent} {s : System} (isPathValid : Endpoint → Endpoint → Bool)
    (h : Invariant H s) {e : Step} (hnet : Network H s e) :
    (step isPathValid s e).Sat CountTold H Invariant := by
  obtain ⟨hnum, hs, hr⟩ := h
  cases e with
  | sender e =>
    have hmeets : e.Meets (PollInput.Brings (Among (sentByReceiver H))) := by
      cases e with
      | poll fuel io => exact Delivers.brings hnet
      | _ => trivial
    apply Exec.sat_bind (Q := fun H' s' => Invariant H' { s with sender := s' })
    · apply Exec.sat_mapLog
      have hkept := (keptBySender H s.receiver.obj).steps.step (H := []) isPathValid
        ⟨by simpa using hnum, hs⟩ hmeets
      refine hkept.mono (fun _ _ hg => hg) ?_
      intro L s' hx
      obtain ⟨hnum', hs'⟩ := hx
      refine ⟨hnum', ?_, ?_⟩
      · rw [sentByReceiver_map_sender]
        exact hs'
      · intro f hf raw hraw
        refine (hr f hf raw hraw).mono fun out hout => ?_
        unfold sentBySender at hout ⊢
        rw [List.filterMap_append]
        exact List.mem_append_left _ hout
    · intro H' s' h'
      exact Exec.sat_pure h'
  | receiver e =>
    have hbrings : e.Brings (Among (sentBySender H)) := by
      cases e with
      | poll fuel io => exact Delivers.brings hnet
      | _ => trivial
    apply Exec.sat_bind (Q := fun H' r' => Invariant H' { s with receiver := r' })
    · apply Exec.sat_mapLog
      have hkept := (keptByReceiver H s.sender.obj).step (H := [])
        (by simpa using hnum) hr hbrings
      refine hkept.mono (fun _ _ hg => hg) ?_
      intro L r' hx
      obtain ⟨hnum', hr'⟩ := hx
      refine ⟨hnum', ?_, ?_⟩
      · intro f hf raw hraw
        refine (hs f hf raw hraw).mono fun out hout => ?_
        unfold sentByReceiver at hout ⊢
        rw [List.filterMap_append]
        exact List.mem_append_left _ hout
      · rw [sentBySender_map_receiver]
        exact hr'
    · intro H' r' h'
      exact Exec.sat_pure h'

theorem invariant_new (senderUnit receiverUnit : ℚ) (ssrc : UInt32) (w w' : World) :
    Invariant [] (new senderUnit receiverUnit ssrc w w') where
  numbering := by
    intro _
    have hstat : ∀ (ssrc' : UInt32) (id : UInt16),
        (new senderUnit receiverUnit ssrc w w').receiver.obj.statAt ssrc' id = {} := fun _ _ => rfl
    refine ⟨?_, rfl, ⟨[], .nil, ?_, fun _ _ => rfl⟩, ?_, ?_, ?_, ?_⟩
    · intro k sf hk
      cases hk
    · intro src hsrc
      cases hsrc
    · intro k out hmem
      cases hmem
    · intro ssrc out hmem
      cases hmem
    · intro sf hsf
      cases hsf
    · intro ssrc' id
      refine .quiet ⟨?_, ?_, ?_, ?_⟩
      · rw [hstat]
      · rw [hstat]
      · rw [hstat]
      · intro x h
        obtain ⟨src, hmem, -⟩ := h
        cases hmem
  toSender := by
    intro f hf
    cases hf
  toReceiver := by
    intro f hf
    cases hf

/-- As long as the sockets take every packet and nothing has come out of order: whenever a report makes
bitrates be computed, the packet count is at most the number of RTP packets sent on the subflow. A packet
whose `sendto` fails takes a number too, and the count is one of numbers. -/
theorem hsnDiff_le_sentOn {isPathValid : Endpoint → Endpoint → Bool} {senderUnit receiverUnit : ℚ}
    {ssrc : UInt32} {w w' : World} {H : List SystemEvent} {r : Option System}
    (hrun : Run (step isPathValid) (fun H s e => Network H s e ∧ e.Succeeds)
      (new senderUnit receiverUnit ssrc w w') H r) {n : ℕ}
    {e : SenderEvent} {m : Measured} (hn : H[n]? = some (.sender e)) (hm : e.measured? = some m)
    (few : ∀ k, sentOn k (H.take n) < 2 ^ 15)
    (order : ∀ e' ∈ H.take (n + 1), e'.InOrder) :
    (hsnDiff m.last m.pkt).toNat ≤ sentOn m.subflow (H.take n) := by
  have htold : CountTold (H.take n) (.sender e) :=
    Run.sat_getElem (invariant_new senderUnit receiverUnit ssrc w w')
      (fun _ _ _ h hok => step_sat isPathValid h hok.1) hrun hn
  apply htold m hm few
  rw [List.take_add_one, hn] at order
  exact order

/-- The datagram sent as number `n`, unless that is still to come or is too long. -/
def pick (sent : List OutDatagram) (n : ℕ) : List (List UInt8) :=
  ((sent[n]?.filter fun out => out.data.length ≤ maxUdpPayload).map OutDatagram.data).toList

theorem delivers_pick (sent : List OutDatagram) (n : ℕ) (rtcp : Bool) (addr : Endpoint) :
    Delivers sent (.arrive rtcp addr (pick sent n)) := by
  intro i b a ha
  unfold PollInput.arrive at ha
  split at ha
  · obtain ⟨data, hdata, he⟩ := List.mem_map.mp ha
    cases he
    unfold pick at hdata
    rw [Option.mem_toList, Option.map_eq_some_iff] at hdata
    obtain ⟨out, hout, rfl⟩ := hdata
    obtain ⟨hget, hlen⟩ := Option.filter_eq_some_iff.mp hout
    exact ⟨by simpa using hlen, out, List.mem_of_getElem? hget, rfl⟩
  · cases ha

/-- The receiver polls and receives a datagram of the sender. -/
def toReceiver (rtcp : Bool) (n : ℕ) (H : List SystemEvent) : Step :=
  .receiver (.poll 10 (.arrive rtcp ⟨0x0A000001, 23000⟩ (pick (sentBySender H) n)))

/-- The sender polls and receives a report. -/
def toSender (n : ℕ) (H : List SystemEvent) : Step :=
  .sender (.poll 10 (.arrive true ⟨0x0A000002, 22001⟩ (pick (sentByReceiver H) n)))

/-- One path and two packets, with a report after each. The receiver polls for datagram `first`
before the first report. -/
def twoReports (first : ℕ) : List (List SystemEvent → Step) :=
  [fun _ => .sender (.addInterface ⟨0x0A000001, 23000⟩ true),
    fun _ => .sender (.connect 0xDEAD [⟨0x0A000002, 22000⟩]),
    fun _ => .receiver (.addInterface ⟨0x0A000002, 22000⟩ true),
    fun _ => .sender (.sendData [65] 25), toReceiver false first,
    toSender 0, toReceiver true 1, toSender 0,
    fun _ => .sender (.sendData [66] 25), toReceiver false 3,
    toSender 1, toReceiver true 4, toSender 1]

theorem twoReports_network (first : ℕ) :
    ∀ choose ∈ twoReports first, ∀ H s, Network H s (choose H) ∧ (choose H).Succeeds := by
  have hsender : ∀ n H s, Network H s (toSender n H) ∧ (toSender n H).Succeeds :=
    fun n H _ => ⟨delivers_pick _ n true _, trivial⟩
  have hreceiver : ∀ rtcp n H s, Network H s (toReceiver rtcp n H) ∧ (toReceiver rtcp n H).Succeeds :=
    fun rtcp n H _ => ⟨delivers_pick _ n rtcp _, trivial⟩
  have htrivial : ∀ (H : List SystemEvent) (s : System), True ∧ True := fun _ _ => ⟨trivial, trivial⟩
  have hdata : ∀ (H : List SystemEvent) (s : System), True ∧ (25 : ℤ) = 24 + (1 : ℕ) :=
    fun _ _ => ⟨trivial, rfl⟩
  unfold twoReports
  simp only [List.forall_mem_cons, List.not_mem_nil, false_implies, implies_true, and_true]
  exact ⟨htrivial, htrivial, htrivial, hdata, hreceiver false first, hsender 0, hreceiver true 1,
    hsender 0, hdata, hreceiver false 3, hsender 1, hreceiver true 4, hsender 1⟩

/-- A clock that goes on by five seconds with each reading, and draws that are all the same. -/
def drawing (draw : ℕ) : World := ⟨fun n => 1000 + 5 * n, fun _ => draw, 0⟩

/-- The log for a numbering that starts at the number drawn. -/
def twoReportsLog (draw first : ℕ) : List SystemEvent :=
  (afterChoices (step fun _ _ => true) (new 1 1 0xBEEF (drawing draw) (drawing 0))
    (twoReports first)).1

theorem eq_sender_of_measured? {e : SystemEvent} {m : Measured} (h : e.measured? = some m) :
    ∃ e', e = .sender e' ∧ e'.measured? = some m := by
  cases e with
  | sender e' => exact ⟨e', rfl, h⟩
  | receiver e' => cases h

theorem sentOn_lt {H : List SystemEvent} {n : ℕ} (h : H.length < n) (k : ℕ) : sentOn k H < n := by
  have hcount : sentOn k H ≤ (H.filterMap SystemEvent.rtpOn?).length := List.count_le_length
  exact (hcount.trans (List.length_filterMap_le _ _)).trans_lt h

/-- With both packets received the second report counts one. -/
theorem twoReports_count : ∃ m : Measured,
    (twoReportsLog 0 0)[26]?.bind SystemEvent.measured? = some m ∧
      (hsnDiff m.last m.pkt).toNat ≤ sentOn m.subflow ((twoReportsLog 0 0).take 26) := by
  have hsome : ∃ m ∈ (twoReportsLog 0 0)[26]?.bind SystemEvent.measured?, m.subflow = 0 := by
    decide +kernel
  have hlen : ((twoReportsLog 0 0).take 26).length < 2 ^ 15 := by decide +kernel
  have horder : ∀ e ∈ (twoReportsLog 0 0).take 27, e.InOrder := by decide +kernel
  obtain ⟨m, hm, -⟩ := hsome
  obtain ⟨e, he, hem⟩ := Option.bind_eq_some_iff.mp hm
  obtain ⟨e', rfl, hem'⟩ := eq_sender_of_measured? hem
  exact ⟨m, hm, hsnDiff_le_sentOn (Run.of_choices (twoReports_network 0)) he hem' (sentOn_lt hlen)
    horder⟩

/-- After a report that told of no data the count is the start of the numbering. -/
theorem counts_from_zero :
    ¬ ∀ (isPathValid : Endpoint → Endpoint → Bool) (senderUnit receiverUnit : ℚ) (ssrc : UInt32)
      (w w' : World) (H : List SystemEvent) (r : Option System),
        Run (step isPathValid) (fun H s e => Network H s e ∧ e.Succeeds)
          (new senderUnit receiverUnit ssrc w w') H r →
          ∀ n e m, H[n]? = some (.sender e) → e.measured? = some m →
            (∀ k, sentOn k (H.take n) < 2 ^ 15) →
              (hsnDiff m.last m.pkt).toNat ≤ sentOn m.subflow (H.take n) := by
  intro h
  have hsome : ∃ m ∈ (twoReportsLog 700 1)[24]?.bind SystemEvent.measured?,
      sentOn m.subflow ((twoReportsLog 700 1).take 24) = 2 ∧ hsnDiff m.last m.pkt = 701 := by
    decide +kernel
  have hlen : ((twoReportsLog 700 1).take 24).length < 2 ^ 15 := by decide +kernel
  obtain ⟨m, hm, hsent, hdiff⟩ := hsome
  obtain ⟨e, he, hem⟩ := Option.bind_eq_some_iff.mp hm
  obtain ⟨e', rfl, hem'⟩ := eq_sender_of_measured? hem
  have hle := h _ 1 1 0xBEEF (drawing 700) (drawing 0) (twoReportsLog 700 1) _
    (Run.of_choices (twoReports_network 1)) 24 e' m he hem' (sentOn_lt hlen)
  rw [hdiff, hsent] at hle
  exact absurd hle (by decide)

end System

end Mprtp
