import Mprtp.System.Numbering

/-! What the datagrams of the sender and the reports of the receiver do to the numbering. -/
namespace Mprtp

open SourceStats

/-- A sender report is refused on an RTP socket. -/
theorem RtpPacket.parse_senderReport {raw : RawPacket} (h : raw.data[1]? = some rtcpTypeSr)
    (pkt : RtpPacket) : RtpPacket.parse raw ≠ .ok pkt := by
  have hb1 : raw.mem 1 = rtcpTypeSr := by
    unfold RawPacket.mem memOf
    rw [List.getD_eq_getElem?_getD, h]
    rfl
  intro hparse
  unfold RtpPacket.parse parsePacket at hparse
  split_ifs at hparse
  · cases hparse
  · cases hparse
  · simp only [ByteReader.eval_bind, ByteReader.eval_byte, ByteReader.eval_ite, hb1] at hparse
    rw [if_pos (by decide : markerOf rtcpTypeSr ≠ 0 ∧
      (payloadtypeOf rtcpTypeSr = 72 ∨ payloadtypeOf rtcpTypeSr = 73))] at hparse
    split_ifs at hparse <;> cases hparse

/-- What the receiver finds in a packet of the sender. -/
theorem OnWire.packet_fields {H : List SystemEvent} {d : SenderData} {k : ℕ} {out : OutDatagram}
    (h : OnWire H d k out) {raw : RawPacket} {pkt : RtpPacket} (hdata : out.data = raw.data)
    (hparse : RtpPacket.parse raw = .ok pkt) :
    ∃ (sf : Subflow) (q : UInt16), d.subflows[k]? = some sf ∧
      Used sf.sequesnceNumber (sentOn k H) q ∧ pkt.subflowId = sf.subflowId ∧
      pkt.subflowExtseqnr = q.toUInt32 ∧ pkt.subflowSequenceNumber = q := by
  cases h with
  | report hsr =>
    rw [hdata] at hsr
    exact absurd hparse (RtpPacket.parse_senderReport hsr pkt)
  | packet sf seq timestamp ssrc q payload hk hbytes hq =>
    obtain ⟨-, hid, hext⟩ := parse_numbers (hdata.symm.trans hbytes) hparse
    refine ⟨sf, q, hk, hq, hid, hext, ?_⟩
    unfold RtpPacket.subflowSequenceNumber
    rw [hext, UInt16.toUInt16_toUInt32]

theorem mem_sentBySender {H : List SystemEvent} {out : OutDatagram} :
    out ∈ sentBySender H ↔ ∃ k, .sender (.sent k out) ∈ H := by
  unfold sentBySender
  rw [List.mem_filterMap]
  constructor
  · intro h
    obtain ⟨e, he, hout⟩ := h
    cases e with
    | sender e =>
      cases e with
      | sent k out' =>
        cases hout
        exact ⟨k, he⟩
      | _ => cases hout
    | receiver e => cases hout
  · intro h
    obtain ⟨k, hk⟩ := h
    exact ⟨_, hk, rfl⟩

theorem mem_sentByReceiver {H : List SystemEvent} {out : OutDatagram} :
    out ∈ sentByReceiver H ↔ ∃ ssrc, .receiver (.sent ssrc out) ∈ H := by
  unfold sentByReceiver
  rw [List.mem_filterMap]
  constructor
  · intro h
    obtain ⟨e, he, hout⟩ := h
    cases e with
    | sender e => cases hout
    | receiver e =>
      cases e with
      | sent ssrc out' =>
        cases hout
        exact ⟨ssrc, he⟩
      | _ => cases hout
  · intro h
    obtain ⟨ssrc, hs⟩ := h
    exact ⟨_, hs, rfl⟩

section

variable {H : List SystemEvent} {d : SenderData} {r r' : ReceiverData} {e : ReceiverEvent}
  {ssrc : UInt32} {id : UInt16}

@[simp] theorem sentOn_receiver (k : ℕ) (H : List SystemEvent) (e : ReceiverEvent) :
    sentOn k (H ++ [.receiver e]) = sentOn k H := sentOn_concat k H (.receiver e)

/-- What is no poll of a source reports nothing new. -/
theorem Reported.of_receiver (he : ∀ src, e ≠ .poll src) {x : UInt32}
    (h : Reported (H ++ [.receiver e]) ssrc id x) : Reported H ssrc id x :=
  (reported_concat_iff (fun src hc => he src (by injection hc)) ssrc id x).mp h

/-- The statistics of the flow stay as they are. -/
theorem FlowOf.same (h : FlowOf H d r ssrc id) (he : ∀ src, e ≠ .poll src)
    (hs : (r.statAt ssrc id).Same (r'.statAt ssrc id)) :
    FlowOf (H ++ [.receiver e]) d r' ssrc id := by
  cases h with
  | quiet hq => exact .quiet ((hq.same hs).told_mono fun x hx => hx.of_receiver he)
  | counted k sf count high hk hid hc =>
    refine .counted k sf count high hk hid ?_
    rw [sentOn_receiver]
    exact (hc.same hs).told_mono fun x hx => hx.of_receiver he

/-- A packet of the flow is received. -/
theorem FlowOf.receive (h : FlowOf H d r ssrc id) (hids : d.IdsInOrder)
    (he : ∀ src, e ≠ .poll src) {k : ℕ} {sf : Subflow} {q : UInt16} {pack : RtpPacket} {tsunit : ℚ}
    (hk : d.subflows[k]? = some sf) (hid : sf.subflowId = id)
    (hq : Used sf.sequesnceNumber (sentOn k H) q) (hp : pack.subflowExtseqnr = q.toUInt32)
    (hn : sentOn k H < 2 ^ 15) (hlate : ¬ (r.statAt ssrc id).Late q)
    (hstat : r'.statAt ssrc id = ((r.statAt ssrc id).processPacket pack true tsunit).1) :
    FlowOf (H ++ [.receiver e]) d r' ssrc id := by
  cases h with
  | quiet hquiet =>
    obtain ⟨count, high, hc⟩ := hquiet.receive hq hp tsunit
    refine .counted k sf count high hk hid ?_
    rw [sentOn_receiver, hstat]
    exact hc.told_mono fun x hx => hx.of_receiver he
  | counted j sf' count high hj hid' hc =>
    obtain rfl : j = k := hids.index_unique hj hk (hid'.trans hid.symm)
    rw [hk] at hj
    cases hj
    obtain ⟨high', hc'⟩ := hc.receive hq hn hlate hp tsunit
    refine .counted j sf count high' hk hid ?_
    rw [sentOn_receiver, hstat]
    exact hc'.told_mono fun x hx => hx.of_receiver he

/-- A source is polled: its highest numbers are reported. -/
theorem FlowOf.poll (h : FlowOf H d r ssrc id) (hn : ∀ k, sentOn k H < 2 ^ 15)
    {src : Source} (hsrc : ∀ sf ∈ src.subflows, src.ssrc = ssrc → sf.subflowId = id →
      sf.recvStat = r.statAt ssrc id) : FlowOf (H ++ [.receiver (.poll src)]) d r ssrc id := by
  have hrep : ∀ x, Reported (H ++ [.receiver (.poll src)]) ssrc id x →
      Reported H ssrc id x ∨ x = (r.statAt ssrc id).exthighseqnr := by
    intro x h'
    obtain ⟨src', hmem, hssrc, sf, hsf, hid, hx⟩ := h'
    rcases List.mem_append.mp hmem with hmem | hmem
    · exact Or.inl ⟨src', hmem, hssrc, sf, hsf, hid, hx⟩
    · obtain ⟨⟩ := List.mem_singleton.mp hmem
      rw [← hsrc sf hsf hssrc hid]
      exact Or.inr hx.symm
  cases h with
  | quiet hq => exact .quiet (hq.report.told_mono hrep)
  | counted k sf count high hk hid hc =>
    refine .counted k sf count high hk hid ?_
    rw [sentOn_receiver]
    exact (hc.report (hn k)).told_mono hrep

end

namespace Numbering

variable {H : List SystemEvent} {d : SenderData} {r r' : ReceiverData}

/-- The receiver does something; what it does to the flows is left to show. -/
theorem receiver (h : Numbering H d r) {e : ReceiverEvent} (hf : ∃ L, r'.Follows L)
    (hsent : ∀ ssrc out, e = .sent ssrc out → ∃ src w, .receiver (.poll src) ∈ H ∧
      out.data = (src.buildReport w).1 ++ (src.buildReport w).2.1)
    (hflow : ∀ ssrc id, FlowOf (H ++ [.receiver e]) d r' ssrc id) :
    Numbering (H ++ [.receiver e]) d r' where
  ids := h.ids
  nextId := h.nextId
  follows := hf
  wire := by
    intro k out hmem
    have hmem' : .sender (.sent k out) ∈ H := by simpa using hmem
    cases h.wire k out hmem' with
    | report hsr => exact .report hsr
    | packet sf seq timestamp ssrc q payload hk hdata hq =>
      exact .packet sf seq timestamp ssrc q payload hk hdata (by rwa [sentOn_receiver])
  compound := by
    intro ssrc out hmem
    rcases List.mem_append.mp hmem with hmem | hmem
    · obtain ⟨src, w, hsrc, hdata⟩ := h.compound ssrc out hmem
      exact ⟨src, w, by simp [hsrc], hdata⟩
    · obtain ⟨⟩ := List.mem_singleton.mp hmem
      obtain ⟨src, w, hsrc, hdata⟩ := hsent ssrc out rfl
      exact ⟨src, w, by simp [hsrc], hdata⟩
  last := by
    intro sf hsf last hl
    exact (h.last sf hsf last hl).mono _
  flow := hflow

/-- A datagram of the sender is handled on an RTP socket. -/
theorem onRtpPacket (h : Numbering H d r) (hn : ∀ k, sentOn k H < 2 ^ 15) {raw : RawPacket}
    {out : OutDatagram} {pkt : RtpPacket} (hout : out ∈ sentBySender H) (hdata : out.data = raw.data)
    (hparse : RtpPacket.parse raw = .ok pkt)
    (hlate : ¬ (r.statAt pkt.ssrc pkt.subflowId).Late pkt.subflowSequenceNumber) (w : World)
    (iface : ℕ) : Numbering (H ++ [.receiver (.visit r (.rtp pkt iface))]) d
      (r.onRtpPacket w pkt iface).2.2.1 := by
  obtain ⟨k, hmem⟩ := mem_sentBySender.mp hout
  obtain ⟨sf, q, hk, hq, hid, hext, hseq⟩ := (h.wire k out hmem).packet_fields hdata hparse
  obtain ⟨L, hL⟩ := h.follows
  have hstat := ReceiverData.onRtpPacket_stat hL.ordered w pkt iface
  rw [hseq] at hlate
  apply h.receiver ⟨_, (hL.onRtpPacket w pkt iface).1⟩
  · intro ssrc out he
    cases he
  · intro ssrc id
    by_cases hflow : ssrc = pkt.ssrc ∧ id = pkt.subflowId
    · have hstat' := hstat ssrc id
      rw [if_pos hflow] at hstat'
      obtain ⟨rfl, rfl⟩ := hflow
      exact (h.flow _ _).receive h.idsInOrder (by simp) hk hid.symm hq hext (hn k) hlate hstat'
    · apply (h.flow ssrc id).same (by simp)
      rw [hstat, if_neg hflow]
      exact .refl _

/-- A call that leaves the statistics as they are. -/
theorem visit (h : Numbering H d r) (c : Call) (hf : ∃ L, r'.Follows L)
    (hstat : ∀ ssrc id, r'.statAt ssrc id = r.statAt ssrc id) :
    Numbering (H ++ [.receiver (.visit r c)]) d r' := by
  apply h.receiver hf
  · intro ssrc out he
    cases he
  · intro ssrc id
    apply (h.flow ssrc id).same (by simp)
    rw [hstat]
    exact .refl _

/-- A source is polled. -/
theorem poll (h : Numbering H d r) (hn : ∀ k, sentOn k H < 2 ^ 15) {src : Source}
    (hsrc : src ∈ r.sources) : Numbering (H ++ [.receiver (.poll src)]) d r := by
  obtain ⟨L, hL⟩ := h.follows
  apply h.receiver h.follows
  · intro ssrc out he
    cases he
  · intro ssrc id
    apply (h.flow ssrc id).poll hn
    intro sf hsf hssrc hid
    unfold ReceiverData.statAt
    rw [← hssrc, ← hid, ReceiverData.getSource_of_mem hL.ordered hsrc,
      (hL.sources src hsrc).statOf_eq hsf]

/-- The polled sources are put in place of those before the poll. -/
theorem polled (h : Numbering H d r) {srcs : List Source}
    (hs : r.sources.Forall₂ Source.Polled srcs) : Numbering H d { r with sources := srcs } where
  ids := h.ids
  nextId := h.nextId
  follows := by
    obtain ⟨L, hL⟩ := h.follows
    exact ⟨L, hL.polled hs⟩
  wire := h.wire
  compound := h.compound
  last := h.last
  flow := by
    intro ssrc id
    have hsame := ReceiverData.statAt_polled hs ssrc id
    cases h.flow ssrc id with
    | quiet hq => exact .quiet (hq.same hsame)
    | counted k sf count high hk hid hc => exact .counted k sf count high hk hid (hc.same hsame)

/-- The receiver does what changes and reports no numbers. -/
theorem idle (h : Numbering H d r) {e : ReceiverEvent} (he : ∀ src, e ≠ .poll src)
    (hsent : ∀ ssrc out, e = .sent ssrc out → ∃ src w, .receiver (.poll src) ∈ H ∧
      out.data = (src.buildReport w).1 ++ (src.buildReport w).2.1) :
    Numbering (H ++ [.receiver e]) d r :=
  h.receiver h.follows hsent fun ssrc id => (h.flow ssrc id).same he (.refl _)

end Numbering

end Mprtp
