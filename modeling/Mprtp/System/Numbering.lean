import Mprtp.System
import Mprtp.Receiver.Stats
import Mprtp.Sender.Numbers
import Mprtp.Source.Packets

/-! The numbering of the subflows across the system: what the datagrams, the receiver's
statistics, its reports and the sender's last reports have to do with each other. -/
namespace Mprtp

open SourceStats

/-- The receiver has polled a source when a subflow of it had this highest number. -/
def Reported (H : List SystemEvent) (ssrc : UInt32) (id : UInt16) (exthighseqnr : UInt32) : Prop :=
  ∃ src, .receiver (.poll src) ∈ H ∧ src.ssrc = ssrc ∧
    ∃ sf ∈ src.subflows, sf.subflowId = id ∧ sf.recvStat.exthighseqnr = exthighseqnr

/-- A datagram of the sender, with what is left to know of it later. -/
inductive OnWire (H : List SystemEvent) (d : SenderData) (k : ℕ) (out : OutDatagram) : Prop
  /-- a compound that starts with a sender report -/
  | report : out.data[1]? = some rtcpTypeSr → OnWire H d k out
  /-- an RTP packet with a number of the subflow -/
  | packet (sf : Subflow) (seq : UInt16) (timestamp ssrc : UInt32) (q : UInt16)
      (payload : List UInt8) : d.subflows[k]? = some sf →
      out.data = SenderData.rtpBytes seq timestamp ssrc sf.subflowId q payload →
      Used sf.sequesnceNumber (sentOn k H) q → OnWire H d k out

/-- The numbering of the subflow `id` of `ssrc`: nothing was received, or the numbers belong to a
subflow of the sender. -/
inductive FlowOf (H : List SystemEvent) (d : SenderData) (r : ReceiverData) (ssrc : UInt32)
    (id : UInt16) : Prop
  | quiet : Quiet (r.statAt ssrc id) (Reported H ssrc id) → FlowOf H d r ssrc id
  | counted (k : ℕ) (sf : Subflow) (count high : ℕ) : d.subflows[k]? = some sf →
      sf.subflowId = id →
      Counted sf.sequesnceNumber (sentOn k H) (r.statAt ssrc id) (Reported H ssrc id) count high →
      FlowOf H d r ssrc id

/-- The invariant of the numbering. -/
structure Numbering (H : List SystemEvent) (d : SenderData) (r : ReceiverData) : Prop where
  ids : ∀ (k : ℕ) (sf : Subflow), d.subflows[k]? = some sf → sf.subflowId.toNat = k + 1
  nextId : d.nextSubflowId = UInt16.ofNat (d.subflows.length + 1)
  follows : ∃ L, r.Follows L
  wire : ∀ k out, .sender (.sent k out) ∈ H → OnWire H d k out
  compound : ∀ ssrc out, .receiver (.sent ssrc out) ∈ H → ∃ src w,
    .receiver (.poll src) ∈ H ∧ out.data = (src.buildReport w).1 ++ (src.buildReport w).2.1
  last : ∀ sf ∈ d.subflows, ∀ last, sf.lastReceiverReport = some last →
    Reported H last.ssrc sf.subflowId last.exthighseqnr
  flow : ∀ ssrc id, FlowOf H d r ssrc id

section

variable {H : List SystemEvent} {e : SystemEvent}

theorem sentOn_concat (k : ℕ) (H : List SystemEvent) (e : SystemEvent) :
    sentOn k (H ++ [e]) = sentOn k H + if e.rtpOn? = some k then 1 else 0 := by
  unfold sentOn
  rw [List.filterMap_append, List.count_append]
  cases h : e.rtpOn? with
  | none => simp [h]
  | some j => simp [h, List.count_singleton]

theorem Reported.mono {ssrc : UInt32} {id : UInt16} {r : UInt32} (h : Reported H ssrc id r)
    (e : SystemEvent) : Reported (H ++ [e]) ssrc id r := by
  obtain ⟨src, hsrc, hrest⟩ := h
  exact ⟨src, by simp [hsrc], hrest⟩

/-- What is no poll of a source reports nothing new. -/
theorem reported_concat_iff (he : ∀ src, e ≠ .receiver (.poll src)) (ssrc : UInt32) (id : UInt16)
    (r : UInt32) : Reported (H ++ [e]) ssrc id r ↔ Reported H ssrc id r := by
  constructor
  · intro h'
    obtain ⟨src, hsrc, hrest⟩ := h'
    rcases List.mem_append.mp hsrc with hsrc | hsrc
    · exact ⟨src, hsrc, hrest⟩
    · exact absurd (List.mem_singleton.mp hsrc).symm (he src)
  · exact fun h => h.mono e

end

namespace Numbering

variable {H : List SystemEvent} {d d' : SenderData} {r r' : ReceiverData}

theorem idsInOrder (h : Numbering H d r) : d.IdsInOrder := ⟨h.ids, h.nextId⟩

/-- The sender changes without a new number on a subflow. -/
theorem change (h : Numbering H d r) (hs : d.SameNumbers d')
    (hlast : ∀ sf ∈ d'.subflows, ∀ last, sf.lastReceiverReport = some last →
      Reported H last.ssrc sf.subflowId last.exthighseqnr) : Numbering H d' r where
  ids := (h.idsInOrder.change hs).ids
  nextId := (h.idsInOrder.change hs).nextId
  follows := h.follows
  wire := by
    intro k out hmem
    cases h.wire k out hmem with
    | report hsr => exact .report hsr
    | packet sf seq timestamp ssrc q payload hk hdata hq =>
      obtain ⟨sf', hk', hid, hseq⟩ := hs.forward hk
      rw [← hid] at hdata
      rw [← hseq] at hq
      exact .packet sf' seq timestamp ssrc q payload hk' hdata hq
  compound := h.compound
  last := hlast
  flow := by
    intro ssrc id
    cases h.flow ssrc id with
    | quiet hq => exact .quiet hq
    | counted k sf count high hk hid hc =>
      obtain ⟨sf', hk', hid', hseq⟩ := hs.forward hk
      exact .counted k sf' count high hk' (hid'.trans hid) (by rwa [hseq])

theorem congr (h : Numbering H d r) (hs : d'.subflows = d.subflows)
    (hn : d'.nextSubflowId = d.nextSubflowId) : Numbering H d' r := by
  apply h.change (.of_eq hs hn)
  rw [hs]
  exact h.last

/-- The distribution gives the subflows other percentages. -/
theorem reweighted (h : Numbering H d r) {sfs : List Subflow}
    (hs : d.subflows.Forall₂ Subflow.Reweighted sfs) (b : Bool) :
    Numbering H { d with subflows := sfs, recalcDistribution := b } r := by
  apply h.change (.reweighted hs b)
  intro sf' hsf' last hl
  obtain ⟨k, hk⟩ := List.getElem?_of_mem hsf'
  have hlt : k < d.subflows.length := hs.length_eq ▸ (List.getElem?_eq_some_iff.mp hk).1
  have hk' := List.getElem?_eq_getElem hlt
  obtain ⟨p, rfl⟩ := Subflow.Reweighted.of_getElem? hs hk' hk
  exact h.last _ (List.mem_of_getElem? hk') last hl

/-- A report is stored at a subflow. -/
theorem stored (h : Numbering H d r) {k : ℕ} {sf sf' : Subflow} {pkt : RtcpRrPacket}
    (hk : d.subflows[k]? = some sf) (hid : sf'.subflowId = sf.subflowId)
    (hseq : sf'.sequesnceNumber = sf.sequesnceNumber) (hlast : sf'.lastReceiverReport = some pkt)
    (hrep : Reported H pkt.ssrc sf.subflowId pkt.exthighseqnr) : Numbering H (d.put k sf') r := by
  apply h.change (.set hk hid hseq)
  intro sf₁ hsf₁ last hl
  rcases List.mem_or_eq_of_mem_set hsf₁ with hsf₁ | rfl
  · exact h.last sf₁ hsf₁ last hl
  · rw [hlast] at hl
    cases hl
    rw [hid]
    exact hrep

theorem addSubflow (h : Numbering H d r) (hlen : d.subflows.length < 65535) (iface : ℕ)
    (remote : Endpoint) (w : World) : Numbering H (d.addSubflow iface remote w) r where
  ids := (h.idsInOrder.addSubflow hlen iface remote w).ids
  nextId := (h.idsInOrder.addSubflow hlen iface remote w).nextId
  follows := h.follows
  wire := by
    intro k out hmem
    cases h.wire k out hmem with
    | report hsr => exact .report hsr
    | packet sf seq timestamp ssrc q payload hk hdata hq =>
      have hlt := (List.getElem?_eq_some_iff.mp hk).1
      exact .packet sf seq timestamp ssrc q payload ((List.getElem?_append_left hlt).trans hk) hdata hq
  compound := h.compound
  last := by
    intro sf hsf last hl
    rcases List.mem_append.mp hsf with hsf | hsf
    · exact h.last sf hsf last hl
    · rw [List.mem_singleton.mp hsf] at hl
      cases hl
  flow := by
    intro ssrc id
    cases h.flow ssrc id with
    | quiet hq => exact .quiet hq
    | counted k sf count high hk hid hc =>
      have hlt := (List.getElem?_eq_some_iff.mp hk).1
      exact .counted k sf count high ((List.getElem?_append_left hlt).trans hk) hid hc

section

variable {e : SenderEvent}

theorem reported_sender (H : List SystemEvent) (e : SenderEvent) (ssrc : UInt32) (id : UInt16) :
    Reported (H ++ [.sender e]) ssrc id = Reported H ssrc id := by
  funext x
  exact propext (reported_concat_iff (fun src hc => by cases hc) ssrc id x)

theorem compound_sender (h : Numbering H d r) (e : SenderEvent) (ssrc : UInt32) (out : OutDatagram)
    (hmem : .receiver (.sent ssrc out) ∈ H ++ [.sender e]) : ∃ src w,
      .receiver (.poll src) ∈ H ++ [.sender e] ∧
        out.data = (src.buildReport w).1 ++ (src.buildReport w).2.1 := by
  have hmem' : .receiver (.sent ssrc out) ∈ H := by simpa using hmem
  obtain ⟨src, w, hsrc, hdata⟩ := h.compound ssrc out hmem'
  exact ⟨src, w, by simp [hsrc], hdata⟩

/-- The sender does something other than sending an RTP packet. -/
theorem tell (h : Numbering H d r) (he : SystemEvent.rtpOn? (.sender e) = none)
    (hwire : ∀ k out, e = .sent k out → out.data[1]? = some rtcpTypeSr) :
    Numbering (H ++ [.sender e]) d r := by
  have hsent : ∀ k, sentOn k (H ++ [.sender e]) = sentOn k H := by
    intro k
    rw [sentOn_concat, he]
    rfl
  refine ⟨h.ids, h.nextId, h.follows, ?_, h.compound_sender e, ?_, ?_⟩
  · intro k out hmem
    rcases List.mem_append.mp hmem with hmem | hmem
    · cases h.wire k out hmem with
      | report hsr => exact .report hsr
      | packet sf seq timestamp ssrc q payload hk hdata hq =>
        rw [← hsent] at hq
        exact .packet sf seq timestamp ssrc q payload hk hdata hq
    · obtain ⟨⟩ := List.mem_singleton.mp hmem
      exact .report (hwire k out rfl)
  · intro sf hsf last hl
    exact (h.last sf hsf last hl).mono _
  · intro ssrc id
    cases h.flow ssrc id with
    | quiet hq => exact .quiet (by rwa [reported_sender])
    | counted k sf count high hk hid hc =>
      exact .counted k sf count high hk hid (by rwa [reported_sender, hsent])

/-- An RTP packet is sent, with the next number of its subflow. -/
theorem sent (h : Numbering H d r) {k : ℕ} {sf sf' : Subflow} {out : OutDatagram} {seq : UInt16}
    {timestamp ssrc : UInt32} {payload : List UInt8} (hk : d.subflows[k]? = some sf)
    (hid : sf'.subflowId = sf.subflowId) (hseq : sf'.sequesnceNumber = sf.sequesnceNumber + 1)
    (hlast : sf'.lastReceiverReport = sf.lastReceiverReport) (hrtp : out.rtcp = false)
    (hdata : out.data = SenderData.rtpBytes seq timestamp ssrc sf.subflowId sf.sequesnceNumber payload)
    (hn : sentOn k H < 2 ^ 15) : Numbering (H ++ [.sender (.sent k out)]) (d.put k sf') r := by
  have hlt := (List.getElem?_eq_some_iff.mp hk).1
  have hself : (d.put k sf').subflows[k]? = some sf' := List.getElem?_set_self hlt
  have hother : ∀ j, j ≠ k → (d.put k sf').subflows[j]? = d.subflows[j]? :=
    fun j hj => List.getElem?_set_ne (Ne.symm hj)
  have hon : sentOn k (H ++ [.sender (.sent k out)]) = sentOn k H + 1 := by
    rw [sentOn_concat]
    simp [SystemEvent.rtpOn?, hrtp]
  have hoff : ∀ j, j ≠ k → sentOn j (H ++ [.sender (.sent k out)]) = sentOn j H := by
    intro j hj
    rw [sentOn_concat]
    simp [SystemEvent.rtpOn?, hrtp, Ne.symm hj]
  obtain ⟨hids, hnext⟩ := h.idsInOrder.put hk hid
  refine ⟨hids, hnext, h.follows, ?_, h.compound_sender _, ?_, ?_⟩
  · intro j out' hmem
    rcases List.mem_append.mp hmem with hmem | hmem
    · cases h.wire j out' hmem with
      | report hsr => exact .report hsr
      | packet sf₁ seq₁ timestamp₁ ssrc₁ q payload₁ hj hdata₁ hq =>
        by_cases hjk : j = k
        · subst hjk
          rw [hk] at hj
          cases hj
          rw [← hid] at hdata₁
          refine .packet sf' seq₁ timestamp₁ ssrc₁ q payload₁ hself hdata₁ ?_
          rw [hseq, hon]
          exact hq.succ hn
        · rw [← hoff j hjk] at hq
          exact .packet sf₁ seq₁ timestamp₁ ssrc₁ q payload₁ ((hother j hjk).trans hj) hdata₁ hq
    · obtain ⟨⟩ := List.mem_singleton.mp hmem
      rw [← hid] at hdata
      refine .packet sf' seq timestamp ssrc sf.sequesnceNumber payload hself hdata ?_
      rw [hseq, hon]
      exact used_self sf.sequesnceNumber (sentOn k H)
  · intro sf₁ hsf₁ last hl
    rcases List.mem_or_eq_of_mem_set hsf₁ with hsf₁ | rfl
    · exact (h.last sf₁ hsf₁ last hl).mono _
    · rw [hlast] at hl
      rw [hid]
      exact (h.last sf (List.mem_of_getElem? hk) last hl).mono _
  · intro ssrc id
    cases h.flow ssrc id with
    | quiet hq => exact .quiet (by rwa [reported_sender])
    | counted j sf₁ count high hj hid₁ hc =>
      by_cases hjk : j = k
      · subst hjk
        rw [hk] at hj
        cases hj
        refine .counted j sf' (count + 1) high hself (hid.trans hid₁) ?_
        rw [reported_sender, hon, hseq]
        exact hc.sent
      · refine .counted j sf₁ count high ((hother j hjk).trans hj) hid₁ ?_
        rw [reported_sender, hoff j hjk]
        exact hc

end

end Numbering

end Mprtp
