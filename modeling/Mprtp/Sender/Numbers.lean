import Mathlib.Data.List.Chain
import Mprtp.Sender.Rules
import Mprtp.Sender.Wire

/-! The ids and the numbers of the subflows, and those in the datagrams that are sent on them. -/
namespace Mprtp

/-- The ids and the numbers of the subflows are the same. -/
structure SenderData.SameNumbers (d d' : SenderData) : Prop where
  length : d'.subflows.length = d.subflows.length
  nextId : d'.nextSubflowId = d.nextSubflowId
  subflow : ∀ (k : ℕ) (sf sf' : Subflow), d.subflows[k]? = some sf → d'.subflows[k]? = some sf' →
    sf'.subflowId = sf.subflowId ∧ sf'.sequesnceNumber = sf.sequesnceNumber

namespace SenderData.SameNumbers

variable {d d' : SenderData}

theorem of_eq (hs : d'.subflows = d.subflows) (hn : d'.nextSubflowId = d.nextSubflowId) :
    d.SameNumbers d' where
  length := by rw [hs]
  nextId := hn
  subflow := by
    intro k sf sf' hk hk'
    rw [hs, hk] at hk'
    cases hk'
    exact ⟨rfl, rfl⟩

theorem set {k : ℕ} {sf sf' : Subflow} (hk : d.subflows[k]? = some sf)
    (hid : sf'.subflowId = sf.subflowId) (hseq : sf'.sequesnceNumber = sf.sequesnceNumber) :
    d.SameNumbers (d.put k sf') where
  length := List.length_set
  nextId := rfl
  subflow := by
    intro j sf₁ sf₂ hj hj'
    rcases SenderData.getElem?_put hj' with ⟨rfl, rfl⟩ | ⟨-, hj'⟩
    · rw [hk] at hj
      cases hj
      exact ⟨hid, hseq⟩
    · rw [hj] at hj'
      cases hj'
      exact ⟨rfl, rfl⟩

theorem forward (h : d.SameNumbers d') {k : ℕ} {sf : Subflow} (hk : d.subflows[k]? = some sf) :
    ∃ sf', d'.subflows[k]? = some sf' ∧ sf'.subflowId = sf.subflowId ∧
      sf'.sequesnceNumber = sf.sequesnceNumber := by
  have hlt : k < d'.subflows.length := h.length ▸ (List.getElem?_eq_some_iff.mp hk).1
  have hk' := List.getElem?_eq_getElem hlt
  exact ⟨_, hk', h.subflow k sf _ hk hk'⟩

theorem backward (h : d.SameNumbers d') {k : ℕ} {sf' : Subflow} (hk : d'.subflows[k]? = some sf') :
    ∃ sf, d.subflows[k]? = some sf ∧ sf'.subflowId = sf.subflowId ∧
      sf'.sequesnceNumber = sf.sequesnceNumber := by
  have hlt : k < d.subflows.length := h.length ▸ (List.getElem?_eq_some_iff.mp hk).1
  have hk' := List.getElem?_eq_getElem hlt
  exact ⟨_, hk', h.subflow k _ sf' hk' hk⟩

/-- The distribution gives the subflows other percentages. -/
theorem reweighted {sfs : List Subflow} (hs : d.subflows.Forall₂ Subflow.Reweighted sfs) (b : Bool) :
    d.SameNumbers { d with subflows := sfs, recalcDistribution := b } where
  length := hs.length_eq.symm
  nextId := rfl
  subflow := by
    intro k sf sf' hk hk'
    obtain ⟨p, rfl⟩ := Subflow.Reweighted.of_getElem? hs hk hk'
    exact ⟨rfl, rfl⟩

theorem onRtcpRrPacket (d : SenderData) (w : World) (pkt : RtcpRrPacket) (id : UInt16) :
    d.SameNumbers (d.onRtcpRrPacket w pkt id).1 := by
  rcases d.onRtcpRrPacket_cases w pkt id with ⟨hres, -⟩ | ⟨k, sf, hst⟩ | ⟨m, hms⟩
  · rw [hres]
    exact .of_eq rfl rfl
  · rw [hst.result]
    have hs : d.SameNumbers (d.put k (sf.store pkt)) := .set hst.subflow rfl rfl
    exact ⟨hs.length, hs.nextId, hs.subflow⟩
  · obtain ⟨hid, hseq⟩ := m.sf.measure_numbers m.last pkt w
    rw [hms.result]
    have hs : d.SameNumbers (d.put m.subflow ((m.sf.measure m.last pkt w).1.store pkt)) :=
      .set hms.subflow hid hseq
    exact ⟨hs.length, hs.nextId, hs.subflow⟩

end SenderData.SameNumbers

theorem SenderData.measureStreamBitrate_numbers (d : SenderData) (curtime : RtpTime) :
    (d.measureStreamBitrate curtime).subflows = d.subflows ∧
      (d.measureStreamBitrate curtime).nextSubflowId = d.nextSubflowId := by
  obtain ⟨streamBitrate, sbSize, sbTime, hfields⟩ := d.measureStreamBitrate_fields curtime
  rw [hfields]
  exact ⟨rfl, rfl⟩

/-- The ids go up by one from subflow to subflow, in 16 bits, and so does the next id. -/
structure SenderData.CountedIds (d : SenderData) : Prop where
  ids : ∀ (k : ℕ) (sf : Subflow), d.subflows[k]? = some sf → sf.subflowId = UInt16.ofNat (k + 1)
  nextId : d.nextSubflowId = UInt16.ofNat (d.subflows.length + 1)

namespace SenderData.CountedIds

variable {d d' : SenderData}

theorem change (h : d.CountedIds) (hs : d.SameNumbers d') : d'.CountedIds where
  ids := by
    intro k sf' hk
    obtain ⟨sf, hk', hid, -⟩ := hs.backward hk
    rw [hid]
    exact h.ids k sf hk'
  nextId := by
    rw [hs.nextId, hs.length]
    exact h.nextId

theorem put (h : d.CountedIds) {k : ℕ} {sf sf' : Subflow} (hk : d.subflows[k]? = some sf)
    (hid : sf'.subflowId = sf.subflowId) : (d.put k sf').CountedIds where
  ids := by
    intro j sf₁ hj
    rcases SenderData.getElem?_put hj with ⟨rfl, rfl⟩ | ⟨-, hj⟩
    · rw [hid]
      exact h.ids j sf hk
    · exact h.ids j sf₁ hj
  nextId := by
    rw [List.length_set]
    exact h.nextId

/-- Every connected path gets the next id. -/
theorem addSubflow (h : d.CountedIds) (iface : ℕ) (remote : Endpoint) (w : World) :
    (d.addSubflow iface remote w).CountedIds where
  ids := by
    intro k sf hk
    unfold SenderData.addSubflow at hk
    dsimp only at hk
    rcases Nat.lt_or_ge k d.subflows.length with hlt | hge
    · rw [List.getElem?_append_left hlt] at hk
      exact h.ids k sf hk
    · rw [List.getElem?_append_right hge, List.getElem?_singleton] at hk
      split at hk
      · rename_i hzero
        have hlen : k = d.subflows.length := by omega
        cases hk
        rw [hlen]
        exact h.nextId
      · cases hk
  nextId := by
    unfold SenderData.addSubflow
    dsimp only
    rw [h.nextId, List.length_append, List.length_singleton, UInt16.ofNat_add (_ + 1) 1]
    rfl

end SenderData.CountedIds

/-- The subflows have the ids 1, 2 and so on, and the next id is the one behind them. -/
structure SenderData.IdsInOrder (d : SenderData) : Prop where
  ids : ∀ (k : ℕ) (sf : Subflow), d.subflows[k]? = some sf → sf.subflowId.toNat = k + 1
  nextId : d.nextSubflowId = UInt16.ofNat (d.subflows.length + 1)

namespace SenderData.IdsInOrder

variable {d d' : SenderData}

theorem index_unique (h : d.IdsInOrder) {j k : ℕ} {sf sf' : Subflow} (hj : d.subflows[j]? = some sf)
    (hk : d.subflows[k]? = some sf') (hid : sf.subflowId = sf'.subflowId) : j = k := by
  have hidj := h.ids j sf hj
  have hidk := h.ids k sf' hk
  rw [hid] at hidj
  omega

/-- The id 0 stands for the stream. -/
theorem id_ne_zero (h : d.IdsInOrder) {k : ℕ} {sf : Subflow} (hk : d.subflows[k]? = some sf) :
    sf.subflowId ≠ 0 := by
  intro h0
  have hid := h.ids k sf hk
  rw [h0] at hid
  exact absurd hid (by simp)

/-- There are fewer subflows than ids. -/
theorem length_le (h : d.IdsInOrder) : d.subflows.length ≤ 65535 := by
  by_contra hgt
  have hlt : d.subflows.length - 1 < d.subflows.length := by omega
  have hid := h.ids _ _ (List.getElem?_eq_getElem hlt)
  have hbound := UInt16.toNat_lt d.subflows[d.subflows.length - 1].subflowId
  omega

end SenderData.IdsInOrder

/-- As long as there are ids for all subflows, they are 1, 2 and so on. -/
theorem SenderData.idsInOrder_iff {d : SenderData} :
    d.IdsInOrder ↔ d.CountedIds ∧ d.subflows.length ≤ 65535 := by
  constructor
  · intro h
    refine ⟨⟨?_, h.nextId⟩, h.length_le⟩
    intro k sf hk
    rw [← h.ids k sf hk, UInt16.ofNat_toNat]
  · intro h
    obtain ⟨h, hlen⟩ := h
    refine ⟨?_, h.nextId⟩
    intro k sf hk
    have hlt := (List.getElem?_eq_some_iff.mp hk).1
    rw [h.ids k sf hk, UInt16.toNat_ofNat']
    omega

namespace SenderData.IdsInOrder

variable {d d' : SenderData}

theorem change (h : d.IdsInOrder) (hs : d.SameNumbers d') : d'.IdsInOrder := by
  obtain ⟨hc, hlen⟩ := idsInOrder_iff.mp h
  exact idsInOrder_iff.mpr ⟨hc.change hs, hs.length ▸ hlen⟩

theorem put (h : d.IdsInOrder) {k : ℕ} {sf sf' : Subflow} (hk : d.subflows[k]? = some sf)
    (hid : sf'.subflowId = sf.subflowId) : (d.put k sf').IdsInOrder := by
  obtain ⟨hc, hlen⟩ := idsInOrder_iff.mp h
  refine idsInOrder_iff.mpr ⟨hc.put hk hid, ?_⟩
  rw [List.length_set]
  exact hlen

theorem addSubflow (h : d.IdsInOrder) (hlen : d.subflows.length < 65535) (iface : ℕ)
    (remote : Endpoint) (w : World) : (d.addSubflow iface remote w).IdsInOrder := by
  obtain ⟨hc, -⟩ := idsInOrder_iff.mp h
  refine idsInOrder_iff.mpr ⟨hc.addSubflow iface remote w, ?_⟩
  unfold SenderData.addSubflow
  rw [List.length_append, List.length_singleton]
  omega

end SenderData.IdsInOrder

/-! Where a datagram of `send_data` has its numbers. -/

def ssrcIn (data : List UInt8) : UInt32 := be32 (alone data) 8

def idIn (data : List UInt8) : UInt16 := be16 (alone data) 18

def numberIn (data : List UInt8) : UInt16 := be16 (alone data) 20

/-- The datagrams of one subflow. -/
def ofId (id : UInt16) (l : List (List UInt8)) : List (List UInt8) := l.filter fun data => idIn data = id

theorem ofId_append (id : UInt16) (l l' : List (List UInt8)) :
    ofId id (l ++ l') = ofId id l ++ ofId id l' := List.filter_append ..

theorem ofId_singleton (id : UInt16) (data : List UInt8) :
    ofId id [data] = if idIn data = id then [data] else [] := by
  unfold ofId
  rw [List.filter_singleton, Bool.cond_decide]

theorem mem_ofId {id : UInt16} {l : List (List UInt8)} {data : List UInt8} :
    data ∈ ofId id l ↔ data ∈ l ∧ idIn data = id := by
  unfold ofId
  rw [List.mem_filter, decide_eq_true_iff]

/-- One number higher than the one before. -/
def NextNumber (data data' : List UInt8) : Prop := numberIn data' = numberIn data + 1

/-- The numbers that `send_data` writes. -/
theorem in_rtpBytes (seq : UInt16) (timestamp ssrc : UInt32) (id q : UInt16) (payload : List UInt8) :
    let data := SenderData.rtpBytes seq timestamp ssrc id q payload
    ssrcIn data = ssrc ∧ idIn data = id ∧ numberIn data = q := by
  let raw : RawPacket := ⟨SenderData.rtpBytes seq timestamp ssrc id q payload, fun _ => 0, ⟨0, 0⟩, false, 0⟩
  have hcarries : raw.Carries seq ssrc id q := carries_rtpBytes rfl
  have hoff : raw.extensionOffset = 12 := by
    have hb0 : raw.mem 0 = 0x90 := mem_rtpBytes rfl (by decide)
    unfold RawPacket.extensionOffset
    rw [hb0]
    rfl
  have hid := hcarries.subflowId
  have hseq := hcarries.subflowSeq
  unfold RawPacket.subflowIdField at hid
  unfold RawPacket.subflowSeqField at hseq
  rw [hoff] at hid hseq
  exact ⟨hcarries.ssrc, hid, hseq⟩

/-- Datagrams of `send_data`, on each subflow with consecutive numbers. -/
structure Sequenced (S : List (List UInt8)) : Prop where
  packets : ∀ data ∈ S, ∃ seq timestamp ssrc id q payload,
    data = SenderData.rtpBytes seq timestamp ssrc id q payload
  numbers : ∀ id, (ofId id S).IsChain NextNumber

/-- The RTP datagram that is handed to a socket. -/
def SenderEvent.rtp? : SenderEvent → Option (List UInt8)
  | .sent _ out => if out.rtcp then none else some out.data
  | _ => none

/-- The RTP datagrams that a sender has handed to its sockets, in order. -/
def rtpSent (L : List SenderEvent) : List (List UInt8) := L.filterMap SenderEvent.rtp?

theorem rtpSent_concat (L : List SenderEvent) (e : SenderEvent) :
    rtpSent (L ++ [e]) = rtpSent L ++ e.rtp?.toList := by
  unfold rtpSent
  rw [List.filterMap_append]
  cases h : e.rtp? <;> simp [h]

/-- Every subflow has an id of its own, and on each of them the numbers have gone up one by one. -/
structure Consecutive (L : List SenderEvent) (d : SenderData) : Prop where
  ids : ∀ (k : ℕ) (sf : Subflow), d.subflows[k]? = some sf → sf.subflowId.toNat = k + 1
  nextId : d.nextSubflowId = UInt16.ofNat (d.subflows.length + 1)
  packets : ∀ data ∈ rtpSent L, ∃ seq timestamp ssrc id q payload,
    data = SenderData.rtpBytes seq timestamp ssrc id q payload ∧ id.toNat ≤ d.subflows.length
  numbers : ∀ id, (ofId id (rtpSent L)).IsChain NextNumber
  next : ∀ sf ∈ d.subflows, ∀ last ∈ (ofId sf.subflowId (rtpSent L)).getLast?,
    sf.sequesnceNumber = numberIn last + 1

namespace Consecutive

variable {L : List SenderEvent} {d d' : SenderData}

theorem idsInOrder (h : Consecutive L d) : d.IdsInOrder := ⟨h.ids, h.nextId⟩

theorem change (h : Consecutive L d) (hs : d.SameNumbers d') : Consecutive L d' where
  ids := (h.idsInOrder.change hs).ids
  nextId := (h.idsInOrder.change hs).nextId
  packets := by
    rw [hs.length]
    exact h.packets
  numbers := h.numbers
  next := by
    intro sf' hsf'
    obtain ⟨k, hk⟩ := List.getElem?_of_mem hsf'
    obtain ⟨sf, hk', hid, hseq⟩ := hs.backward hk
    rw [hid, hseq]
    exact h.next sf (List.mem_of_getElem? hk')

/-- The sender does something other than sending an RTP packet. -/
theorem tell (h : Consecutive L d) {e : SenderEvent} (he : e.rtp? = none) : Consecutive (L ++ [e]) d := by
  have hsent : rtpSent (L ++ [e]) = rtpSent L := by
    rw [rtpSent_concat, he, Option.toList_none, List.append_nil]
  refine ⟨h.ids, h.nextId, ?_, ?_, ?_⟩
  · rw [hsent]
    exact h.packets
  · rw [hsent]
    exact h.numbers
  · rw [hsent]
    exact h.next

/-- No datagram has an id that is not in use yet. -/
theorem ofId_eq_nil (h : Consecutive L d) {id : UInt16} (hid : d.subflows.length < id.toNat) :
    ofId id (rtpSent L) = [] := by
  rw [List.eq_nil_iff_forall_not_mem]
  intro data hdata
  obtain ⟨hdata, hid'⟩ := mem_ofId.mp hdata
  obtain ⟨seq, timestamp, ssrc, id', q, payload, rfl, hle⟩ := h.packets data hdata
  obtain ⟨-, hidIn, -⟩ := in_rtpBytes seq timestamp ssrc id' q payload
  rw [hidIn] at hid'
  rw [hid'] at hle
  omega

theorem sequenced (h : Consecutive L d) : Sequenced (rtpSent L) where
  packets := by
    intro data hdata
    obtain ⟨seq, timestamp, ssrc, id, q, payload, hbytes, -⟩ := h.packets data hdata
    exact ⟨seq, timestamp, ssrc, id, q, payload, hbytes⟩
  numbers := h.numbers

theorem addSubflow (h : Consecutive L d) (hlen : d.subflows.length < 65535) (iface : ℕ)
    (remote : Endpoint) (w : World) : Consecutive L (d.addSubflow iface remote w) := by
  have hnew : d.nextSubflowId.toNat = d.subflows.length + 1 := by
    rw [h.nextId, UInt16.toNat_ofNat']
    omega
  obtain ⟨hids, hnext⟩ := h.idsInOrder.addSubflow hlen iface remote w
  refine ⟨hids, hnext, ?_, h.numbers, ?_⟩
  · intro data hdata
    obtain ⟨seq, timestamp, ssrc, id, q, payload, hbytes, hle⟩ := h.packets data hdata
    refine ⟨seq, timestamp, ssrc, id, q, payload, hbytes, ?_⟩
    unfold SenderData.addSubflow
    rw [List.length_append]
    omega
  · intro sf hsf
    rcases List.mem_append.mp hsf with hsf | hsf
    · exact h.next sf hsf
    · intro last hlast
      have hid : sf.subflowId = d.nextSubflowId := by
        rw [List.mem_singleton.mp hsf]
        rfl
      rw [hid, h.ofId_eq_nil (by omega)] at hlast
      cases hlast

/-- An RTP packet takes the number of its subflow, which goes up by one. -/
theorem sent (h : Consecutive L d) {k : ℕ} {sf sf' : Subflow} {out : OutDatagram} {seq : UInt16}
    {timestamp ssrc : UInt32} {payload : List UInt8} (hk : d.subflows[k]? = some sf)
    (hid : sf'.subflowId = sf.subflowId) (hseq : sf'.sequesnceNumber = sf.sequesnceNumber + 1)
    (hrtp : out.rtcp = false)
    (hdata : out.data = SenderData.rtpBytes seq timestamp ssrc sf.subflowId sf.sequesnceNumber payload) :
    Consecutive (L ++ [.sent k out]) (d.put k sf') := by
  obtain ⟨-, hidIn, hnumber⟩ :=
    in_rtpBytes seq timestamp ssrc sf.subflowId sf.sequesnceNumber payload
  rw [← hdata] at hidIn hnumber
  have hlt := (List.getElem?_eq_some_iff.mp hk).1
  have hsf := List.mem_of_getElem? hk
  have hsent : rtpSent (L ++ [.sent k out]) = rtpSent L ++ [out.data] := by
    rw [rtpSent_concat]
    simp [SenderEvent.rtp?, hrtp]
  have hofId : ∀ id, ofId id (rtpSent (L ++ [.sent k out])) =
      ofId id (rtpSent L) ++ if sf.subflowId = id then [out.data] else [] := by
    intro id
    rw [hsent, ofId_append, ofId_singleton, hidIn]
  obtain ⟨hids, hnext⟩ := h.idsInOrder.put hk hid
  refine ⟨hids, hnext, ?_, ?_, ?_⟩
  · rw [hsent, List.length_set]
    intro data hmem
    rcases List.mem_append.mp hmem with hmem | hmem
    · exact h.packets data hmem
    · rw [List.mem_singleton.mp hmem]
      refine ⟨seq, timestamp, ssrc, sf.subflowId, sf.sequesnceNumber, payload, hdata, ?_⟩
      rw [h.ids k sf hk]
      omega
  · intro id
    rw [hofId]
    split
    · rename_i hid'
      apply (h.numbers id).append (List.isChain_singleton _)
      intro last hlast data hmem
      cases hmem
      rw [← hid'] at hlast
      unfold NextNumber
      rw [hnumber]
      exact h.next sf hsf last hlast
    · rw [List.append_nil]
      exact h.numbers id
  · intro sf₁ hsf₁ last hlast
    obtain ⟨j, hj⟩ := List.getElem?_of_mem hsf₁
    rcases SenderData.getElem?_put hj with ⟨rfl, rfl⟩ | ⟨hjk, hj'⟩
    · rw [hofId, if_pos hid.symm, List.getLast?_concat] at hlast
      cases hlast
      rw [hseq, hnumber]
    · have hne : sf.subflowId ≠ sf₁.subflowId :=
        fun he => hjk (h.idsInOrder.index_unique hk hj' he).symm
      rw [hofId, if_neg hne, List.append_nil] at hlast
      exact h.next sf₁ (List.mem_of_getElem? hj') last hlast

end Consecutive

namespace Sender

/-- With more subflows there are fewer ids than these. -/
theorem keptByData_consecutive : KeptByData (fun _ => True) (fun _ _ => True)
    fun L d => d.subflows.length ≤ 65535 → Consecutive L d where
  rr := by
    intro L d w raw fuel pkt id ssrc i _ _ h
    have hs := SenderData.SameNumbers.onRtcpRrPacket d w pkt id
    refine ⟨trivial, ?_⟩
    intro hlen
    rw [hs.length] at hlen
    exact ((h hlen).tell rfl).change hs
  visit := fun L d c _ h => ⟨trivial, fun hlen => (h hlen).tell rfl⟩
  sends := by
    intro L d w data ret k sf timestamp r hs h
    obtain ⟨hid, hseq, -⟩ :=
      sf.sendto_numbers (d.rtpDatagram sf timestamp data) (UInt32.ofNat data.length) ret
    refine ⟨trivial, ?_⟩
    intro hlen
    rw [hs.unmoved.subflows, List.length_set] at hlen
    exact ((h hlen).sent hs.subflow hid hseq rfl rfl).change
      (.of_eq hs.unmoved.subflows hs.unmoved.nextId)
  sendsReport := by
    intro L d w k sf pkt r hs h
    refine ⟨trivial, ?_⟩
    intro hlen
    rw [hs.unmoved.subflows] at hlen
    exact ((h hlen).tell rfl).change (.of_eq hs.unmoved.subflows hs.unmoved.nextId)
  measure := by
    intro L d curtime h
    obtain ⟨hsf, hnext⟩ := d.measureStreamBitrate_numbers curtime
    refine ⟨trivial, ?_⟩
    intro hlen
    rw [hsf] at hlen
    exact ((h hlen).tell rfl).change (.of_eq hsf hnext)
  recalc := by
    intro L d sfs hsfs h
    refine ⟨trivial, ?_⟩
    intro hlen
    have hlen' : d.subflows.length ≤ 65535 := hsfs.length_eq.le.trans hlen
    exact ((h hlen').tell rfl).change (.reweighted hsfs false)
  connect := fun L d ssrc destAddr h hlen => (h hlen).change (.of_eq rfl rfl)
  addSubflow := by
    intro L d iface remote w h hlen
    have hlen' : d.subflows.length < 65535 := by
      unfold SenderData.addSubflow at hlen
      rw [List.length_append, List.length_singleton] at hlen
      omega
    exact (h hlen'.le).addSubflow hlen' iface remote w

variable {isPathValid : Endpoint → Endpoint → Bool} {timestampUnit : ℚ} {w : World}
  {H : List SenderEvent}

/-- In every run, the RTP packets of each subflow have consecutive numbers. -/
theorem run_consecutive {s : Sender} (hrun : Run (step isPathValid) (fun _ _ _ => True)
    (new timestampUnit w) H (some s)) (hlen : s.obj.subflows.length ≤ 65535) : Consecutive H s.obj := by
  have h₀ : Consecutive [] (new timestampUnit w).obj := by
    refine ⟨?_, rfl, ?_, fun _ => .nil, ?_⟩
    · intro k sf hk
      cases hk
    · intro data hdata
      cases hdata
    · intro sf hsf
      cases hsf
  exact keptByData_consecutive.run (fun _ => h₀) hrun hlen

end Sender

end Mprtp
