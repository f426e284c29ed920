import Mprtp.Receiver
import Mprtp.Session.Rules
import Mprtp.Stat.Numbers
import Mprtp.Lib.FirstSeen

/-! What a receiver knows, told by the packets its handlers were called with. -/
namespace Mprtp

/-- A packet that names a subflow of a source: the id, where it came from and whether it is an
RTP packet or a sender report. -/
structure Mention where
  id : UInt16
  addr : Endpoint
  rtp : Bool

/-- The mention that an RTP packet makes. -/
def rtpMention (pack : RtpPacket) : Mention := ⟨pack.subflowId, pack.fromAddress, true⟩

/-- The mention that a sender report on a subflow makes. -/
def srMention (pkt : RtcpSrPacket) (id : UInt16) : Mention := ⟨id, pkt.recvFrom, false⟩

def Call.mention (ssrc : UInt32) : Call → Option Mention
  | .rtp pkt _ => if pkt.ssrc = ssrc then some (rtpMention pkt) else none
  | .rtcp (.sr pkt id) _ =>
    if pkt.senderSsrc = ssrc ∧ id ≠ 0 then some (srMention pkt id) else none
  | .rtcp (.rr _ _ _) _ => none

theorem Call.mention_rtp (ssrc : UInt32) (pkt : RtpPacket) (i : ℕ) :
    (Call.rtp pkt i).mention ssrc = if pkt.ssrc = ssrc then some (rtpMention pkt) else none := rfl

theorem Call.mention_sr (ssrc : UInt32) (pkt : RtcpSrPacket) (id : UInt16) (i : ℕ) :
    (Call.rtcp (.sr pkt id) i).mention ssrc =
      if pkt.senderSsrc = ssrc ∧ id ≠ 0 then some (srMention pkt id) else none := rfl

theorem Call.mention_rr (ssrc : UInt32) (pkt : RtcpRrPacket) (id : UInt16) (s : UInt32) (i : ℕ) :
    (Call.rtcp (.rr pkt id s) i).mention ssrc = none := rfl

def ReceiverEvent.call? : ReceiverEvent → Option Call
  | .visit _ c => some c
  | _ => none

/-- The handler calls of a log, in order. -/
def callsOf (H : List ReceiverEvent) : List Call := H.filterMap ReceiverEvent.call?

/-- The mentions of subflows of the source `ssrc` in a log, in order. -/
def mentions (H : List ReceiverEvent) (ssrc : UInt32) : List Mention :=
  (callsOf H).filterMap (Call.mention ssrc)

/-- The ids of the subflows that RTP packets have mentioned. -/
def rtpIds (ms : List Mention) : List UInt16 := (ms.filter Mention.rtp).map Mention.id

theorem mentions_visit (H : List ReceiverEvent) (ssrc : UInt32) (d : ReceiverData) (c : Call) :
    mentions (H ++ [.visit d c]) ssrc = mentions H ssrc ++ (c.mention ssrc).toList := by
  unfold mentions callsOf
  rw [List.filterMap_append, List.filterMap_append]
  cases h : c.mention ssrc <;> simp [ReceiverEvent.call?, h]

theorem mentions_of_call?_none {H : List ReceiverEvent} {e : ReceiverEvent}
    (h : e.call? = none) (ssrc : UInt32) : mentions (H ++ [e]) ssrc = mentions H ssrc := by
  unfold mentions callsOf
  rw [List.filterMap_append]
  simp [h]

theorem mem_rtpIds_ids {ms : List Mention} {id : UInt16} (h : id ∈ rtpIds ms) :
    id ∈ ms.map Mention.id := by
  obtain ⟨m, hm, rfl⟩ := List.mem_map.mp h
  exact List.mem_map_of_mem (List.mem_of_mem_filter hm)

/-- The source is as the mentions `ms` leave it: one subflow for each id, in the order of their
first mention, the front one sent to where its first mention came from; the subflows with the
ids in `rs` have received data. -/
structure Source.Follows (src : Source) (ms : List Mention) (rs : List UInt16) : Prop where
  ids : src.subflows.map Subflow.subflowId = (ms.map Mention.id).eraseDups
  front : src.subflows.head?.map Subflow.remote = ms.head?.map Mention.addr
  received : ∀ sf ∈ src.subflows, sf.recvStat.receivedData = true ↔ sf.subflowId ∈ rs
  cycles : ∀ sf ∈ src.subflows, sf.recvStat.WholeCycles
  streamCycles : src.stat.WholeCycles

namespace Source.Follows

variable {src : Source} {ms : List Mention} {rs : List UInt16}

theorem new (ssrc senderSsrc : UInt32) : (Source.new ssrc senderSsrc).Follows [] [] where
  ids := by simp [Source.new]
  front := rfl
  received := by simp [Source.new]
  cycles := by simp [Source.new]
  streamCycles := rfl

theorem nodup (h : src.Follows ms rs) : (src.subflows.map Subflow.subflowId).Nodup := by
  rw [h.ids]
  exact List.nodup_eraseDups _

theorem id_mem_iff (h : src.Follows ms rs) {id : UInt16} :
    id ∈ ms.map Mention.id ↔ ∃ sf ∈ src.subflows, sf.subflowId = id := by
  rw [← List.mem_eraseDups, ← h.ids, List.mem_map]

/-- A subflow is there exactly when one was mentioned. -/
theorem subflows_eq_nil_iff (h : src.Follows ms rs) : src.subflows = [] ↔ ms = [] := by
  have hids : src.subflows.map Subflow.subflowId = [] ↔ ms.map Mention.id = [] := by
    rw [h.ids, List.eraseDups_eq_nil_iff]
  simpa only [List.map_eq_nil_iff] using hids

/-- Two subflows with one id are at one index. -/
theorem index_unique (h : src.Follows ms rs) {j k : ℕ} {sf sf' : Subflow}
    (hj : src.subflows[j]? = some sf) (hk : src.subflows[k]? = some sf')
    (hid : sf.subflowId = sf'.subflowId) : j = k := by
  have hlt : j < (src.subflows.map Subflow.subflowId).length := by
    rw [List.length_map]
    exact (List.getElem?_eq_some_iff.mp hj).1
  apply (List.getElem?_inj hlt h.nodup).mp
  rw [List.getElem?_map, List.getElem?_map, hj, hk]
  simp [hid]

/-- `find_subflow` with its side effect: the mentioned subflow is there afterwards. -/
theorem findSubflow (h : src.Follows ms rs) (hrs : ∀ id ∈ rs, id ∈ ms.map Mention.id)
    {m : Mention} {id : UInt16} {addr : Endpoint} (hid : m.id = id) (haddr : m.addr = addr)
    (iface : ℕ) (w : World) :
    let found := src.findSubflow id addr iface w
    found.2.1.Follows (ms ++ [m]) rs ∧
      ∃ sf, found.2.1.subflows[found.1]? = some sf ∧ sf.subflowId = id := by
  subst hid haddr
  unfold Source.findSubflow findSubflow?
  cases hfind : src.subflows.findIdx? fun sf => sf.subflowId = m.id with
  | some k =>
    obtain ⟨hk, hid, -⟩ := List.findIdx?_eq_some_iff_getElem.mp hfind
    have hid' : src.subflows[k].subflowId = m.id := by simpa using hid
    have hmem : m.id ∈ ms.map Mention.id :=
      h.id_mem_iff.mpr ⟨src.subflows[k], List.getElem_mem hk, hid'⟩
    have hne : ms ≠ [] := by
      intro h'
      obtain rfl := h'
      simp at hmem
    refine ⟨⟨?_, ?_, h.received, h.cycles, h.streamCycles⟩, _, List.getElem?_eq_getElem hk, hid'⟩
    · rw [List.map_append, List.map_singleton, List.eraseDups_concat_of_mem hmem]
      exact h.ids
    · rw [List.head?_append_of_ne_nil _ hne]
      exact h.front
  | none =>
    have hnone : ∀ sf ∈ src.subflows, sf.subflowId ≠ m.id := by
      simpa using List.findIdx?_eq_none_iff.mp hfind
    have hmem : m.id ∉ ms.map Mention.id := by
      intro hm
      obtain ⟨sf, hsf, hid⟩ := h.id_mem_iff.mp hm
      exact hnone sf hsf hid
    refine ⟨⟨?_, ?_, ?_, ?_, h.streamCycles⟩, (Subflow.new m.id iface m.addr w).1, ?_, rfl⟩
    · rw [List.map_append, List.map_append, List.map_singleton, List.map_singleton,
        List.eraseDups_concat_of_notMem hmem, h.ids]
      rfl
    · cases hsf : src.subflows with
      | nil =>
        rw [h.subflows_eq_nil_iff.mp hsf]
        rfl
      | cons sf sfs =>
        have hne : ms ≠ [] := by
          intro hms
          rw [h.subflows_eq_nil_iff.mpr hms] at hsf
          cases hsf
        rw [List.head?_append_of_ne_nil _ hne, ← h.front, hsf]
        rfl
    · intro sf hsf
      rcases List.mem_append.mp hsf with hsf | hsf
      · exact h.received sf hsf
      · obtain rfl := List.mem_singleton.mp hsf
        exact iff_of_false (by simp [Subflow.new]) (fun hr => hmem (hrs _ hr))
    · intro sf hsf
      rcases List.mem_append.mp hsf with hsf | hsf
      · exact h.cycles sf hsf
      · obtain rfl := List.mem_singleton.mp hsf
        rfl
    · simp [Subflow.new]

/-- A change of the subflow at one index that leaves its id and its address as they are. -/
theorem set (h : src.Follows ms rs) {rs' : List UInt16} {k : ℕ} {sf sf' : Subflow}
    (hk : src.subflows[k]? = some sf) (hid : sf'.subflowId = sf.subflowId)
    (hremote : sf'.remote = sf.remote) (hcycles : sf'.recvStat.WholeCycles)
    (hrecv : sf'.recvStat.receivedData = true ↔ sf.subflowId ∈ rs')
    (hrest : ∀ id, id ≠ sf.subflowId → (id ∈ rs' ↔ id ∈ rs)) :
    { src with subflows := src.subflows.set k sf' }.Follows ms rs' := by
  have hlt : k < src.subflows.length := (List.getElem?_eq_some_iff.mp hk).1
  have hget : ∀ j, (src.subflows.set k sf')[j]? = if k = j then some sf' else src.subflows[j]? := by
    intro j
    rw [List.getElem?_set]
    by_cases hkj : k = j
    · rw [if_pos hkj, if_pos hkj, if_pos (hkj ▸ hlt)]
    · rw [if_neg hkj, if_neg hkj]
  have hmem : ∀ sf₀ ∈ src.subflows.set k sf', sf₀ = sf' ∨
      sf₀ ∈ src.subflows ∧ sf₀.subflowId ≠ sf.subflowId := by
    intro sf₀ h₀
    obtain ⟨j, hj⟩ := List.mem_iff_getElem?.mp h₀
    rw [hget] at hj
    by_cases hkj : k = j
    · rw [if_pos hkj] at hj
      exact Or.inl (Option.some.inj hj).symm
    · rw [if_neg hkj] at hj
      exact Or.inr ⟨List.mem_of_getElem? hj, fun he => hkj (h.index_unique hk hj he.symm)⟩
  refine ⟨?_, ?_, ?_, ?_, h.streamCycles⟩
  · rw [← h.ids]
    apply List.ext_getElem?
    intro j
    rw [List.getElem?_map, List.getElem?_map, hget]
    by_cases hkj : k = j
    · subst hkj
      rw [if_pos rfl, hk, Option.map_some, Option.map_some, hid]
    · rw [if_neg hkj]
  · rw [← h.front, List.head?_eq_getElem?, List.head?_eq_getElem?, hget]
    by_cases hk0 : k = 0
    · subst hk0
      rw [if_pos rfl, hk, Option.map_some, Option.map_some, hremote]
    · rw [if_neg hk0]
  · intro sf₀ h₀
    rcases hmem sf₀ h₀ with rfl | ⟨h₀, hne⟩
    · rw [hid]
      exact hrecv
    · rw [hrest _ hne]
      exact h.received sf₀ h₀
  · intro sf₀ h₀
    rcases hmem sf₀ h₀ with rfl | ⟨h₀, -⟩
    · exact hcycles
    · exact h.cycles sf₀ h₀

/-- A change outside the subflows and the cycles of the stream. -/
theorem congr (h : src.Follows ms rs) {src' : Source} (hsf : src'.subflows = src.subflows)
    (hstat : src'.stat.WholeCycles) : src'.Follows ms rs where
  ids := hsf ▸ h.ids
  front := hsf ▸ h.front
  received := hsf ▸ h.received
  cycles := hsf ▸ h.cycles
  streamCycles := hstat

/-- The numbers that a packet has after `process_packet`, against those it came with: the
first packet of a subflow has lost its sequence number to the one of the subflow. -/
structure Numbered (rs : List UInt16) (pack pack' : RtpPacket) : Prop where
  rawpack : pack'.rawpack = pack.rawpack
  subflowNumber : pack'.subflowSequenceNumber = pack.subflowSequenceNumber
  number : pack'.sequenceNumber =
    if pack.subflowId ∈ rs then pack.sequenceNumber else pack.subflowSequenceNumber

theorem processOnSubflow (h : src.Follows ms rs) (hrs : ∀ id ∈ rs, id ∈ ms.map Mention.id)
    (pack : RtpPacket) (tsunit : ℚ) (iface : ℕ) (w : World) :
    let r := src.processOnSubflow pack tsunit iface w
    r.2.1.Follows (ms ++ [rtpMention pack]) (rs ++ [pack.subflowId]) ∧ Numbered rs pack r.1 := by
  have hid : (rtpMention pack).id = pack.subflowId := rfl
  have haddr : (rtpMention pack).addr = pack.fromAddress := rfl
  obtain ⟨hf, sf, hget, hsf⟩ := h.findSubflow hrs hid haddr iface w
  unfold Source.processOnSubflow
  generalize src.findSubflow pack.subflowId pack.fromAddress iface w = found at hf hget ⊢
  obtain ⟨k, src₁, w₁⟩ := found
  dsimp only at hf hget ⊢
  rw [hget]
  have hc := hf.cycles sf (List.mem_of_getElem? hget)
  have hr := hf.received sf (List.mem_of_getElem? hget)
  rw [hsf] at hr
  obtain ⟨ext, subflowExt, hpack⟩ := sf.recvStat.processPacket_pack pack true tsunit
  have hc' : (sf.processRtpPacket pack tsunit).1.recvStat.WholeCycles :=
    hc.processPacket pack true tsunit
  have hr' : (sf.processRtpPacket pack tsunit).1.recvStat.receivedData = true :=
    SourceStats.processPacket_receivedData pack true tsunit
  refine ⟨?_, ?_, ?_, ?_⟩
  · refine hf.set hget rfl rfl hc' ?_ ?_
    · rw [hsf, hr']
      simp
    · intro id hid
      rw [hsf] at hid
      simp [hid]
  · change (sf.recvStat.processPacket pack true tsunit).2.rawpack = _
    rw [hpack]
  · change (sf.recvStat.processPacket pack true tsunit).2.subflowSequenceNumber = _
    cases hd : sf.recvStat.receivedData with
    | true => exact (SourceStats.processPacket_subflow pack tsunit hc hd).2
    | false => exact (SourceStats.processPacket_subflow_first pack tsunit hd).2
  · change (sf.recvStat.processPacket pack true tsunit).2.sequenceNumber = _
    by_cases hd : pack.subflowId ∈ rs
    · rw [if_pos hd]
      exact (SourceStats.processPacket_subflow pack tsunit hc (hr.mpr hd)).1
    · rw [if_neg hd]
      have hd' : sf.recvStat.receivedData = false := Bool.eq_false_iff.mpr (mt hr.mp hd)
      exact (SourceStats.processPacket_subflow_first pack tsunit hd').1

theorem processPacket (h : src.Follows ms rs) (hrs : ∀ id ∈ rs, id ∈ ms.map Mention.id)
    (pack : RtpPacket) (tsunit : ℚ) (iface : ℕ) (w : World) :
    let r := src.processPacket pack tsunit iface w
    r.2.1.Follows (ms ++ [rtpMention pack]) (rs ++ [pack.subflowId]) ∧ Numbered rs pack r.1 := by
  obtain ⟨ext, subflowExt, hpack⟩ := src.stat.processPacket_pack pack false tsunit
  obtain ⟨hseq, hsub⟩ := SourceStats.processPacket_stream pack tsunit h.streamCycles
  have hstat := h.streamCycles.processPacket pack false tsunit
  unfold Source.processPacket
  generalize src.stat.processPacket pack false tsunit = r₀ at hpack hseq hsub hstat ⊢
  obtain ⟨stat, pack₀⟩ := r₀
  dsimp only at hpack hseq hsub hstat ⊢
  have hid : pack₀.subflowId = pack.subflowId := by rw [hpack]
  have hraw : pack₀.rawpack = pack.rawpack := by rw [hpack]
  have hmention : rtpMention pack₀ = rtpMention pack := by
    unfold rtpMention RtpPacket.fromAddress
    rw [hid, hraw]
  have hsubseq : pack₀.subflowSequenceNumber = pack.subflowSequenceNumber := by
    unfold RtpPacket.subflowSequenceNumber
    rw [hsub]
  have h₀ : { src with stat }.Follows ms rs := h.congr rfl hstat
  obtain ⟨hf, hn⟩ := h₀.processOnSubflow hrs pack₀ tsunit iface w
  rw [hmention, hid] at hf
  generalize { src with stat }.processOnSubflow pack₀ tsunit iface w = r₁ at hf hn ⊢
  obtain ⟨pack₁, src₁, w₁⟩ := r₁
  dsimp only at hf hn ⊢
  have hn' : Numbered rs pack pack₁ := by
    refine ⟨hn.rawpack.trans hraw, hn.subflowNumber.trans hsubseq, ?_⟩
    rw [hn.number, hid, hseq, hsubseq]
  split
  · exact ⟨hf.congr rfl hf.streamCycles, hn'⟩
  · exact ⟨hf, hn'⟩

theorem processSrPacket (h : src.Follows ms rs) (hrs : ∀ id ∈ rs, id ∈ ms.map Mention.id)
    (pkt : RtcpSrPacket) (id : UInt16) (iface : ℕ) (w : World) :
    (src.processSrPacket pkt id iface w).1.Follows
      (ms ++ if id = 0 then [] else [srMention pkt id]) rs := by
  unfold Source.processSrPacket
  by_cases hz : id = 0
  · rw [if_pos hz, if_pos hz, List.append_nil]
    exact h.congr rfl h.streamCycles
  · rw [if_neg hz, if_neg hz]
    have hid : (srMention pkt id).id = id := rfl
    have haddr : (srMention pkt id).addr = pkt.recvFrom := rfl
    obtain ⟨hf, sf, hget, -⟩ := h.findSubflow hrs hid haddr iface w
    generalize src.findSubflow id pkt.recvFrom iface w = found at hf hget ⊢
    obtain ⟨k, src₁, w₁⟩ := found
    dsimp only at hf hget ⊢
    rw [hget]
    have hmem := List.mem_of_getElem? hget
    exact hf.set hget rfl rfl (hf.cycles sf hmem) (hf.received sf hmem) fun _ _ => Iff.rfl

end Source.Follows

end Mprtp
