import Mprtp.Receiver.Runs
import Mprtp.Stat.Flow

/-! The statistics that a receiver keeps of each subflow of each SSRC, and what changes them. -/
namespace Mprtp

/-- Replacing the first subflow with an id by one with the same id. -/
theorem find?_set_subflow {sfs : List Subflow} {k : ℕ} {id : UInt16} {sf' : Subflow}
    (hk : sfs.findIdx? (fun sf => sf.subflowId = id) = some k) (hid : sf'.subflowId = id)
    (j : UInt16) : (sfs.set k sf').find? (fun sf => sf.subflowId = j) =
      if j = id then some sf' else sfs.find? fun sf => sf.subflowId = j := by
  induction sfs generalizing k with
  | nil => simp at hk
  | cons sf sfs ih =>
    rw [List.findIdx?_cons] at hk
    by_cases hsf : sf.subflowId = id
    · rw [if_pos (by simpa using hsf)] at hk
      cases hk
      rw [List.set_cons_zero, List.find?_cons, List.find?_cons, hid, hsf]
      by_cases hj : j = id
      · simp [hj]
      · simp [hj, Ne.symm hj]
    · rw [if_neg (by simpa using hsf)] at hk
      obtain ⟨k', hk', rfl⟩ := Option.map_eq_some_iff.mp hk
      rw [List.set_cons_succ, List.find?_cons, List.find?_cons, ih hk']
      by_cases hj : j = id
      · subst hj
        simp [hsf]
      · simp [hj]

namespace Source

variable (src : Source)

/-- The statistics of the subflow with an id; a subflow that is not there has none yet. -/
def statOf (id : UInt16) : SourceStats :=
  ((src.subflows.find? fun sf => sf.subflowId = id).map Subflow.recvStat).getD {}

/-- The statistics of the subflow with an id, if it is there. -/
def findStat (id : UInt16) : Option SourceStats :=
  (src.subflows.find? fun sf => sf.subflowId = id).map Subflow.recvStat

theorem statOf_eq_getD (id : UInt16) : src.statOf id = (src.findStat id).getD {} := rfl

theorem findSubflow_stat (id : UInt16) (addr : Endpoint) (iface : ℕ) (w : World) :
    let found := src.findSubflow id addr iface w
    (∀ j, found.2.1.findStat j = if j = id then some (src.statOf id) else src.findStat j) ∧
      found.2.1.findSubflow? id = some found.1 ∧
      ∃ sf, found.2.1.subflows[found.1]? = some sf ∧ sf.subflowId = id ∧
        sf.recvStat = src.statOf id := by
  unfold findSubflow
  cases hfind : src.findSubflow? id with
  | some k =>
    obtain ⟨hk, hid, hbefore⟩ := List.findIdx?_eq_some_iff_getElem.mp hfind
    have hfirst : src.subflows.find? (fun sf => sf.subflowId = id) = some src.subflows[k] := by
      rw [List.find?_eq_some_iff_getElem]
      exact ⟨hid, k, hk, rfl, fun j hj => by simpa using hbefore j hj⟩
    have hstat : src.findStat id = some (src.statOf id) := by
      unfold statOf findStat
      rw [hfirst]
      rfl
    refine ⟨?_, hfind, src.subflows[k], List.getElem?_eq_getElem hk, by simpa using hid, ?_⟩
    · intro j
      dsimp only
      by_cases hj : j = id
      · rw [if_pos hj, hj, hstat]
      · rw [if_neg hj]
    · unfold statOf
      rw [hfirst]
      rfl
  | none =>
    have hnone : ∀ sf ∈ src.subflows, sf.subflowId ≠ id := by
      simpa [findSubflow?] using hfind
    have habsent : src.subflows.find? (fun sf => sf.subflowId = id) = none := by
      simpa using hnone
    have hnew : src.statOf id = {} := by
      unfold statOf
      rw [habsent]
      rfl
    dsimp only
    refine ⟨?_, ?_, _, List.getElem?_concat_length, rfl, hnew.symm⟩
    · intro j
      unfold findStat
      rw [List.find?_append, List.find?_singleton]
      by_cases hj : j = id
      · rw [if_pos hj, hj, habsent, hnew, Option.none_or, if_pos (by simp [Subflow.new])]
        rfl
      · rw [if_neg hj, if_neg (by simpa [Subflow.new] using Ne.symm hj), Option.or_none]
    · unfold findSubflow?
      have hfind' : src.subflows.findIdx? (fun sf => sf.subflowId = id) = none := hfind
      rw [List.findIdx?_append, hfind', Option.none_or, List.findIdx?_cons,
        if_pos (by simp [Subflow.new])]
      simp

theorem findStat_set {k : ℕ} {id : UInt16} {sf' : Subflow} (hk : src.findSubflow? id = some k)
    (hid : sf'.subflowId = id) (j : UInt16) :
    { src with subflows := src.subflows.set k sf' }.findStat j =
      if j = id then some sf'.recvStat else src.findStat j := by
  unfold findStat
  rw [find?_set_subflow hk hid]
  split <;> rfl

theorem processOnSubflow_findStat (pack : RtpPacket) (tsunit : ℚ) (iface : ℕ) (w : World)
    (j : UInt16) : (src.processOnSubflow pack tsunit iface w).2.1.findStat j =
      if j = pack.subflowId then some ((src.statOf j).processPacket pack true tsunit).1
      else src.findStat j := by
  obtain ⟨hstat, hfind, sf, hget, hid, hsf⟩ :=
    src.findSubflow_stat pack.subflowId pack.fromAddress iface w
  unfold processOnSubflow
  generalize src.findSubflow pack.subflowId pack.fromAddress iface w = found at hstat hfind hget ⊢
  obtain ⟨k, src₁, w₁⟩ := found
  dsimp only at hstat hfind hget ⊢
  rw [hget]
  dsimp only
  have hid' : (sf.processRtpPacket pack tsunit).1.subflowId = pack.subflowId := hid
  have hrecv : (sf.processRtpPacket pack tsunit).1.recvStat =
      (sf.recvStat.processPacket pack true tsunit).1 := rfl
  rw [src₁.findStat_set hfind hid', hstat, hrecv, hsf]
  split
  · rename_i hj
    rw [hj]
  · rfl

/-- An RTP packet changes the statistics of its subflow only. -/
theorem processPacket_findStat (pack : RtpPacket) (tsunit : ℚ) (iface : ℕ) (w : World) (j : UInt16) :
    (src.processPacket pack tsunit iface w).2.1.findStat j =
      if j = pack.subflowId then some ((src.statOf j).processPacket pack true tsunit).1
      else src.findStat j := by
  obtain ⟨ext, hpack⟩ := src.stat.processPacket_stream_pack pack tsunit
  unfold processPacket
  generalize src.stat.processPacket pack false tsunit = r₀ at hpack ⊢
  obtain ⟨stat, pack₀⟩ := r₀
  dsimp only at hpack ⊢
  subst hpack
  have hstat := { src with stat }.processOnSubflow_findStat { pack with extseqnr := ext } tsunit iface w j
  rw [SourceStats.processPacket_extseqnr] at hstat
  generalize { src with stat }.processOnSubflow { pack with extseqnr := ext } tsunit iface w = r₁
    at hstat ⊢
  obtain ⟨pack₁, src₁, w₁⟩ := r₁
  dsimp only at hstat ⊢
  split <;> exact hstat

theorem processPacket_stat (pack : RtpPacket) (tsunit : ℚ) (iface : ℕ) (w : World) (j : UInt16) :
    (src.processPacket pack tsunit iface w).2.1.statOf j =
      if j = pack.subflowId then ((src.statOf j).processPacket pack true tsunit).1
      else src.statOf j := by
  rw [statOf_eq_getD, processPacket_findStat]
  split <;> rfl

theorem processSrPacket_stat (pkt : RtcpSrPacket) (id : UInt16) (iface : ℕ) (w : World)
    (j : UInt16) : (src.processSrPacket pkt id iface w).1.statOf j = src.statOf j := by
  unfold processSrPacket
  split
  · rfl
  · obtain ⟨hstat, hfind, sf, hget, hid, hsf⟩ := src.findSubflow_stat id pkt.recvFrom iface w
    generalize src.findSubflow id pkt.recvFrom iface w = found at hstat hfind hget ⊢
    obtain ⟨k, src₁, w₁⟩ := found
    dsimp only at hstat hfind hget ⊢
    rw [hget]
    dsimp only
    have hid' : (sf.processSrPacket pkt).subflowId = id := hid
    have hrecv : (sf.processSrPacket pkt).recvStat = sf.recvStat := rfl
    rw [statOf_eq_getD, src₁.findStat_set hfind hid', hstat, hrecv, hsf]
    split
    · rename_i hj
      rw [hj]
      rfl
    · rfl

/-- A report starts a new interval of every subflow. -/
theorem reported_stat (j : UInt16) : src.reported.statOf j = (src.statOf j).startNewInterval := by
  unfold statOf
  rw [find?_reported]
  cases src.subflows.find? fun sf => sf.subflowId = j with
  | none => rfl
  | some sf => rfl

variable {src} {src' : Source}

theorem Polled.stat (h : src.Polled src') (j : UInt16) : (src.statOf j).Same (src'.statOf j) := by
  rcases h with rfl | rfl
  · exact .refl _
  · rw [src.reported_stat]
    exact ⟨rfl, rfl, rfl⟩

/-- A subflow that is there has the statistics of its id. -/
theorem Follows.statOf_eq {ms : List Mention} {rs : List UInt16} {src : Source}
    (h : src.Follows ms rs) {sf : Subflow} (hsf : sf ∈ src.subflows) :
    src.statOf sf.subflowId = sf.recvStat := by
  obtain ⟨k, hk⟩ := List.getElem?_of_mem hsf
  unfold statOf
  cases hfind : src.subflows.find? fun sf' => sf'.subflowId = sf.subflowId with
  | none =>
    have hne := List.find?_eq_none.mp hfind sf hsf
    simp at hne
  | some sf' =>
    have hid : sf'.subflowId = sf.subflowId := by simpa using List.find?_some hfind
    obtain ⟨k', hk'⟩ := List.getElem?_of_mem (List.mem_of_find?_eq_some hfind)
    have hkk := h.index_unique hk' hk hid
    subst hkk
    rw [hk] at hk'
    cases hk'
    rfl

end Source

namespace ReceiverData

/-- The statistics of a subflow of an SSRC. -/
def statAt (d : ReceiverData) (ssrc : UInt32) (id : UInt16) : SourceStats :=
  (d.getSource ssrc).statOf id

variable {d : ReceiverData}

theorem getSource_setSource (h : Keyed.Ordered Source.key d.sources) (src : Source)
    (ssrc : UInt32) : (d.setSource src).getSource ssrc =
      if ssrc = src.ssrc then src else d.getSource ssrc := by
  unfold getSource setSource
  dsimp only
  rw [h.find?_insert src ssrc.toNat]
  by_cases hs : ssrc = src.ssrc
  · have hkey : ssrc.toNat = src.key := congrArg UInt32.toNat hs
    rw [if_pos hkey, if_pos hs]
    rfl
  · have hkey : ssrc.toNat ≠ src.key := fun he => hs (UInt32.toNat_inj.mp he)
    rw [if_neg hkey, if_neg hs]

/-- Storing a source that is there replaces it in its place. -/
theorem setSource_replace {src src' : Source} {before after : List Source}
    (h : Keyed.Ordered Source.key d.sources) (hd : d.sources = before ++ src :: after)
    (hssrc : src'.ssrc = src.ssrc) :
    { d with sources := before ++ src' :: after } = d.setSource src' := by
  rw [hd] at h
  have hkey : src'.key = src.key := congrArg UInt32.toNat hssrc
  unfold setSource
  rw [hd, h.insert_replace hkey]

/-- A source that is there is found. -/
theorem getSource_of_mem (h : Keyed.Ordered Source.key d.sources) {src : Source}
    (hsrc : src ∈ d.sources) : d.getSource src.ssrc = src := by
  have hfind := h.find?_eq_some hsrc
  unfold getSource
  change (Keyed.find? Source.key src.key d.sources).getD _ = src
  rw [hfind]
  rfl

/-- The statistics of a subflow of an SSRC, if it is there. -/
def findStat (d : ReceiverData) (ssrc : UInt32) (id : UInt16) : Option SourceStats :=
  (d.getSource ssrc).findStat id

theorem statAt_eq_getD (ssrc : UInt32) (id : UInt16) :
    d.statAt ssrc id = (d.findStat ssrc id).getD {} := rfl

theorem onRtpPacket_findStat (h : Keyed.Ordered Source.key d.sources) (w : World) (pkt : RtpPacket)
    (iface : ℕ) (ssrc : UInt32) (id : UInt16) :
    (d.onRtpPacket w pkt iface).2.2.1.findStat ssrc id =
      if ssrc = pkt.ssrc ∧ id = pkt.subflowId then
        some ((d.statAt ssrc id).processPacket pkt true d.timestampUnit).1
      else d.findStat ssrc id := by
  have hstat := (d.getSource pkt.ssrc).processPacket_findStat pkt d.timestampUnit iface w id
  have hssrc : ((d.getSource pkt.ssrc).processPacket pkt d.timestampUnit iface w).2.1.ssrc =
      pkt.ssrc := by
    rw [Source.processPacket_ssrc, d.getSource_ssrc]
  unfold onRtpPacket findStat statAt
  generalize (d.getSource pkt.ssrc).processPacket pkt d.timestampUnit iface w = r at hstat hssrc ⊢
  obtain ⟨pkt', src, w'⟩ := r
  dsimp only at hstat hssrc ⊢
  rw [getSource_setSource h, hssrc]
  by_cases hs : ssrc = pkt.ssrc
  · rw [if_pos hs, hstat, hs]
    simp only [true_and]
  · rw [if_neg hs, if_neg fun hc => hs hc.1]

theorem onRtpPacket_stat (h : Keyed.Ordered Source.key d.sources) (w : World) (pkt : RtpPacket)
    (iface : ℕ) (ssrc : UInt32) (id : UInt16) :
    (d.onRtpPacket w pkt iface).2.2.1.statAt ssrc id =
      if ssrc = pkt.ssrc ∧ id = pkt.subflowId then
        ((d.statAt ssrc id).processPacket pkt true d.timestampUnit).1
      else d.statAt ssrc id := by
  rw [statAt_eq_getD, onRtpPacket_findStat h]
  split <;> rfl

theorem onRtcpSrPacket_stat (h : Keyed.Ordered Source.key d.sources) (w : World)
    (pkt : RtcpSrPacket) (subflowId : UInt16) (iface : ℕ) (ssrc : UInt32) (id : UInt16) :
    (d.onRtcpSrPacket w pkt subflowId iface).1.statAt ssrc id = d.statAt ssrc id := by
  have hstat := (d.getSource pkt.senderSsrc).processSrPacket_stat pkt subflowId iface w id
  have hssrc : ((d.getSource pkt.senderSsrc).processSrPacket pkt subflowId iface w).1.ssrc =
      pkt.senderSsrc := by
    rw [Source.processSrPacket_ssrc, d.getSource_ssrc]
  unfold onRtcpSrPacket statAt
  generalize (d.getSource pkt.senderSsrc).processSrPacket pkt subflowId iface w = r at hstat hssrc ⊢
  obtain ⟨src, w'⟩ := r
  dsimp only at hstat hssrc ⊢
  rw [getSource_setSource h, hssrc]
  by_cases hs : ssrc = pkt.senderSsrc
  · rw [if_pos hs, hstat, hs]
  · rw [if_neg hs]

/-- Polling the sources starts new intervals at most. -/
theorem statAt_polled {srcs : List Source} (hs : d.sources.Forall₂ Source.Polled srcs)
    (ssrc : UInt32) (id : UInt16) :
    (d.statAt ssrc id).Same ({ d with sources := srcs }.statAt ssrc id) := by
  have hrel : Option.Rel Source.Polled (Keyed.find? Source.key ssrc.toNat d.sources)
      (Keyed.find? Source.key ssrc.toNat srcs) :=
    Keyed.find?_forall₂ (fun _ _ hp => congrArg UInt32.toNat hp.ssrc) hs ssrc.toNat
  unfold statAt getSource
  dsimp only
  generalize Keyed.find? Source.key ssrc.toNat d.sources = found at hrel ⊢
  generalize Keyed.find? Source.key ssrc.toNat srcs = found' at hrel ⊢
  cases hrel with
  | some hp => exact hp.stat id
  | none => exact .refl _

end ReceiverData

end Mprtp
