import Mprtp.Receiver.Reports
import Mprtp.Receiver.Stats
import Mprtp.Lib.Sums
import Mprtp.Stat.Intervals

/-! The subflows that a receiver knows of a source, and the packets counted on both levels. -/
namespace Mprtp

namespace Source

/-- The number of packets that the subflows have received, by their statistics. -/
def receivedOnSubflows (src : Source) : ℕ :=
  (src.subflows.map fun sf => sf.recvStat.packetsReceived.toNat).sum

/-- By its statistics the stream has received as many packets as its subflows, modulo 2^32. -/
def Counts (src : Source) : Prop :=
  src.stat.packetsReceived.toNat = src.receivedOnSubflows % 2 ^ 32

variable {src : Source}

theorem counts_new (ssrc senderSsrc : UInt32) : (Source.new ssrc senderSsrc).Counts := rfl

/-- A subflow that is created has received nothing. -/
theorem findSubflow_received (src : Source) (id : UInt16) (addr : Endpoint) (iface : ℕ) (w : World) :
    let found := src.findSubflow id addr iface w
    found.2.1.stat = src.stat ∧ found.2.1.receivedOnSubflows = src.receivedOnSubflows ∧
      found.2.1.lastReceiverReportTime = src.lastReceiverReportTime := by
  unfold findSubflow
  split
  · exact ⟨rfl, rfl, rfl⟩
  · refine ⟨rfl, ?_, rfl⟩
    have hnew : (Subflow.new id iface addr w).1.recvStat.packetsReceived = 0 := rfl
    unfold receivedOnSubflows
    dsimp only
    rw [List.map_append, List.map_singleton, List.sum_append, List.sum_singleton, hnew]
    rfl

/-- Replacing a subflow by one that has received `n` packets more. -/
theorem receivedOnSubflows_set {k : ℕ} {sf : Subflow} (hk : src.subflows[k]? = some sf) (sf' : Subflow) :
    { src with subflows := src.subflows.set k sf' }.receivedOnSubflows +
        sf.recvStat.packetsReceived.toNat =
      src.receivedOnSubflows + sf'.recvStat.packetsReceived.toNat :=
  sum_map_set (fun sf => sf.recvStat.packetsReceived.toNat) hk

/-- A packet on a subflow is one more received on the subflows. -/
theorem processOnSubflow_received (src : Source) (pack : RtpPacket) (tsunit : ℚ) (iface : ℕ)
    (w : World) : let r := src.processOnSubflow pack tsunit iface w
    r.2.1.stat = src.stat ∧
      r.2.1.receivedOnSubflows % 2 ^ 32 = (src.receivedOnSubflows + 1) % 2 ^ 32 := by
  obtain ⟨hstat, hreceived, -⟩ := src.findSubflow_received pack.subflowId pack.fromAddress iface w
  obtain ⟨-, -, sf, hget, -, -⟩ := src.findSubflow_stat pack.subflowId pack.fromAddress iface w
  unfold processOnSubflow
  generalize src.findSubflow pack.subflowId pack.fromAddress iface w = found at hstat hreceived hget ⊢
  obtain ⟨k, src₁, w₁⟩ := found
  dsimp only at hstat hreceived hget ⊢
  rw [hget]
  refine ⟨hstat, ?_⟩
  have hone : (sf.processRtpPacket pack tsunit).1.recvStat.packetsReceived.toNat =
      (sf.recvStat.packetsReceived.toNat + 1) % 2 ^ 32 := by
    have hnext := sf.recvStat.processPacket_packetsReceived pack true tsunit
    change (sf.recvStat.processPacket pack true tsunit).1.packetsReceived.toNat = _
    rw [hnext, UInt32.toNat_add, UInt32.toNat_one]
  have hset := receivedOnSubflows_set hget (sf.processRtpPacket pack tsunit).1
  rw [hone, hreceived] at hset
  dsimp only
  omega

/-- An RTP packet is counted on both levels. -/
theorem Counts.processPacket (h : src.Counts) (pack : RtpPacket) (tsunit : ℚ) (iface : ℕ) (w : World) :
    (src.processPacket pack tsunit iface w).2.1.Counts := by
  have hstat := src.stat.processPacket_packetsReceived pack false tsunit
  unfold Source.processPacket
  generalize src.stat.processPacket pack false tsunit = r₀ at hstat ⊢
  obtain ⟨stat, pack₀⟩ := r₀
  obtain ⟨hstat₁, hreceived⟩ := { src with stat }.processOnSubflow_received pack₀ tsunit iface w
  dsimp only at hstat hstat₁ hreceived ⊢
  generalize { src with stat }.processOnSubflow pack₀ tsunit iface w = r₁ at hstat₁ hreceived ⊢
  obtain ⟨pack₁, src₁, w₁⟩ := r₁
  dsimp only at hstat₁ hreceived ⊢
  have hcounts : src₁.Counts := by
    have hsame : { src with stat }.receivedOnSubflows = src.receivedOnSubflows := rfl
    unfold Counts at h ⊢
    rw [hsame] at hreceived
    rw [hstat₁, hstat, UInt32.toNat_add, UInt32.toNat_one, hreceived, h]
    omega
  split
  · exact hcounts
  · exact hcounts

/-- A sender report is counted on neither. -/
theorem Counts.processSrPacket (h : src.Counts) (pkt : RtcpSrPacket) (id : UInt16) (iface : ℕ)
    (w : World) : (src.processSrPacket pkt id iface w).1.Counts := by
  unfold Source.processSrPacket
  split
  · exact h
  · obtain ⟨hstat, hreceived, -⟩ := src.findSubflow_received id pkt.recvFrom iface w
    obtain ⟨-, -, sf, hget, -, -⟩ := src.findSubflow_stat id pkt.recvFrom iface w
    generalize src.findSubflow id pkt.recvFrom iface w = found at hstat hreceived hget ⊢
    obtain ⟨k, src₁, w₁⟩ := found
    dsimp only at hstat hreceived hget ⊢
    rw [hget]
    have hset := receivedOnSubflows_set hget (sf.processSrPacket pkt)
    have hsame : (sf.processSrPacket pkt).recvStat = sf.recvStat := rfl
    rw [hsame, hreceived] at hset
    unfold Counts at h ⊢
    rw [Nat.add_right_cancel hset]
    change src₁.stat.packetsReceived.toNat = _
    rw [hstat, h]

theorem Counts.reported (h : src.Counts) : src.reported.Counts := by
  have hmap : src.reported.receivedOnSubflows = src.receivedOnSubflows := by
    unfold receivedOnSubflows Source.reported
    rw [List.map_map]
    rfl
  unfold Counts
  rw [hmap]
  exact h

theorem Counts.polled {src' : Source} (h : src.Counts) (hp : src.Polled src') : src'.Counts := by
  rcases hp with rfl | rfl
  · exact h
  · exact h.reported

end Source

/-- The call is for an RTP packet of the source `ssrc` that carries the subflow id, or for a sender
report of that source on the subflow. -/
def Call.Names (ssrc : UInt32) (id : UInt16) : Call → Prop
  | .rtp pkt _ => pkt.ssrc = ssrc ∧ pkt.subflowId = id
  | .rtcp (.sr pkt subflowId) _ => pkt.senderSsrc = ssrc ∧ subflowId = id ∧ id ≠ 0
  | .rtcp (.rr _ _ _) _ => False

theorem Call.names_iff (c : Call) {ssrc : UInt32} {id : UInt16} :
    c.Names ssrc id ↔ ∃ m, c.mention ssrc = some m ∧ m.id = id := by
  unfold Call.Names Call.mention
  cases c with
  | rtp pkt i =>
    by_cases hs : pkt.ssrc = ssrc
    · simp [hs, rtpMention]
    · simp [hs]
  | rtcp call i =>
    cases call with
    | sr pkt k =>
      dsimp only
      by_cases hs : pkt.senderSsrc = ssrc ∧ k ≠ 0
      · rw [if_pos hs]
        constructor
        · intro h
          exact ⟨_, rfl, h.2.1⟩
        · intro h
          obtain ⟨m, hm, hid⟩ := h
          cases hm
          have hk : k = id := hid
          exact ⟨hs.1, hk, hk ▸ hs.2⟩
      · rw [if_neg hs]
        constructor
        · intro h
          obtain ⟨hssrc, rfl, hid⟩ := h
          exact absurd ⟨hssrc, hid⟩ hs
        · intro h
          obtain ⟨m, hm, -⟩ := h
          cases hm
    | rr pkt k s => simp

theorem mem_mention_ids {H : List ReceiverEvent} {ssrc : UInt32} {id : UInt16} :
    id ∈ (mentions H ssrc).map Mention.id ↔ ∃ c ∈ callsOf H, c.Names ssrc id := by
  simp only [mentions, List.mem_map, List.mem_filterMap, Call.names_iff]
  constructor
  · intro h
    obtain ⟨m, ⟨c, hc, hm⟩, hid⟩ := h
    exact ⟨c, hc, m, hm, hid⟩
  · intro h
    obtain ⟨c, hc, m, hm, hid⟩ := h
    exact ⟨m, ⟨c, hc, hm⟩, hid⟩

/-- A source knows each subflow that was named once, and no other; the packets it has received are
those that its subflows have received, modulo 2^32. -/
structure Source.Accounted (src : Source) (calls : List Call) : Prop where
  distinct : (src.subflows.map Subflow.subflowId).Nodup
  named : ∀ id, (∃ sf ∈ src.subflows, sf.subflowId = id) ↔ ∃ c ∈ calls, c.Names src.ssrc id
  counts : src.stat.packetsReceived.toNat =
    (src.subflows.map fun sf => sf.recvStat.packetsReceived.toNat).sum % 2 ^ 32

namespace ReceiverData

variable {d : ReceiverData} {H : List ReceiverEvent}

/-- Every source counts, with what the receiver has been told. -/
structure Counting (H : List ReceiverEvent) (d : ReceiverData) (packets : List RtpPacket) : Prop where
  invariant : Receiver.Invariant H d packets
  counts : ∀ src ∈ d.sources, src.Counts

theorem Counting.accounted {packets : List RtpPacket} (h : Counting H d packets) {src : Source}
    (hsrc : src ∈ d.sources) : src.Accounted (callsOf H) := by
  have hf := h.invariant.follows.sources src hsrc
  refine ⟨hf.nodup, ?_, h.counts src hsrc⟩
  intro id
  rw [← hf.id_mem_iff, mem_mention_ids]

theorem counts_getSource (h : ∀ src ∈ d.sources, src.Counts) (ssrc : UInt32) :
    (d.getSource ssrc).Counts := by
  unfold getSource
  cases hfind : Keyed.find? Source.key ssrc.toNat d.sources with
  | none => exact Source.counts_new ssrc d.ssrc
  | some src => exact h src (Keyed.find?_mem hfind).1

theorem counts_setSource (hd : Keyed.Ordered Source.key d.sources) (h : ∀ src ∈ d.sources, src.Counts)
    {src : Source} (hsrc : src.Counts) : ∀ src' ∈ (d.setSource src).sources, src'.Counts := by
  intro src' hsrc'
  rcases (Keyed.mem_insert hd).mp hsrc' with rfl | ⟨hmem, -⟩
  · exact hsrc
  · exact h src' hmem

end ReceiverData

namespace Receiver

open ReceiverData

/-- A handler call and the poll of a source meet sources that are accounted for. -/
def MeetsAccounted (H : List ReceiverEvent) : ReceiverEvent → Prop
  | .visit d _ => ∀ src ∈ d.sources, src.Accounted (callsOf H)
  | .poll src => src.Accounted (callsOf H)
  | _ => True

/-- Every step keeps the counts. -/
theorem counting_kept : KeptBySteps (fun _ => True) MeetsAccounted Counting where
  rtp := by
    intro H d packets w raw pkt i _ hparse h
    obtain ⟨-, hinv⟩ := keptBySteps.rtp H d packets w raw pkt i trivial hparse h.invariant
    have hcounts := (counts_getSource h.counts pkt.ssrc).processPacket pkt d.timestampUnit i w
    exact ⟨fun src hsrc => h.accounted hsrc, hinv,
      counts_setSource h.invariant.follows.ordered h.counts hcounts⟩
  sr := by
    intro H d packets w pkt id i h
    obtain ⟨-, hinv⟩ := keptBySteps.sr H d packets w pkt id i h.invariant
    have hcounts := (counts_getSource h.counts pkt.senderSsrc).processSrPacket pkt id i w
    exact ⟨fun src hsrc => h.accounted hsrc, hinv,
      counts_setSource h.invariant.follows.ordered h.counts hcounts⟩
  rr := by
    intro H d packets pkt id ssrc i h
    obtain ⟨-, hinv⟩ := keptBySteps.rr H d packets pkt id ssrc i h.invariant
    exact ⟨fun src hsrc => h.accounted hsrc, hinv, h.counts⟩
  poll := by
    intro H d packets src hsrc h
    obtain ⟨-, hinv⟩ := keptBySteps.poll H d packets src hsrc h.invariant
    exact ⟨h.accounted hsrc, hinv, h.counts⟩
  report := by
    intro H d packets src w hsrc hmem h
    obtain ⟨-, hinv⟩ := keptBySteps.report H d packets src w hsrc hmem h.invariant
    exact ⟨trivial, hinv, h.counts⟩
  sent := by
    intro H d packets src w sf out hsrc hmem hsf hout h
    obtain ⟨-, hinv⟩ := keptBySteps.sent H d packets src w sf out hsrc hmem hsf hout h.invariant
    exact ⟨trivial, hinv, h.counts⟩
  polled := by
    intro H d packets srcs hs h
    refine ⟨keptBySteps.polled H d packets srcs hs h.invariant, ?_⟩
    intro src hsrc
    obtain ⟨k, hk, rfl⟩ := List.getElem_of_mem hsrc
    have hk' : k < d.sources.length := hs.length_eq ▸ hk
    exact (h.counts _ (List.getElem_mem hk')).polled (hs.get hk' hk)
  fetched := by
    intro H d pkt packets h
    obtain ⟨-, hinv⟩ := keptBySteps.fetched H d pkt packets h.invariant
    exact ⟨trivial, hinv, h.counts⟩

theorem counting_new (timestampUnit : ℚ) (ssrc : UInt32) (w : World) :
    Counting [] (new timestampUnit ssrc w).obj [] := by
  refine ⟨invariant_new timestampUnit ssrc w, ?_⟩
  intro src hsrc
  simp [new] at hsrc

/-- In every state that a run reaches, between the calls of the application as well as when a handler
is called or a source is polled, every source accounts for the packets processed so far; every
source that was named is there, and no two have one SSRC. -/
theorem sources_accounted {timestampUnit : ℚ} {ssrc : UInt32} {w : World} {H : List ReceiverEvent}
    {r : Option Receiver} (hrun : Run step (fun _ _ _ => True) (new timestampUnit ssrc w) H r) :
    (∀ n e, H[n]? = some e → MeetsAccounted (H.take n) e) ∧
      ∀ r', r = some r' →
        (∀ src ∈ r'.obj.sources, src.Accounted (callsOf H)) ∧
        (r'.obj.sources.map Source.ssrc).Nodup ∧
        ∀ c ∈ callsOf H, ∀ ssrc id, c.Names ssrc id → ∃ src ∈ r'.obj.sources, src.ssrc = ssrc := by
  obtain ⟨hmeets, hinv⟩ := counting_kept.parts.run (counting_new timestampUnit ssrc w) hrun
  refine ⟨hmeets, ?_⟩
  intro r' hr
  have h := hinv r' hr
  refine ⟨fun src hsrc => h.accounted hsrc, ?_, ?_⟩
  · have hpair : (r'.obj.sources.map Source.ssrc).Pairwise fun a b => a.toNat < b.toNat :=
      List.pairwise_map.mpr h.invariant.follows.ordered
    apply hpair.imp
    intro a b hab heq
    rw [heq] at hab
    exact lt_irrefl _ hab
  · intro c hc ssrc' id hn
    by_contra hno
    have habsent := h.invariant.follows.absent ssrc' fun src hsrc hs => hno ⟨src, hsrc, hs⟩
    have hmem := mem_mention_ids.mpr ⟨c, hc, hn⟩
    rw [habsent] at hmem
    simp at hmem

/-- Three packets of two subflows, then a sender report. -/
def packetsThenReport : List Step :=
  [.addInterface ⟨0x0A000002, 22000⟩ true,
    .poll 10 (.arrive false ⟨0x0A000001, 23000⟩
      [subflowPacket, (subflowPacket.set 3 101).set 19 2, ((subflowPacket.set 3 102).set 19 2).set 21 8]),
    .poll 10 (.arrive true ⟨0x0A000001, 23001⟩ [streamReport])]

/-- Behind one packet of subflow 1 and two of subflow 2 there is one source, with three packets. -/
theorem packetsThenReport_accounted :
    ∃ r', (packetsThenReport.foldlM step (new 1 1 (.ticking 1000))).res = some r' ∧
      r'.obj.sources.map (fun src => src.stat.packetsReceived) = [3] ∧
      r'.obj.sources.map (fun src => src.subflows.map fun sf => (sf.subflowId, sf.recvStat.packetsReceived)) =
        [[(1, 1), (2, 2)]] ∧
      ∀ src ∈ r'.obj.sources,
        src.Accounted (callsOf (packetsThenReport.foldlM step (new 1 1 (.ticking 1000))).log) := by
  have hsome : ∃ r' ∈ (packetsThenReport.foldlM step (new 1 1 (.ticking 1000))).res,
      r'.obj.sources.map (fun src => src.stat.packetsReceived) = [3] ∧
      r'.obj.sources.map (fun src => src.subflows.map fun sf => (sf.subflowId, sf.recvStat.packetsReceived)) =
        [[(1, 1), (2, 2)]] := by decide +kernel
  obtain ⟨r', hr, hcount, hsubflows⟩ := hsome
  obtain ⟨haccounted, -⟩ :=
    (sources_accounted (Run.foldlM (new 1 1 (.ticking 1000)) packetsThenReport)).2 r' hr
  exact ⟨r', hr, hcount, hsubflows, haccounted⟩

end Receiver

end Mprtp
