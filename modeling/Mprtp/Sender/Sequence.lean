import Mprtp.Lib.Counter
import Mprtp.Sender.Numbers
import Mprtp.Sender.Totals

/-! The numbers of the packets that `send_data` builds, for the stream and for each subflow. -/
namespace Mprtp

/-- The sequence number of the stream in a datagram of `send_data`. -/
def sequenceIn (data : List UInt8) : UInt16 := be16 (alone data) 2

theorem sequenceIn_rtpBytes (seq : UInt16) (timestamp ssrc : UInt32) (id q : UInt16)
    (payload : List UInt8) : sequenceIn (SenderData.rtpBytes seq timestamp ssrc id q payload) = seq := by
  let raw : RawPacket := ⟨SenderData.rtpBytes seq timestamp ssrc id q payload, fun _ => 0, ⟨0, 0⟩, false, 0⟩
  have hcarries : raw.Carries seq ssrc id q := carries_rtpBytes rfl
  exact hcarries.headerSequence

/-- A packet that `send_data` has built: the index of its subflow and its bytes. -/
def SenderEvent.built? : SenderEvent → Option (ℕ × List UInt8)
  | .sent k out => if out.rtcp then none else some (k, out.data)
  | _ => none

/-- The packets that `send_data` has built, in order, whether the socket took them or not. -/
def builtPackets (L : List SenderEvent) : List (ℕ × List UInt8) := L.filterMap SenderEvent.built?

/-- The packets built for the subflow at `i`. -/
def builtOn (i : ℕ) (L : List SenderEvent) : List (ℕ × List UInt8) :=
  (builtPackets L).filter fun p => p.1 = i

theorem builtPackets_concat (L : List SenderEvent) (e : SenderEvent) :
    builtPackets (L ++ [e]) = builtPackets L ++ e.built?.toList := by
  unfold builtPackets
  rw [List.filterMap_append]
  cases h : e.built? <;> simp [h]

theorem builtPackets_of_none {L : List SenderEvent} {e : SenderEvent} (h : e.built? = none) :
    builtPackets (L ++ [e]) = builtPackets L := by
  rw [builtPackets_concat, h, Option.toList_none, List.append_nil]

theorem builtOn_of_none {L : List SenderEvent} {e : SenderEvent} (h : e.built? = none) (i : ℕ) :
    builtOn i (L ++ [e]) = builtOn i L := by
  unfold builtOn
  rw [builtPackets_of_none h]

theorem builtOn_concat {L : List SenderEvent} {e : SenderEvent} {p : ℕ × List UInt8}
    (h : e.built? = some p) (i : ℕ) :
    builtOn i (L ++ [e]) = builtOn i L ++ if p.1 = i then [p] else [] := by
  unfold builtOn
  rw [builtPackets_concat, h, Option.toList_some, List.filter_append, List.filter_singleton,
    Bool.cond_decide]

namespace SenderData

variable {d d' : SenderData} {L : List SenderEvent} {start : UInt16} {starts : List UInt16}

/-- The stream and its subflows count the packets built: the stream from `start`, the subflow at `i`
from its number in `starts`. -/
structure CountsBuilt (start : UInt16) (starts : List UInt16) (L : List SenderEvent) (d : SenderData) :
    Prop where
  length : starts.length = d.subflows.length
  stream : CountsFrom start ((builtPackets L).map fun p => sequenceIn p.2)
  streamNext : d.sequesnceNumber = start + UInt16.ofNat (builtPackets L).length
  present : ∀ p ∈ builtPackets L, p.1 < d.subflows.length
  subflow : ∀ (i : ℕ) (q : UInt16), starts[i]? = some q →
    CountsFrom q ((builtOn i L).map fun p => numberIn p.2)
  subflowNext : ∀ (i : ℕ) (q : UInt16) (sf : Subflow), starts[i]? = some q → d.subflows[i]? = some sf →
    sf.sequesnceNumber = q + UInt16.ofNat (builtOn i L).length

/-- The numbers are the same, and so are those of the subflows. -/
theorem CountsBuilt.change (h : d.CountsBuilt start starts L) (hs : d.SameNumbers d')
    (hseq : d'.sequesnceNumber = d.sequesnceNumber) : d'.CountsBuilt start starts L where
  length := h.length.trans hs.length.symm
  stream := h.stream
  streamNext := hseq.trans h.streamNext
  present := by
    rw [hs.length]
    exact h.present
  subflow := h.subflow
  subflowNext := by
    intro i q sf' hq hsf'
    obtain ⟨sf, hsf, -, hnumber⟩ := hs.backward hsf'
    rw [hnumber]
    exact h.subflowNext i q sf hq hsf

/-- The sender does something other than building a packet. -/
theorem CountsBuilt.tell (h : d.CountsBuilt start starts L) {e : SenderEvent} (he : e.built? = none) :
    d.CountsBuilt start starts (L ++ [e]) where
  length := h.length
  stream := by
    rw [builtPackets_of_none he]
    exact h.stream
  streamNext := by
    rw [builtPackets_of_none he]
    exact h.streamNext
  present := by
    rw [builtPackets_of_none he]
    exact h.present
  subflow := by
    intro i q hq
    rw [builtOn_of_none he]
    exact h.subflow i q hq
  subflowNext := by
    intro i q sf hq hsf
    rw [builtOn_of_none he]
    exact h.subflowNext i q sf hq hsf

/-- A packet takes the number of the stream and the one of its subflow, which both go up by one. -/
theorem CountsBuilt.built (h : d.CountsBuilt start starts L) {k : ℕ} {sf sf' : Subflow}
    {out : OutDatagram} {timestamp ssrc : UInt32} {id : UInt16} {payload : List UInt8}
    (hk : d.subflows[k]? = some sf) (hrtp : out.rtcp = false)
    (hdata : out.data = rtpBytes d.sequesnceNumber timestamp ssrc id sf.sequesnceNumber payload)
    (hsubflows : d'.subflows = d.subflows.set k sf')
    (hnumber : sf'.sequesnceNumber = sf.sequesnceNumber + 1)
    (hseq : d'.sequesnceNumber = d.sequesnceNumber + 1) :
    d'.CountsBuilt start starts (L ++ [.sent k out]) := by
  have he : (SenderEvent.sent k out).built? = some (k, out.data) := by simp [SenderEvent.built?, hrtp]
  have hall : builtPackets (L ++ [.sent k out]) = builtPackets L ++ [(k, out.data)] := by
    rw [builtPackets_concat, he, Option.toList_some]
  have hstream : sequenceIn out.data = start + UInt16.ofNat (builtPackets L).length := by
    rw [hdata, sequenceIn_rtpBytes]
    exact h.streamNext
  obtain ⟨-, -, hin⟩ := in_rtpBytes d.sequesnceNumber timestamp ssrc id sf.sequesnceNumber payload
  rw [← hdata] at hin
  have hlen : d'.subflows.length = d.subflows.length := by rw [hsubflows, List.length_set]
  refine ⟨h.length.trans hlen.symm, ?_, ?_, ?_, ?_, ?_⟩
  · have hcounts := h.stream.concat
    rw [List.length_map, ← hstream] at hcounts
    rw [hall, List.map_append]
    exact hcounts
  · rw [hseq, h.streamNext, hall, List.length_append, List.length_singleton, UInt16.add_ofNat_succ]
  · intro p hp
    rw [hlen]
    rw [hall] at hp
    rcases List.mem_append.mp hp with hp | hp
    · exact h.present p hp
    · rw [List.mem_singleton.mp hp]
      exact (List.getElem?_eq_some_iff.mp hk).1
  · intro i q hq
    rw [builtOn_concat he]
    by_cases hi : k = i
    · subst hi
      have hcounts := (h.subflow k q hq).concat
      rw [List.length_map, ← h.subflowNext k q sf hq hk, ← hin] at hcounts
      rw [if_pos rfl, List.map_append]
      exact hcounts
    · rw [if_neg hi, List.append_nil]
      exact h.subflow i q hq
  · intro i q sf₁ hq hsf₁
    rw [builtOn_concat he]
    rw [hsubflows] at hsf₁
    rcases getElem?_put hsf₁ with ⟨rfl, rfl⟩ | ⟨hne, hsf₁⟩
    · rw [if_pos rfl, hnumber, h.subflowNext i q sf hq hk, List.length_append, List.length_singleton,
        UInt16.add_ofNat_succ]
    · rw [if_neg (Ne.symm hne), List.append_nil]
      exact h.subflowNext i q sf₁ hq hsf₁

theorem getNextTimestamp_sequence (d : SenderData) (w : World) :
    (d.getNextTimestamp w).1.sequesnceNumber = d.sequesnceNumber := by
  obtain ⟨lastPacketTime, timestamp, hfields⟩ := d.getNextTimestamp_fields w
  rw [hfields]

theorem updateStreamBitrate_sequence (d : SenderData) (size : UInt32) (w : World) :
    (d.updateStreamBitrate size w).1.sequesnceNumber = d.sequesnceNumber := by
  obtain ⟨sbSize, sbTime, hfields⟩ := d.updateStreamBitrate_fields size w
  rw [hfields]

theorem countSent_sequence (d : SenderData) (dataLen pktLen : ℕ) (w : World) :
    (d.countSent dataLen pktLen w).1.sequesnceNumber = d.sequesnceNumber := by
  obtain ⟨lastSenderReportTime, sbSize, sbTime, hfields⟩ := d.countSent_fields dataLen pktLen w
  rw [hfields]

theorem Sends.sequence {w : World} {data : List UInt8} {ret : ℤ} {k : ℕ} {sf : Subflow}
    {timestamp : UInt32} {r : Bool × SenderData × World} (hs : d.Sends w data ret k sf timestamp r) :
    r.2.1.sequesnceNumber = d.sequesnceNumber + 1 := by
  have hnext : (d.numbered w).1.sequesnceNumber = d.sequesnceNumber + 1 := getNextTimestamp_sequence _ _
  have hres := hs.result
  rcases d.sendData_eq w data ret with hstuck | ⟨j, sf₁, -, -, heq⟩
  · rw [hstuck] at hres
    cases hres
  · rw [heq] at hres
    have hr := Option.some.inj (congrArg Exec.res hres)
    rw [← hr]
    split
    · exact (countSent_sequence _ _ _ _).trans hnext
    · exact hnext

theorem SendsReport.sequence {w : World} {k : ℕ} {sf : Subflow} {pkt : List UInt8}
    {r : SenderData × World} (hs : d.SendsReport w k sf pkt r) :
    r.1.sequesnceNumber = d.sequesnceNumber := by
  have hstamped : (d.stamped w).sequesnceNumber = d.sequesnceNumber := getNextTimestamp_sequence d w
  have hres := hs.result
  rcases d.sendSenderReport_eq w with hstuck | ⟨j, sf₁, -, -, -, heq⟩
  · rw [hstuck] at hres
    cases hres
  · rw [heq] at hres
    have hr := Option.some.inj (congrArg Exec.res hres)
    rw [← hr]
    exact (updateStreamBitrate_sequence _ _ _).trans hstamped

theorem onRtcpRrPacket_sequence (d : SenderData) (w : World) (pkt : RtcpRrPacket) (id : UInt16) :
    (d.onRtcpRrPacket w pkt id).1.sequesnceNumber = d.sequesnceNumber := by
  obtain ⟨subflows, recalcDistribution, hfields⟩ := d.onRtcpRrPacket_fields w pkt id
  rw [hfields]

theorem measureStreamBitrate_sequence (d : SenderData) (curtime : RtpTime) :
    (d.measureStreamBitrate curtime).sequesnceNumber = d.sequesnceNumber := by
  obtain ⟨streamBitrate, sbSize, sbTime, hfields⟩ := d.measureStreamBitrate_fields curtime
  rw [hfields]

theorem CountsBuilt.redistribute (h : d.CountsBuilt start starts L) :
    d.redistribute.Sat (fun _ _ => True) L fun L' d' => d'.CountsBuilt start starts L' := by
  unfold SenderData.redistribute
  apply Exec.sat_ite
  · intro _
    exact Exec.sat_pure h
  · intro _
    refine Exec.sat_bind (Q := fun L' _ => L' = L ++ [.recalc d d.recalcSubflowPercentage.log])
      (Exec.sat_tell trivial rfl) ?_
    intro L' _ hL
    obtain rfl := hL
    apply Exec.sat_pure
    exact (h.tell rfl).change (.reweighted d.redistributed_reweighted false) rfl

/-- A connected subflow starts with the number that it has drawn. -/
theorem CountsBuilt.addSubflow (h : d.CountsBuilt start starts L) (iface : ℕ) (remote : Endpoint)
    (w : World) : (d.addSubflow iface remote w).CountsBuilt start
      (starts ++ [(Subflow.new d.nextSubflowId iface remote w).1.sequesnceNumber]) L := by
  have hlen : (d.addSubflow iface remote w).subflows.length = d.subflows.length + 1 := by
    unfold SenderData.addSubflow
    rw [List.length_append, List.length_singleton]
  have hnone : builtOn starts.length L = [] := by
    rw [builtOn, List.filter_eq_nil_iff]
    intro p hp hi
    have hlt := h.present p hp
    rw [← h.length] at hlt
    exact absurd (of_decide_eq_true hi) hlt.ne
  refine ⟨by rw [List.length_append, List.length_singleton, hlen, h.length], h.stream, h.streamNext,
    ?_, ?_, ?_⟩
  · intro p hp
    rw [hlen]
    exact (h.present p hp).trans (Nat.lt_succ_self _)
  · intro i q hq
    rcases Nat.lt_trichotomy i starts.length with hlt | rfl | hgt
    · rw [List.getElem?_append_left hlt] at hq
      exact h.subflow i q hq
    · rw [hnone]
      exact CountsFrom.nil q
    · rw [List.getElem?_eq_none (by simp; omega)] at hq
      cases hq
  · intro i q sf hq hsf
    unfold SenderData.addSubflow at hsf
    dsimp only at hsf
    rcases Nat.lt_trichotomy i starts.length with hlt | rfl | hgt
    · rw [List.getElem?_append_left hlt] at hq
      rw [List.getElem?_append_left (h.length ▸ hlt)] at hsf
      exact h.subflowNext i q sf hq hsf
    · rw [List.getElem?_concat_length] at hq
      rw [h.length, List.getElem?_concat_length] at hsf
      cases hq
      cases hsf
      rw [hnone, List.length_nil]
      exact (UInt16.add_zero _).symm
    · rw [List.getElem?_eq_none (by simp; omega)] at hq
      cases hq

end SenderData

namespace Sender

variable {isPathValid : Endpoint → Endpoint → Bool} {start : UInt16} {starts : List UInt16}

/-- What the calls other than `connect` do. -/
theorem keptByUse_countsBuilt :
    KeptByUse (fun _ _ => True) fun L d => d.CountsBuilt start starts L where
  rr := fun _ d w pkt id _ _ h => ⟨trivial, (h.tell rfl).change
    (.onRtcpRrPacket d w pkt id) (d.onRtcpRrPacket_sequence w pkt id)⟩
  visit := fun _ _ _ _ h => ⟨trivial, h.tell rfl⟩
  sends := by
    intro L d w data ret k sf timestamp r hs h
    obtain ⟨-, hnumber, -⟩ :=
      sf.sendto_numbers (d.rtpDatagram sf timestamp data) (UInt32.ofNat data.length) ret
    exact ⟨trivial, h.built hs.subflow rfl rfl hs.unmoved.subflows hnumber hs.sequence⟩
  sendsReport := fun _ _ _ _ _ _ _ hs h => ⟨trivial, (h.tell rfl).change
    (.of_eq hs.unmoved.subflows hs.unmoved.nextId) hs.sequence⟩
  measure := by
    intro L d curtime h
    obtain ⟨hsubflows, hnext⟩ := d.measureStreamBitrate_numbers curtime
    exact ⟨trivial, (h.tell rfl).change (.of_eq hsubflows hnext) (d.measureStreamBitrate_sequence curtime)⟩
  redistribute := fun _ _ h => h.redistribute

/-- The numbers with which the subflows start that a call makes. -/
def startsOf (isPathValid : Endpoint → Endpoint → Bool) : (Sender × Step) ⊕ SenderEvent → List UInt16
  | .inl (s, .connect ssrc destination) =>
    ((s.connect isPathValid ssrc destination).2.obj.subflows.drop s.obj.subflows.length).map
      Subflow.sequesnceNumber
  | _ => []

/-- The numbers with which the subflows have started, in order. -/
def startNumbers (isPathValid : Endpoint → Endpoint → Bool) (H : List ((Sender × Step) ⊕ SenderEvent)) :
    List UInt16 := H.flatMap (startsOf isPathValid)

theorem startNumbers_noted (H : List ((Sender × Step) ⊕ SenderEvent)) (s : Sender) (e : Step)
    (L : List SenderEvent) : startNumbers isPathValid (H ++ [.inl (s, e)] ++ L.map .inr) =
      startNumbers isPathValid H ++ startsOf isPathValid (.inl (s, e)) :=
  flatMap_noted (fun _ => rfl) H s e L

/-- `connect` starts the subflows that it makes. -/
theorem countsBuilt_connect {s : Sender} {L : List SenderEvent} (h : s.obj.CountsBuilt start starts L)
    (isPathValid : Endpoint → Endpoint → Bool) (ssrc : UInt32) (destination : List Endpoint) :
    (s.connect isPathValid ssrc destination).2.obj.CountsBuilt start
      (starts ++ startsOf isPathValid (.inl (s, .connect ssrc destination))) L := by
  -- the starts so far and those of the subflows added since
  let I : SenderData → World → Prop := fun d _ => s.obj.subflows.length ≤ d.subflows.length ∧
    d.CountsBuilt start
      (starts ++ (d.subflows.drop s.obj.subflows.length).map Subflow.sequesnceNumber) L
  have hI : I (s.connect isPathValid ssrc destination).2.obj
      (s.connect isPathValid ssrc destination).2.world := by
    have hsame : s.obj.SameNumbers { s.obj with ssrc, destAddr := destination } := .of_eq rfl rfl
    unfold connect
    split
    · refine ⟨le_rfl, ?_⟩
      rw [List.drop_length, List.map_nil, List.append_nil]
      exact h
    · refine connectPaths_rule (I := I) ?_ isPathValid s.interfaces _ ⟨le_rfl, ?_⟩
      · intro d w iface remote hd
        obtain ⟨hle, hd⟩ := hd
        have hadd := hd.addSubflow iface remote w
        have hsubflows : (d.addSubflow iface remote w).subflows =
            d.subflows ++ [(Subflow.new d.nextSubflowId iface remote w).1] := rfl
        constructor
        · rw [hsubflows, List.length_append]
          omega
        · rw [hsubflows, List.drop_append_of_le_length hle, List.map_append, ← List.append_assoc]
          exact hadd
      · dsimp only
        rw [List.drop_length, List.map_nil, List.append_nil]
        exact h.change hsame rfl
  exact hI.2

variable {timestampUnit : ℚ} {w : World} {H : List ((Sender × Step) ⊕ SenderEvent)} {s : Sender}

theorem noting_countsBuilt (h : s.obj.CountsBuilt start (startNumbers isPathValid H) (told H))
    (e : Step) : (noting (step isPathValid) s e).Sat (fun _ _ => True) H
      fun H' s' => s'.obj.CountsBuilt start (startNumbers isPathValid H') (told H') := by
  have hstep : (step isPathValid s e).Sat (fun _ _ => True) (told H) fun L s' =>
      s'.obj.CountsBuilt start (startNumbers isPathValid H ++ startsOf isPathValid (.inl (s, e))) L := by
    by_cases he : e.Unconnected
    · have hnone : startsOf isPathValid (.inl (s, e)) = [] := by
        cases e with
        | connect ssrc destination => exact he.elim
        | _ => rfl
      rw [hnone, List.append_nil]
      exact keptByUse_countsBuilt.step isPathValid h he
    · cases e with
      | connect ssrc destination => exact Exec.sat_pure (countsBuilt_connect h isPathValid ssrc destination)
      | _ => exact absurd trivial he
  refine Exec.sat_noting trivial hstep (fun _ _ _ => trivial) ?_
  intro L s' hs'
  rw [startNumbers_noted, told_noted]
  exact hs'

/-- In every run the packets that `send_data` builds carry the numbers of the stream one after another,
and those for a subflow its numbers from the one on that it has started with; so no two of 2^16 packets
in succession for a subflow have one number. -/
theorem builtPackets_numbered
    (hrun : Run (noting (step isPathValid)) (fun _ _ _ => True) (new timestampUnit w) H (some s)) :
    (∀ (j : ℕ) (p : ℕ × List UInt8), (builtPackets (told H))[j]? = some p →
      sequenceIn p.2 = (new timestampUnit w).obj.sequesnceNumber + UInt16.ofNat j) ∧
    (∀ (i k : ℕ) (p : ℕ × List UInt8), (builtOn i (told H))[k]? = some p →
      ∃ q, (startNumbers isPathValid H)[i]? = some q ∧ numberIn p.2 = q + UInt16.ofNat k) ∧
    ∀ (i j k : ℕ) (p p' : ℕ × List UInt8), (builtOn i (told H))[j]? = some p → (builtOn i (told H))[k]? = some p' →
      j < k → k < j + 2 ^ 16 → numberIn p.2 ≠ numberIn p'.2 := by
  have h₀ : (new timestampUnit w).obj.CountsBuilt (new timestampUnit w).obj.sequesnceNumber [] [] := by
    refine ⟨rfl, .nil _, (UInt16.add_zero _).symm, ?_, ?_, ?_⟩
    · intro p hp
      cases hp
    · intro i q hq
      cases hq
    · intro i q sf hq
      cases hq
  generalize (new timestampUnit w).obj.sequesnceNumber = start at h₀ ⊢
  have h := (Run.sat (I := fun H s => s.obj.CountsBuilt start (startNumbers isPathValid H) (told H)) h₀
    (fun H s e h _ => noting_countsBuilt h e) hrun).2 s rfl
  have hstart : ∀ (i k : ℕ) (p : ℕ × List UInt8), (builtOn i (told H))[k]? = some p → ∃ q, (startNumbers isPathValid H)[i]? = some q ∧
      CountsFrom q ((builtOn i (told H)).map fun p => numberIn p.2) := by
    intro i k p hk
    obtain ⟨hp, hi⟩ := List.mem_filter.mp (List.mem_of_getElem? hk)
    have hlt : i < (startNumbers isPathValid H).length := by
      rw [h.length, ← of_decide_eq_true hi]
      exact h.present p hp
    have hq := List.getElem?_eq_getElem hlt
    exact ⟨_, hq, h.subflow i _ hq⟩
  have hget : ∀ (i k : ℕ) (p : ℕ × List UInt8), (builtOn i (told H))[k]? = some p →
      ((builtOn i (told H)).map fun p => numberIn p.2)[k]? = some (numberIn p.2) := by
    intro i k p hk
    rw [List.getElem?_map, hk]
    rfl
  refine ⟨?_, ?_, ?_⟩
  · intro j p hj
    apply h.stream j
    rw [List.getElem?_map, hj]
    rfl
  · intro i k p hk
    obtain ⟨q, hq, hcounts⟩ := hstart i k p hk
    exact ⟨q, hq, hcounts k _ (hget i k p hk)⟩
  · intro i j k p p' hj hk hlt hnear
    obtain ⟨q, -, hcounts⟩ := hstart i j p hj
    exact hcounts.ne_of_near (hget i j p hj) (hget i k p' hk) hlt hnear

def failingSendsLog : List ((Sender × Step) ⊕ SenderEvent) :=
  (failingSends.foldlM (noting (step fun _ _ => true)) (new 1 (.ticking 1000))).log

/-- The packet that the socket does not take has used a number. -/
theorem failingSends_numbered : (∃ p, (builtPackets (told failingSendsLog))[2]? = some p ∧
    sequenceIn p.2 = (new 1 (.ticking 1000)).obj.sequesnceNumber + 2) ∧
      ∃ i q p₀ p₁, (startNumbers (fun _ _ => true) failingSendsLog)[i]? = some q ∧
        (builtOn i (told failingSendsLog))[0]? = some p₀ ∧ (builtOn i (told failingSendsLog))[1]? = some p₁ ∧
        numberIn p₁.2 = q + 1 ∧ numberIn p₀.2 ≠ numberIn p₁.2 := by
  have hsome : (failingSends.foldlM (noting (step fun _ _ => true)) (new 1 (.ticking 1000))).res.isSome =
      true := by decide +kernel
  have hthird : (builtPackets (told failingSendsLog))[2]?.isSome = true := by decide +kernel
  obtain ⟨s, hs⟩ := Option.isSome_iff_exists.mp hsome
  obtain ⟨p, hp⟩ := Option.isSome_iff_exists.mp hthird
  have hrun : Run (noting (step fun _ _ => true)) (fun _ _ _ => True) (new 1 (.ticking 1000)) failingSendsLog _ :=
    Run.foldlM (new 1 (.ticking 1000)) failingSends
  rw [hs] at hrun
  obtain ⟨hstream, hsubflow, hdistinct⟩ := builtPackets_numbered hrun
  have htwo : ∃ i < 2, (builtOn i (told failingSendsLog))[0]?.isSome = true ∧
      (builtOn i (told failingSendsLog))[1]?.isSome = true := by decide +kernel
  obtain ⟨i, -, hzero, hone⟩ := htwo
  obtain ⟨p₀, hp₀⟩ := Option.isSome_iff_exists.mp hzero
  obtain ⟨p₁, hp₁⟩ := Option.isSome_iff_exists.mp hone
  obtain ⟨q, hq, hnumber⟩ := hsubflow i 1 p₁ hp₁
  have hne := hdistinct i 0 1 p₀ p₁ hp₀ hp₁ (by omega) (by omega)
  exact ⟨⟨p, hp, hstream 2 p hp⟩, i, q, p₀, p₁, hq, hp₀, hp₁, hnumber, hne⟩

end Sender

end Mprtp
