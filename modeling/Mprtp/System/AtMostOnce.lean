import Mathlib.Data.List.Flatten
import Mprtp.Lib.MergeCounts
import Mprtp.System.Payloads

/-! How often and in which order the receiver's application fetches the payloads that the sender's hands
over, over a network that doubles or reorders nothing itself. -/
namespace Mprtp

namespace System

/-- The payloads of the calls of `send_data`, in order. -/
def payloadsSent (H : SystemLog) : List (List UInt8) :=
  (Sender.dataCalls (senderCalls H)).map Sender.DataCall.payload

/-- The packets that `fetch_packet` has returned at the receiver, in order. -/
def fetchedPackets (H : SystemLog) : List RtpPacket :=
  Session.returned Receiver.Step.queueCall (receiverCalls H)

/-- The RTP datagrams that have arrived on the interface `i` of the receiver. -/
def arrivedOn (H : SystemLog) (i : ℕ) : List (List UInt8) :=
  (Session.arrived Receiver.Step.queueCall (receiverCalls H) i).map RawPacket.data

/-- The RTP datagrams that a step brings to the interface `i` of the receiver. -/
def arrivingOn (s : System) (i : ℕ) : Step → List (List UInt8)
  | .receiver (.poll _ io) => (s.receiver.arrivals io i).map RawPacket.data
  | _ => []

/-- The RTP datagrams that a step brings to the receiver. -/
def arriving (s : System) (e : Step) : List (List UInt8) :=
  (List.range s.receiver.interfaces.length).flatMap fun i => s.arrivingOn i e

/-- The RTP datagrams that have arrived at the receiver. -/
def rtpArrived (H : SystemLog) : List (List UInt8) :=
  H.flatMap fun
    | .inl (s, e) => s.arriving e
    | .inr _ => []

variable {isPathValid : Endpoint → Endpoint → Bool}

section

variable (H : SystemLog) (s : System) (e : Step)

theorem arrivedOn_noting (i : ℕ) : arrivedOn (H ++ (noting (step isPathValid) s e).log) i =
    arrivedOn H i ++ s.arrivingOn i e := by
  unfold arrivedOn
  cases e with
  | sender e =>
    rw [receiverCalls_noting_sender]
    exact (List.append_nil _).symm
  | receiver e =>
    rw [receiverCalls_noting_receiver, noting_log, ← List.append_assoc, Session.arrived_noted,
      List.map_append]
    cases e <;> rfl

theorem fetchedPackets_noting : fetchedPackets (H ++ (noting (step isPathValid) s e).log) =
    fetchedPackets H ++ match e with
      | .receiver .fetchPacket => s.receiver.fetchPacket.1.toList
      | _ => [] := by
  unfold fetchedPackets
  cases e with
  | sender e =>
    rw [receiverCalls_noting_sender]
    exact (List.append_nil _).symm
  | receiver e =>
    rw [receiverCalls_noting_receiver, noting_log, ← List.append_assoc, Session.returned_noted]
    cases e <;> rfl

theorem rtpArrived_noting : rtpArrived (H ++ (noting (step isPathValid) s e).log) =
    rtpArrived H ++ s.arriving e := by
  unfold rtpArrived
  rw [noting_log, ← List.append_assoc, flatMap_noted fun _ => rfl]

end

/-- Nothing arrives on an interface that is not there. -/
theorem arrivingOn_eq_nil (s : System) (e : Step) {i : ℕ} (hi : s.receiver.interfaces.length ≤ i) :
    s.arrivingOn i e = [] := by
  cases e with
  | sender e => rfl
  | receiver e =>
    cases e with
    | poll fuel io => exact congrArg (List.map RawPacket.data) (s.receiver.arrivals_eq_nil io hi)
    | _ => rfl

theorem flatMap_arrivingOn (s : System) (e : Step) {n : ℕ} (hn : s.receiver.interfaces.length ≤ n) :
    ((List.range n).flatMap fun i => s.arrivingOn i e) = s.arriving e := by
  obtain ⟨k, rfl⟩ := Nat.exists_eq_add_of_le hn
  have hrest : ((List.range k).map (s.receiver.interfaces.length + ·)).flatMap
      (fun i => s.arrivingOn i e) = [] := by
    rw [List.flatMap_map]
    exact List.flatMap_eq_nil_iff.mpr fun i _ => s.arrivingOn_eq_nil e (Nat.le_add_right _ i)
  rw [List.range_add, List.flatMap_append, hrest, List.append_nil]
  rfl

section Runs

variable {ok : SystemLog → System → Step → Prop} {s₀ s : System} {H : SystemLog} {r : Option System}

/-- What has arrived at the receiver is what has arrived on its interfaces. -/
theorem rtpArrived_perm (hrun : Run (noting (step isPathValid)) ok s₀ H r) :
    ∃ N, ∀ n, N ≤ n → ((List.range n).flatMap (arrivedOn H)).Perm (rtpArrived H) := by
  induction hrun with
  | nil =>
    refine ⟨0, ?_⟩
    intro n _
    have hnone : (List.range n).flatMap (arrivedOn []) = [] := List.flatMap_eq_nil_iff.mpr fun _ _ => rfl
    rw [hnone]
    rfl
  | @snoc H s e _ _ ih =>
    obtain ⟨N, hN⟩ := ih
    refine ⟨max N s.receiver.interfaces.length, ?_⟩
    intro n hn
    have hadd : arrivedOn (H ++ (noting (step isPathValid) s e).log) =
        fun i => arrivedOn H i ++ s.arrivingOn i e := by
      funext i
      exact arrivedOn_noting H s e i
    rw [hadd, rtpArrived_noting, ← s.flatMap_arrivingOn e (le_of_max_le_right hn)]
    exact (List.flatMap_append_perm _ _ _).symm.trans ((hN n (le_of_max_le_left hn)).append_right _)

theorem sentBySender_append (H H' : SystemLog) :
    sentBySender (told (H ++ H')) = sentBySender (told H) ++ sentBySender (told H') := by
  rw [told_append]
  exact List.filterMap_append

theorem run_supplied {senderUnit receiverUnit : ℚ} {ssrc : UInt32} {w w' : World}
    (hrun : Run (noting (step isPathValid)) (fun H => Network (told H))
      (new senderUnit receiverUnit ssrc w w') H (some s)) : Supplied H s :=
  (Run.sat supplied_new (fun _ _ _ h hnet => noting_supplied h hnet) hrun).2 s rfl

/-- Every packet that has been fetched was parsed from a datagram of the sender. -/
theorem fetchedPackets_parsed {senderUnit receiverUnit : ℚ} {ssrc : UInt32} {w w' : World}
    (hrun : Run (noting (step isPathValid)) (fun H => Network (told H))
      (new senderUnit receiverUnit ssrc w w') H r) :
    ∀ p ∈ fetchedPackets H, p.ParsedFrom (Among (sentBySender (told H))) := by
  induction hrun with
  | nil =>
    intro p hp
    cases hp
  | @snoc H s e hrun _ ih =>
    have hmono : ∀ p : RtpPacket, p.ParsedFrom (Among (sentBySender (told H))) →
        p.ParsedFrom (Among (sentBySender (told (H ++ (noting (step isPathValid) s e).log)))) := by
      intro p hp
      refine hp.mono fun data hdata => hdata.mono ?_
      rw [sentBySender_append]
      exact fun out hout => List.mem_append_left _ hout
    intro p hp
    rw [fetchedPackets_noting, List.mem_append] at hp
    apply hmono
    rcases hp with hp | hp
    · exact ih p hp
    · split at hp
      · apply (run_supplied hrun).packets
        rw [← s.receiver.fetchPacket_packets]
        exact List.mem_append_left _ hp
      · cases hp

/-- The RTP datagrams among those sent are the ones that do not start with a sender report. -/
theorem filter_sentBySender {L : List SystemEvent}
    (hsent : ∀ out ∈ sentBySender L, out.data[1]? = some rtcpTypeSr ↔ out.rtcp = true) :
    ((sentBySender L).map OutDatagram.data).filter (fun data => data[1]? ≠ some rtcpTypeSr) =
      rtpSent (bySender L) := by
  have hrtp : rtpSent (bySender L) =
      ((sentBySender L).filter fun out => !out.rtcp).map OutDatagram.data := by
    unfold rtpSent bySender sentBySender
    rw [List.filterMap_filterMap, List.filter_filterMap, List.map_filterMap]
    refine List.filterMap_congr ?_
    intro e _
    match e with
    | .sender (.sent k out) =>
      change (if out.rtcp then none else some out.data) =
        (Option.filter (fun out => !out.rtcp) (some out)).map OutDatagram.data
      cases h : out.rtcp <;> simp [h]
    | .sender (.visit _ _) => rfl
    | .sender (.measure _ _) => rfl
    | .sender (.recalc _ _) => rfl
    | .receiver _ => rfl
  rw [hrtp, List.filter_map]
  congr 1
  refine List.filter_congr ?_
  intro out hout
  rw [Function.comp_apply, Bool.eq_iff_iff]
  simp [hsent out hout]

section Sent

variable {senderUnit receiverUnit : ℚ} {ssrc : UInt32} {w w' : World}

/-- A datagram of the sender is one of a call of `send_data` or starts with a sender report. -/
theorem sent_rtcp_iff (hrun : Run (noting (step isPathValid)) ok (new senderUnit receiverUnit ssrc w w') H r) :
    ∀ out ∈ sentBySender (told H), out.data[1]? = some rtcpTypeSr ↔ out.rtcp = true := by
  intro out hout
  obtain ⟨k, hsent⟩ := mem_sentBySender.mp hout
  obtain ⟨⟨r', hsender, -⟩, -⟩ := noted_run_ends hrun
  have hmem : .inr (.sent k out) ∈ senderCalls H :=
    mem_told.mp (by
      rw [told_senderCalls]
      exact mem_bySender.mpr hsent)
  obtain ⟨pre, post, hsplit⟩ := List.append_of_mem hmem
  have hbuilt := (Sender.run_builds hsender).1 pre _ post hsplit out rfl
  split at hbuilt
  · rename_i hrtcp
    exact iff_of_true hbuilt hrtcp
  · rename_i hrtp
    obtain ⟨c, -, hbuilds⟩ := Sender.exists_call hbuilt
    refine iff_of_false ?_ hrtp
    rw [hbuilds.second]
    decide

/-- The RTP datagrams sent carry the payloads of the calls of `send_data`, in their order. -/
theorem payloads_of_sent
    (hrun : Run (noting (step isPathValid)) ok (new senderUnit receiverUnit ssrc w w') H (some s)) :
    (rtpSent (bySender (told H))).map (List.drop 24) = payloadsSent H := by
  obtain ⟨⟨r', hsender, hr'⟩, -⟩ := noted_run_ends hrun
  have hbuilds := (Sender.run_builds hsender).2 s.sender (hr' s rfl)
  rw [told_senderCalls] at hbuilds
  unfold payloadsSent
  generalize rtpSent (bySender (told H)) = sent at hbuilds
  generalize Sender.dataCalls (senderCalls H) = calls at hbuilds
  induction hbuilds with
  | nil => rfl
  | cons h _ ih => rw [List.map_cons, List.map_cons, h.payload, ih]

end Sent

section Once

variable {senderUnit receiverUnit : ℚ} {ssrc : UInt32} {w w' : World}

/-- A fetched packet has the payload of the datagram, and the id of the subflow. -/
theorem fetched_fields
    (hrun : Run (noting (step isPathValid)) (fun H => Network (told H))
      (new senderUnit receiverUnit ssrc w w') H r) {p : RtpPacket} (hp : p ∈ fetchedPackets H) :
    p.payloadData = p.rawpack.data.drop 24 ∧ p.subflowId = idIn p.rawpack.data := by
  obtain ⟨⟨hlen, out, hout, hdata⟩, hparsed⟩ := fetchedPackets_parsed hrun p hp
  have htake : H.take H.length = H := List.take_length
  rw [← htake] at hout
  rcases sent_has_call hrun hout with hsr | ⟨m, s, data, ret, -, -, hbuilds⟩
  · obtain ⟨ext, subflowExt, hparse⟩ := hparsed
    rw [hdata] at hsr
    exact absurd hparse (RtpPacket.parse_senderReport hsr _)
  · rw [hdata] at hbuilds
    have hreaches := Sender.DataCall.Builds.reaches ⟨⟨hbuilds, hlen⟩, hparsed⟩
    refine ⟨hreaches.payload.trans hbuilds.payload.symm, ?_⟩
    obtain ⟨sf, -, hbytes⟩ := hbuilds
    obtain ⟨ext, subflowExt, hparse⟩ := hparsed
    obtain ⟨-, hid, -⟩ := parse_numbers hbytes hparse
    obtain ⟨-, hidIn, -⟩ := in_rtpBytes s.sender.obj.sequesnceNumber
      (Sender.DataCall.timestamp ⟨s.sender, data⟩) s.sender.obj.ssrc sf.subflowId sf.sequesnceNumber data
    rw [hbytes]
    exact hid.trans hidIn.symm

/-- What is fetched and what waits to be fetched are the accepted RTP datagrams that were taken from the
queues of the interfaces. -/
theorem fetched_merged {ok : SystemLog → System → Step → Prop}
    (hrun : Run (noting (step isPathValid)) ok (new senderUnit receiverUnit ssrc w w') H (some s)) :
    ∃ ids taken, Merged accepted (Session.arrived Receiver.Step.queueCall (receiverCalls H))
      (Session.queued s.receiver.interfaces)
      ((fetchedPackets H ++ s.receiver.packets).map RtpPacket.rawpack) ids taken := by
  obtain ⟨-, r', hreceiver, hr'⟩ := noted_run_ends hrun
  rw [hr' s rfl] at hreceiver
  obtain ⟨ids, taken, hm, -, -⟩ :=
    receiver_drives.run_conserved receiverHandlers_keepsPackets ⟨rfl, rfl⟩ hreceiver
  exact ⟨ids, taken, hm⟩

/-- Over a network that brings no datagram to the receiver more often than the sender has sent it. -/
def Undoubled (H : SystemLog) (s : System) (e : Step) : Prop :=
  Network (told H) s e ∧ (rtpArrived H ++ s.arriving e).Subperm ((sentBySender (told H)).map OutDatagram.data)

theorem rtpArrived_subperm
    (hrun : Run (noting (step isPathValid)) Undoubled (new senderUnit receiverUnit ssrc w w') H r) :
    (rtpArrived H).Subperm ((sentBySender (told H)).map OutDatagram.data) := by
  induction hrun with
  | nil => exact List.nil_subperm
  | snoc e _ hok _ =>
    rw [rtpArrived_noting, sentBySender_append, List.map_append]
    exact hok.2.trans (List.sublist_append_left _ _).subperm

/-- The accepted datagrams are no reports. -/
theorem not_report_of_accepted {raw : RawPacket} (h : accepted raw = true) :
    raw.data[1]? ≠ some rtcpTypeSr := by
  intro hsr
  unfold accepted at h
  split at h
  · rename_i pkt hparse
    exact RtpPacket.parse_senderReport hsr pkt hparse
  · cases h

theorem exists_covering (N : ℕ) (l : List ℕ) : ∃ n, N ≤ n ∧ ∀ a ∈ l, a ∈ List.range n := by
  refine ⟨N + (l.sum + 1), Nat.le_add_right _ _, ?_⟩
  intro a ha
  have hle := List.le_sum_of_mem ha
  exact List.mem_range.mpr (by omega)

/-- The datagrams of the packets that are fetched or wait for it are among those that have arrived. -/
theorem fetched_subperm_arrived {ok : SystemLog → System → Step → Prop}
    (hrun : Run (noting (step isPathValid)) ok (new senderUnit receiverUnit ssrc w w') H (some s)) :
    ((fetchedPackets H ++ s.receiver.packets).map fun p => p.rawpack.data).Subperm
      ((rtpArrived H).filter fun data => data[1]? ≠ some rtcpTypeSr) := by
  obtain ⟨ids, taken, hm⟩ := fetched_merged hrun
  obtain ⟨N, hN⟩ := rtpArrived_perm hrun
  obtain ⟨n, hn, hcovers⟩ := exists_covering N (ids.map Prod.fst)
  have hout := (hm.out_perm List.nodup_range fun id hid => hcovers id.1 (List.mem_map_of_mem hid)).map
    RawPacket.data
  rw [List.map_map, List.map_flatMap] at hout
  refine hout.subperm.trans (List.Subperm.trans ?_ ((hN n hn).filter _).subperm)
  rw [List.filter_flatMap]
  refine (List.Sublist.flatMap_right _ ?_).subperm
  intro i _
  unfold arrivedOn
  rw [List.filter_map]
  refine (((List.take_sublist _ _).filter _).trans (List.monotone_filter_right _ ?_)).map _
  intro raw hraw
  simpa using not_report_of_accepted hraw

/-- What has arrived and is no report is accepted. -/
theorem accepted_of_arrived
    (hrun : Run (noting (step isPathValid)) Undoubled (new senderUnit receiverUnit ssrc w w') H r) {i : ℕ}
    {raw : RawPacket} (hraw : raw ∈ Session.arrived Receiver.Step.queueCall (receiverCalls H) i)
    (hdata : raw.data[1]? ≠ some rtcpTypeSr) : accepted raw = true := by
  obtain ⟨hrtp, hlen⟩ := Session.mem_arrived hraw
  obtain ⟨N, hN⟩ := rtpArrived_perm hrun
  have hon : raw.data ∈ (List.range (N + (i + 1))).flatMap (arrivedOn H) :=
    List.mem_flatMap.mpr ⟨i, List.mem_range.mpr (by omega), List.mem_map_of_mem hraw⟩
  have hsent := (rtpArrived_subperm hrun).subset ((hN _ (Nat.le_add_right _ _)).subset hon)
  obtain ⟨out, hout, heq⟩ := List.mem_map.mp hsent
  have htake : H.take H.length = H := List.take_length
  rw [← htake] at hout
  rcases sent_has_call hrun hout with hsr | ⟨m, s, data, ret, -, -, hbuilds⟩
  · rw [heq] at hsr
    exact absurd hsr hdata
  · obtain ⟨sf, -, hbytes⟩ := hbuilds
    rw [heq] at hbytes
    have hshort : data.length + 24 < 2 ^ 31 := by
      rw [hbytes, rtpBytes_length] at hlen
      unfold maxPacketSize at hlen
      dsimp only at hlen
      omega
    obtain ⟨pkt, hparse, -⟩ := parse_rtpBytes hrtp hbytes hshort
    unfold accepted
    rw [hparse]

/-- When nothing waits, the datagrams of the fetched packets are those that have arrived. -/
theorem fetched_perm_arrived
    (hrun : Run (noting (step isPathValid)) Undoubled (new senderUnit receiverUnit ssrc w w') H (some s))
    (hqueues : ∀ i, Session.queued s.receiver.interfaces i = []) (hpackets : s.receiver.packets = []) :
    ((fetchedPackets H).map fun p => p.rawpack.data).Perm
      ((rtpArrived H).filter fun data => data[1]? ≠ some rtcpTypeSr) := by
  obtain ⟨ids, taken, hm⟩ := fetched_merged hrun
  obtain ⟨N, hN⟩ := rtpArrived_perm hrun
  obtain ⟨n, hn, hcovers⟩ := exists_covering N (ids.map Prod.fst)
  have hout := (hm.perm List.nodup_range fun id hid => hcovers id.1 (List.mem_map_of_mem hid)).map
    RawPacket.data
  have hnone : (List.range n).flatMap (fun i =>
      (Session.queued s.receiver.interfaces i).filter accepted) = [] :=
    List.flatMap_eq_nil_iff.mpr fun i _ => by rw [hqueues, List.filter_nil]
  rw [hnone, hpackets, List.append_nil, List.append_nil, List.map_map, List.map_flatMap] at hout
  refine hout.trans (List.Perm.trans (List.Perm.of_eq ?_) ((hN n hn).filter _))
  rw [List.filter_flatMap]
  refine List.flatMap_congr ?_
  intro i _
  unfold arrivedOn
  rw [List.filter_map]
  congr 1
  refine List.filter_congr ?_
  intro raw hraw
  rw [Bool.eq_iff_iff]
  constructor
  · intro h
    simpa using not_report_of_accepted h
  · intro h
    exact accepted_of_arrived hrun hraw (by simpa using h)

theorem payloadData_fetched
    (hrun : Run (noting (step isPathValid)) Undoubled (new senderUnit receiverUnit ssrc w w') H r) :
    (fetchedPackets H).map RtpPacket.payloadData =
      ((fetchedPackets H).map fun p => p.rawpack.data).map (List.drop 24) := by
  rw [List.map_map]
  refine List.map_congr_left ?_
  intro p hp
  exact (fetched_fields (hrun.mono fun _ _ _ h => h.1) hp).1

/-- In every run over a network that brings no datagram more often than it was sent, the application fetches
no payload more often than the other one has handed it over; and once all datagrams have arrived and nothing
waits at the receiver, it has fetched each exactly once. -/
theorem payloads_fetched_once
    (hrun : Run (noting (step isPathValid)) Undoubled (new senderUnit receiverUnit ssrc w w') H (some s)) :
    ((fetchedPackets H).map RtpPacket.payloadData).Subperm (payloadsSent H) ∧
    ((rtpSent (bySender (told H))).Subperm (rtpArrived H) →
      (∀ i, Session.queued s.receiver.interfaces i = []) → s.receiver.packets = [] →
        ((fetchedPackets H).map RtpPacket.payloadData).Perm (payloadsSent H)) := by
  have hsent := filter_sentBySender (sent_rtcp_iff hrun)
  have harrived := (rtpArrived_subperm hrun).filter fun data => data[1]? ≠ some rtcpTypeSr
  rw [hsent] at harrived
  rw [payloadData_fetched hrun, ← payloads_of_sent hrun]
  constructor
  · have hfetched := (fetched_subperm_arrived hrun).trans harrived
    rw [List.map_append] at hfetched
    obtain ⟨l, hperm, hsub⟩ := (List.sublist_append_left _ _).subperm.trans hfetched
    exact ⟨l.map (List.drop 24), hperm.map _, hsub.map _⟩
  · intro hall hqueues hpackets
    have hagain : (rtpSent (bySender (told H))).filter (fun data => data[1]? ≠ some rtcpTypeSr) =
        rtpSent (bySender (told H)) := by
      rw [← hsent, List.filter_filter]
      simp
    have hback := hall.filter fun data => data[1]? ≠ some rtcpTypeSr
    rw [hagain] at hback
    exact ((fetched_perm_arrived hrun hqueues hpackets).trans (harrived.antisymm hback)).map _

end Once

section Order

variable {senderUnit receiverUnit : ℚ} {ssrc : UInt32} {w w' : World} {route : UInt16 → ℕ}

/-- Over a network whose paths keep the order: the RTP datagrams of the subflow `id` come in on the
interface `route id` only, some of them lost, but in the order in which they were sent. -/
def PathsInOrder (route : UInt16 → ℕ) (H : SystemLog) (s : System) (e : Step) : Prop :=
  Network (told H) s e ∧ ∀ i < s.receiver.interfaces.length, ∀ id,
    (ofId id (arrivedOn H i ++ s.arrivingOn i e)).Sublist
      (if route id = i then ofId id (rtpSent (bySender (told H))) else [])

theorem ofId_arrivedOn
    (hrun : Run (noting (step isPathValid)) (PathsInOrder route) (new senderUnit receiverUnit ssrc w w') H r)
    (i : ℕ) (id : UInt16) : (ofId id (arrivedOn H i)).Sublist
      (if route id = i then ofId id (rtpSent (bySender (told H))) else []) := by
  induction hrun with
  | nil => exact List.nil_sublist _
  | @snoc H s e _ hok ih =>
    have hbefore : (ofId id (arrivedOn H i ++ s.arrivingOn i e)).Sublist
        (if route id = i then ofId id (rtpSent (bySender (told H))) else []) := by
      by_cases hi : i < s.receiver.interfaces.length
      · exact hok.2 i hi id
      · rw [s.arrivingOn_eq_nil e (Nat.le_of_not_lt hi), List.append_nil]
        exact ih
    rw [arrivedOn_noting]
    refine hbefore.trans ?_
    split
    · have happend : rtpSent (bySender (told (H ++ (noting (step isPathValid) s e).log))) =
          rtpSent (bySender (told H)) ++ rtpSent (bySender (told (noting (step isPathValid) s e).log)) := by
        unfold rtpSent bySender
        rw [told_append, List.filterMap_append, List.filterMap_append]
      rw [happend, ofId_append]
      exact List.sublist_append_left _ _
    · exact List.Sublist.refl _

/-- In every run over a network whose paths keep the order, the application fetches the packets of each
subflow in the order in which they were sent, none twice, and with their payloads. -/
theorem subflows_fetched_in_order
    (hrun : Run (noting (step isPathValid)) (PathsInOrder route) (new senderUnit receiverUnit ssrc w w') H (some s))
    (id : UInt16) :
    (((fetchedPackets H).filter fun p => p.subflowId = id).map fun p => (p.rawpack.data, p.payloadData)).Sublist
      ((ofId id (rtpSent (bySender (told H)))).map fun data => (data, data.drop 24)) := by
  obtain ⟨ids, taken, hm⟩ := fetched_merged hrun
  have hother : ∀ j, j ≠ route id →
      ∀ raw ∈ Session.arrived Receiver.Step.queueCall (receiverCalls H) j, decide (idIn raw.data = id) = false := by
    intro j hj raw hraw
    have hnone := ofId_arrivedOn hrun j id
    rw [if_neg (Ne.symm hj), List.sublist_nil] at hnone
    rw [decide_eq_false_iff_not]
    intro hid
    have hmem : raw.data ∈ ofId id (arrivedOn H j) := mem_ofId.mpr ⟨List.mem_map_of_mem hraw, hid⟩
    rw [hnone] at hmem
    cases hmem
  have hqueue := (hm.filter_sublist hother).map RawPacket.data
  have harrived := ofId_arrivedOn hrun (route id) id
  rw [if_pos rfl] at harrived
  have hdata : (ofId id ((fetchedPackets H).map fun p => p.rawpack.data)).Sublist
      (ofId id (rtpSent (bySender (told H)))) := by
    have hfront : (ofId id ((fetchedPackets H).map fun p => p.rawpack.data)).Sublist
        ((((fetchedPackets H ++ s.receiver.packets).map RtpPacket.rawpack).filter
          fun raw => idIn raw.data = id).map RawPacket.data) := by
      unfold ofId
      rw [List.map_append, List.filter_append, List.map_append, List.filter_map, List.filter_map,
        List.map_map]
      exact List.sublist_append_left _ _
    refine hfront.trans (hqueue.trans ?_)
    unfold arrivedOn ofId at harrived
    rwa [List.filter_map] at harrived
  have hfields : ∀ p ∈ fetchedPackets H, p.payloadData = p.rawpack.data.drop 24 ∧
      p.subflowId = idIn p.rawpack.data := fun p hp => fetched_fields (hrun.mono fun _ _ _ h => h.1) hp
  have hpairs : ((fetchedPackets H).filter fun p => p.subflowId = id).map
      (fun p => (p.rawpack.data, p.payloadData)) =
        (ofId id ((fetchedPackets H).map fun p => p.rawpack.data)).map fun data => (data, data.drop 24) := by
    unfold ofId
    rw [List.filter_map, List.map_map]
    have hfilter : (fetchedPackets H).filter (fun p => p.subflowId = id) =
        (fetchedPackets H).filter ((fun data => decide (idIn data = id)) ∘ fun p => p.rawpack.data) := by
      refine List.filter_congr ?_
      intro p hp
      rw [(hfields p hp).2, Function.comp_apply]
    rw [hfilter]
    refine List.map_congr_left ?_
    intro p hp
    rw [(hfields p (List.mem_filter.mp hp).1).1, Function.comp_apply]
  rw [hpairs]
  exact hdata.map _

end Order

end Runs

section Crossed

/-- The order on the interface is that of all datagrams that come in there. -/
theorem ofId_sublist_of_route {route : UInt16 → ℕ} {i : ℕ} {arrived sent : List (List UInt8)}
    (h : arrived.Sublist (sent.filter fun data => route (idIn data) = i)) (id : UInt16) :
    (ofId id arrived).Sublist (if route id = i then ofId id sent else []) := by
  refine (h.filter _).trans ?_
  rw [List.filter_filter]
  split
  · exact List.monotone_filter_right _ fun data hdata => (by simp at hdata ⊢; exact hdata.1)
  · rename_i hroute
    rw [List.sublist_nil, List.filter_eq_nil_iff]
    intro data _ hdata
    simp only [Bool.and_eq_true, decide_eq_true_eq] at hdata
    rw [hdata.1] at hdata
    exact hroute hdata.2

/-- The receiver polls and receives a datagram of the sender on the RTP socket of an interface. -/
def toInterface (i n : ℕ) (H : SystemLog) : Step :=
  .receiver (.poll 10 fun j rtcp =>
    if j = i then PollInput.arrive false ⟨0x0A000001, 23000⟩ (pick (sentBySender (told H)) n) 0 rtcp else {})

theorem toInterface_network (i n : ℕ) (H : SystemLog) (s : System) : Network (told H) s (toInterface i n H) := by
  intro j rtcp a ha
  dsimp only at ha
  split at ha
  · exact delivers_pick _ n false _ 0 rtcp a ha
  · cases ha

/-- Two paths, and three packets, of which the second one overtakes the first on the other path. -/
def crossedPaths : List (SystemLog → Step) :=
  [fun _ => .sender (.addInterface ⟨0x0A000001, 23000⟩ true),
    fun _ => .sender (.addInterface ⟨0x0A000101, 23000⟩ true),
    fun _ => .sender (.connect 0xDEAD [⟨0x0A000002, 22000⟩, ⟨0x0A000102, 22000⟩]),
    fun _ => .receiver (.addInterface ⟨0x0A000002, 22000⟩ true),
    fun _ => .receiver (.addInterface ⟨0x0A000102, 22000⟩ true),
    fun _ => .sender (.sendData [65] 25), fun _ => .sender (.sendData [66, 67] 26),
    fun _ => .sender (.sendData [68] 25),
    toInterface 1 1, toInterface 0 0, toInterface 0 2,
    fun _ => .receiver .fetchPacket, fun _ => .receiver .fetchPacket, fun _ => .receiver .fetchPacket]

def crossedPathsAfter (n : ℕ) : SystemLog × Option System :=
  afterChoices (noting (step fun a b => a.ip / 256 = b.ip / 256))
    (new 1 1 0xBEEF ⟨fun n => 1000 + 5 * n, fun n => 37 * n, 0⟩ (.ticking 1000)) (crossedPaths.take n)

def crossedRoute (id : UInt16) : ℕ := if id = 1 then 0 else 1

theorem crossedPaths_run : Run (noting (step fun a b => a.ip / 256 = b.ip / 256))
    (fun H s e => Undoubled H s e ∧ PathsInOrder crossedRoute H s e)
    (new 1 1 0xBEEF ⟨fun n => 1000 + 5 * n, fun n => 37 * n, 0⟩ (.ticking 1000))
    (crossedPathsAfter 14).1 (crossedPathsAfter 14).2 := by
  have hnet : ∀ choose ∈ crossedPaths, ∀ H s, Network (told H) s (choose H) := by
    unfold crossedPaths
    simp only [List.forall_mem_cons, List.not_mem_nil, false_implies, implies_true, and_true]
    exact ⟨fun _ _ => trivial, fun _ _ => trivial, fun _ _ => trivial, fun _ _ => trivial,
      fun _ _ => trivial, fun _ _ => trivial, fun _ _ => trivial, fun _ _ => trivial,
      toInterface_network 1 1, toInterface_network 0 0, toInterface_network 0 2, fun _ _ => trivial,
      fun _ _ => trivial, fun _ _ => trivial⟩
  have hnext : ∀ n < 14, ∀ choose ∈ crossedPaths[n]?, ∀ s ∈ (crossedPathsAfter n).2,
      (rtpArrived (crossedPathsAfter n).1 ++ s.arriving (choose (crossedPathsAfter n).1)).Subperm
          ((sentBySender (told (crossedPathsAfter n).1)).map OutDatagram.data) ∧
        ∀ i < s.receiver.interfaces.length,
          (arrivedOn (crossedPathsAfter n).1 i ++ s.arrivingOn i (choose (crossedPathsAfter n).1)).Sublist
            ((rtpSent (bySender (told (crossedPathsAfter n).1))).filter
              fun data => crossedRoute (idIn data) = i) := by
    decide +kernel
  apply Run.of_choices_take
  intro n choose s hn hs
  have hlt : n < 14 := (List.getElem?_eq_some_iff.mp hn).1
  obtain ⟨hsubperm, horder⟩ := hnext n hlt choose hn s hs
  have hnetwork := hnet choose (List.mem_of_getElem? hn) (crossedPathsAfter n).1 s
  exact ⟨⟨hnetwork, hsubperm⟩, hnetwork, fun i hi => ofId_sublist_of_route (horder i hi)⟩

/-- All three payloads are fetched, each once. -/
theorem crossedPaths_fetched_once :
    ((fetchedPackets (crossedPathsAfter 14).1).map RtpPacket.payloadData).Perm [[65], [66, 67], [68]] := by
  have hsome : (crossedPathsAfter 14).2.isSome := by decide +kernel
  obtain ⟨s, hs⟩ := Option.isSome_iff_exists.mp hsome
  have hrun := crossedPaths_run.mono fun _ _ _ h => h.1
  rw [hs] at hrun
  have harrived : (rtpSent (bySender (told (crossedPathsAfter 14).1))).Subperm
      (rtpArrived (crossedPathsAfter 14).1) := by decide +kernel
  have hempty : ∀ s ∈ (crossedPathsAfter 14).2, s.receiver.packets = [] ∧
      ∀ f ∈ s.receiver.interfaces, f.packets = [] := by decide +kernel
  obtain ⟨hpackets, hinterfaces⟩ := hempty s hs
  have hqueues : ∀ i, Session.queued s.receiver.interfaces i = [] := by
    intro i
    unfold Session.queued
    cases hf : s.receiver.interfaces[i]? with
    | none => rfl
    | some f =>
      rw [Option.map_some, hinterfaces f (List.mem_of_getElem? hf)]
      rfl
  have hsent : payloadsSent (crossedPathsAfter 14).1 = [[65], [66, 67], [68]] := by decide +kernel
  rw [← hsent]
  exact (payloads_fetched_once hrun).2 harrived hqueues hpackets

/-- The packets of the first subflow are fetched in order, one of them behind the packet of the other. -/
theorem crossedPaths_in_order :
    (((fetchedPackets (crossedPathsAfter 14).1).filter fun p => p.subflowId = 1).map
      fun p => (p.rawpack.data, p.payloadData)).Sublist
        ((ofId 1 (rtpSent (bySender (told (crossedPathsAfter 14).1)))).map fun data => (data, data.drop 24)) ∧
    (fetchedPackets (crossedPathsAfter 14).1).map RtpPacket.payloadData = [[66, 67], [65], [68]] := by
  have hsome : (crossedPathsAfter 14).2.isSome := by decide +kernel
  obtain ⟨s, hs⟩ := Option.isSome_iff_exists.mp hsome
  have hrun := crossedPaths_run.mono fun _ _ _ h => h.2
  rw [hs] at hrun
  exact ⟨subflows_fetched_in_order hrun 1, by decide +kernel⟩

end Crossed

end System

end Mprtp
