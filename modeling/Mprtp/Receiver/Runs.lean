import Mprtp.Receiver.History
import Mprtp.Receiver.Rules
import Mprtp.Source.Report
import Mprtp.Packet.Fields

/-! The invariant of a receiver's runs: its sources follow the packets handled so far, and the
packets it has returned or still keeps are those packets, renumbered. -/
namespace Mprtp

def Call.rtp? : Call → Option RtpPacket
  | .rtp pkt _ => some pkt
  | .rtcp _ _ => none

def ReceiverEvent.fetched? : ReceiverEvent → Option RtpPacket
  | .fetched pkt => some pkt
  | _ => none

theorem ReceiverEvent.eq_fetched {e : ReceiverEvent} {p : RtpPacket} (h : e.fetched? = some p) :
    e = .fetched p := by
  cases e with
  | fetched q =>
    cases h
    rfl
  | _ => cases h

/-- The RTP packets handled in a log, as parsed, in order. -/
def handledRtp (H : List ReceiverEvent) : List RtpPacket := (callsOf H).filterMap Call.rtp?

/-- The packets that `fetch_packet` has returned in a log, in order. -/
def fetchedPackets (H : List ReceiverEvent) : List RtpPacket :=
  H.filterMap ReceiverEvent.fetched?

/-- The log `H'` has no handler call and no returned packet more than `H`. -/
def SameTold (H H' : List ReceiverEvent) : Prop :=
  callsOf H' = callsOf H ∧ fetchedPackets H' = fetchedPackets H

theorem SameTold.mentions {H H' : List ReceiverEvent} (h : SameTold H H') (ssrc : UInt32) :
    mentions H' ssrc = mentions H ssrc := by
  unfold Mprtp.mentions
  rw [h.1]

theorem SameTold.concat {H H' : List ReceiverEvent} (h : SameTold H H') {e : ReceiverEvent}
    (hc : e.call? = none) (hf : e.fetched? = none) : SameTold H (H' ++ [e]) := by
  constructor
  · rw [← h.1]
    unfold callsOf
    rw [List.filterMap_append]
    simp [hc]
  · rw [← h.2]
    unfold fetchedPackets
    rw [List.filterMap_append]
    simp [hf]

theorem mem_rtpIds_mentions {H : List ReceiverEvent} {ssrc : UInt32} {id : UInt16} :
    id ∈ rtpIds (mentions H ssrc) ↔ ∃ q ∈ handledRtp H, q.ssrc = ssrc ∧ q.subflowId = id := by
  unfold rtpIds mentions handledRtp
  simp only [List.mem_map, List.mem_filter, List.mem_filterMap]
  constructor
  · intro h
    obtain ⟨m, ⟨⟨c, hc, hm⟩, hr⟩, rfl⟩ := h
    cases c with
    | rtp pkt i =>
      rw [Call.mention_rtp] at hm
      split at hm
      · rename_i hs
        cases hm
        exact ⟨pkt, ⟨_, hc, rfl⟩, hs, rfl⟩
      · cases hm
    | rtcp call i =>
      cases call with
      | sr pkt k =>
        rw [Call.mention_sr] at hm
        split at hm
        · cases hm
          cases hr
        · cases hm
      | rr pkt k s => cases hm
  · intro h
    obtain ⟨q, ⟨c, hc, hq⟩, rfl, rfl⟩ := h
    cases c with
    | rtp pkt i =>
      cases hq
      exact ⟨_, ⟨⟨_, hc, if_pos rfl⟩, rfl⟩, rfl⟩
    | rtcp call i => cases hq

/-- The sources of a receiver follow the log. -/
structure ReceiverData.Follows (d : ReceiverData) (H : List ReceiverEvent) : Prop where
  ordered : Keyed.Ordered Source.key d.sources
  sources : ∀ src ∈ d.sources,
    src.Follows (mentions H src.ssrc) (rtpIds (mentions H src.ssrc))
  absent : ∀ ssrc, (∀ src ∈ d.sources, src.ssrc ≠ ssrc) → mentions H ssrc = []

namespace ReceiverData

variable {d : ReceiverData} {H H' : List ReceiverEvent}

theorem getSource_ssrc (d : ReceiverData) (ssrc : UInt32) : (d.getSource ssrc).ssrc = ssrc := by
  unfold getSource
  cases h : Keyed.find? Source.key ssrc.toNat d.sources with
  | none => rfl
  | some src =>
    have hkey : src.ssrc.toNat = ssrc.toNat := (Keyed.find?_mem h).2
    exact UInt32.toNat_inj.mp hkey

theorem Follows.getSource (h : d.Follows H) (ssrc : UInt32) :
    (d.getSource ssrc).Follows (mentions H ssrc) (rtpIds (mentions H ssrc)) := by
  have hssrc := d.getSource_ssrc ssrc
  unfold ReceiverData.getSource at hssrc ⊢
  cases hfind : Keyed.find? Source.key ssrc.toNat d.sources with
  | none =>
    have habsent : mentions H ssrc = [] := by
      apply h.absent
      intro src hsrc he
      exact Keyed.find?_eq_none.mp hfind src hsrc (congrArg UInt32.toNat he)
    rw [habsent]
    exact Source.Follows.new ssrc d.ssrc
  | some src =>
    have hssrc' : src.ssrc = ssrc := by
      rw [hfind] at hssrc
      exact hssrc
    have hsrc := h.sources src (Keyed.find?_mem hfind).1
    rwa [hssrc'] at hsrc

/-- Storing a source after a log entry that is about its SSRC only. -/
theorem Follows.setSource (h : d.Follows H) {src : Source}
    (hsrc : src.Follows (mentions H' src.ssrc) (rtpIds (mentions H' src.ssrc)))
    (hrest : ∀ ssrc, ssrc ≠ src.ssrc → mentions H' ssrc = mentions H ssrc) :
    (d.setSource src).Follows H' where
  ordered := h.ordered.insert src
  sources := by
    intro src' hsrc'
    rcases (Keyed.mem_insert h.ordered).mp hsrc' with rfl | ⟨hmem, hne⟩
    · exact hsrc
    · have hne' : src'.ssrc ≠ src.ssrc := fun he => hne (congrArg UInt32.toNat he)
      rw [hrest _ hne']
      exact h.sources src' hmem
  absent := by
    intro ssrc hno
    have hne : src.ssrc ≠ ssrc := hno src ((Keyed.mem_insert h.ordered).mpr (Or.inl rfl))
    rw [hrest ssrc (Ne.symm hne)]
    apply h.absent
    intro src' hsrc' he
    refine hno src' ((Keyed.mem_insert h.ordered).mpr (Or.inr ⟨hsrc', ?_⟩)) he
    intro hkey
    exact hne ((UInt32.toNat_inj.mp hkey).symm.trans he)

theorem Follows.congr (h : d.Follows H) (hs : SameTold H H') : d.Follows H' where
  ordered := h.ordered
  sources := by
    intro src hsrc
    rw [hs.mentions]
    exact h.sources src hsrc
  absent := by
    intro ssrc hno
    rw [hs.mentions]
    exact h.absent ssrc hno

end ReceiverData

namespace Source

theorem findSubflow_ssrc (src : Source) (id : UInt16) (addr : Endpoint) (iface : ℕ) (w : World) :
    (src.findSubflow id addr iface w).2.1.ssrc = src.ssrc := by
  unfold findSubflow
  split <;> rfl

theorem processPacket_ssrc (src : Source) (pack : RtpPacket) (tsunit : ℚ) (iface : ℕ)
    (w : World) : (src.processPacket pack tsunit iface w).2.1.ssrc = src.ssrc := by
  have hsub : ∀ (src : Source) (pack : RtpPacket),
      (src.processOnSubflow pack tsunit iface w).2.1.ssrc = src.ssrc := by
    intro src pack
    unfold processOnSubflow
    dsimp only
    split <;> exact findSubflow_ssrc _ _ _ _ _
  unfold processPacket
  dsimp only
  split <;> exact hsub _ _

theorem processSrPacket_ssrc (src : Source) (pkt : RtcpSrPacket) (id : UInt16) (iface : ℕ)
    (w : World) : (src.processSrPacket pkt id iface w).1.ssrc = src.ssrc := by
  unfold processSrPacket
  split
  · rfl
  · dsimp only
    split <;> exact findSubflow_ssrc _ _ _ _ _

end Source

namespace ReceiverData.Follows

variable {d : ReceiverData} {H : List ReceiverEvent}

theorem onRtpPacket (h : d.Follows H) (w : World) (pkt : RtpPacket) (iface : ℕ) :
    let r := d.onRtpPacket w pkt iface
    r.2.2.1.Follows (H ++ [.visit d (.rtp pkt iface)]) ∧
      Source.Follows.Numbered (rtpIds (mentions H pkt.ssrc)) pkt r.2.1 := by
  have hm : ∀ ssrc, mentions (H ++ [.visit d (.rtp pkt iface)]) ssrc =
      mentions H ssrc ++ if pkt.ssrc = ssrc then [rtpMention pkt] else [] := by
    intro ssrc
    rw [mentions_visit, Call.mention_rtp]
    split <;> rfl
  obtain ⟨hf, hn⟩ := (h.getSource pkt.ssrc).processPacket (fun id => mem_rtpIds_ids) pkt
    d.timestampUnit iface w
  have hssrc : ((d.getSource pkt.ssrc).processPacket pkt d.timestampUnit iface w).2.1.ssrc =
      pkt.ssrc := by
    rw [Source.processPacket_ssrc, d.getSource_ssrc]
  unfold ReceiverData.onRtpPacket
  generalize (d.getSource pkt.ssrc).processPacket pkt d.timestampUnit iface w = r at hf hn hssrc ⊢
  obtain ⟨pkt', src, w'⟩ := r
  dsimp only at hf hn hssrc ⊢
  refine ⟨h.setSource ?_ ?_, hn⟩
  · rw [hssrc, hm, if_pos rfl]
    have hids : rtpIds (mentions H pkt.ssrc ++ [rtpMention pkt]) =
        rtpIds (mentions H pkt.ssrc) ++ [pkt.subflowId] := by
      unfold rtpIds
      rw [List.filter_append, List.map_append]
      rfl
    rw [hids]
    exact hf
  · intro ssrc hne
    rw [hssrc] at hne
    rw [hm, if_neg (Ne.symm hne), List.append_nil]

theorem onRtcpSrPacket (h : d.Follows H) (w : World) (pkt : RtcpSrPacket) (id : UInt16)
    (iface : ℕ) :
    (d.onRtcpSrPacket w pkt id iface).1.Follows (H ++ [.visit d (.rtcp (.sr pkt id) iface)]) := by
  have hm : ∀ ssrc, mentions (H ++ [.visit d (.rtcp (.sr pkt id) iface)]) ssrc =
      mentions H ssrc ++
        if pkt.senderSsrc = ssrc ∧ id ≠ 0 then [srMention pkt id] else [] := by
    intro ssrc
    rw [mentions_visit, Call.mention_sr]
    split <;> rfl
  have hf := (h.getSource pkt.senderSsrc).processSrPacket (fun id => mem_rtpIds_ids) pkt id iface w
  have hssrc : ((d.getSource pkt.senderSsrc).processSrPacket pkt id iface w).1.ssrc =
      pkt.senderSsrc := by
    rw [Source.processSrPacket_ssrc, d.getSource_ssrc]
  unfold ReceiverData.onRtcpSrPacket
  generalize (d.getSource pkt.senderSsrc).processSrPacket pkt id iface w = r at hf hssrc ⊢
  obtain ⟨src, w'⟩ := r
  dsimp only at hf hssrc ⊢
  apply h.setSource
  · have hm' : mentions (H ++ [.visit d (.rtcp (.sr pkt id) iface)]) pkt.senderSsrc =
        mentions H pkt.senderSsrc ++ if id = 0 then [] else [srMention pkt id] := by
      rw [hm]
      by_cases hz : id = 0 <;> simp [hz]
    have hids : rtpIds (mentions (H ++ [.visit d (.rtcp (.sr pkt id) iface)]) pkt.senderSsrc) =
        rtpIds (mentions H pkt.senderSsrc) := by
      rw [hm']
      unfold rtpIds
      rw [List.filter_append]
      by_cases hz : id = 0
      · simp [hz]
      · simp [hz, srMention]
    rw [hssrc, hids, hm']
    exact hf
  · intro ssrc hne
    rw [hssrc] at hne
    rw [hm, if_neg (fun hc => hne hc.1.symm), List.append_nil]

end ReceiverData.Follows

/-- A packet `p` that `process_packet` made of the parsed packet `q`, with the packets handled
before it: the first packet of a subflow has lost its sequence number. -/
structure Renumbered (before : List RtpPacket) (q p : RtpPacket) : Prop where
  parsed : RtpPacket.parse p.rawpack = .ok q
  subflowNumber : p.subflowSequenceNumber = q.subflowSequenceNumber
  number : p.sequenceNumber =
    if ∃ q' ∈ before, q'.ssrc = q.ssrc ∧ q'.subflowId = q.subflowId then q.sequenceNumber
    else q.subflowSequenceNumber

/-- The packets `out` are those handled in a log, one by one. -/
structure Delivered (H : List ReceiverEvent) (out : List RtpPacket) : Prop where
  length : out.length = (handledRtp H).length
  renumbered : ∀ n q p, (handledRtp H)[n]? = some q → out[n]? = some p →
    Renumbered ((handledRtp H).take n) q p

theorem Delivered.congr {H H' : List ReceiverEvent} {out : List RtpPacket} (h : Delivered H out)
    (hc : callsOf H' = callsOf H) : Delivered H' out := by
  have hh : handledRtp H' = handledRtp H := by
    unfold handledRtp
    rw [hc]
  exact ⟨hh ▸ h.length, hh ▸ h.renumbered⟩

theorem handledRtp_visit (H : List ReceiverEvent) (d : ReceiverData) (c : Call) :
    handledRtp (H ++ [.visit d c]) = handledRtp H ++ c.rtp?.toList := by
  unfold handledRtp callsOf
  rw [List.filterMap_append, List.filterMap_append]
  cases h : c.rtp? <;> simp [ReceiverEvent.call?, h]

theorem fetchedPackets_visit (H : List ReceiverEvent) (d : ReceiverData) (c : Call) :
    fetchedPackets (H ++ [.visit d c]) = fetchedPackets H := by
  unfold fetchedPackets
  rw [List.filterMap_append]
  simp [ReceiverEvent.fetched?]

/-- One packet more is handled and delivered. -/
theorem Delivered.concat {H : List ReceiverEvent} {out : List RtpPacket} (h : Delivered H out)
    {d : ReceiverData} {q p : RtpPacket} {i : ℕ} (hparse : RtpPacket.parse q.rawpack = .ok q)
    (hn : Source.Follows.Numbered (rtpIds (mentions H q.ssrc)) q p) :
    Delivered (H ++ [.visit d (.rtp q i)]) (out ++ [p]) := by
  have hh : handledRtp (H ++ [.visit d (.rtp q i)]) = handledRtp H ++ [q] := handledRtp_visit H d _
  constructor
  · rw [hh, List.length_append, List.length_append, h.length]
    rfl
  · rw [hh]
    intro n q' p' hq hp
    rcases Nat.lt_trichotomy n (handledRtp H).length with hlt | heq | hgt
    · rw [List.getElem?_append_left hlt] at hq
      rw [List.getElem?_append_left (h.length ▸ hlt)] at hp
      rw [List.take_append_of_le_length hlt.le]
      exact h.renumbered n q' p' hq hp
    · subst heq
      rw [List.getElem?_concat_length] at hq
      rw [← h.length, List.getElem?_concat_length] at hp
      cases hq
      cases hp
      rw [List.take_left]
      refine ⟨hn.rawpack ▸ hparse, hn.subflowNumber, ?_⟩
      rw [hn.number]
      simp only [mem_rtpIds_mentions]
    · rw [List.getElem?_eq_none (by simp; omega)] at hq
      cases hq

/-- What an entry of a receiver's log says about the log in front of it. -/
def Told (H : List ReceiverEvent) : ReceiverEvent → Prop
  | .visit _ _ => True
  | .poll src => src.Follows (mentions H src.ssrc) (rtpIds (mentions H src.ssrc))
  | .report ssrc _ blocks => ∃ (src : Source) (w : World),
      src.Follows (mentions H ssrc) (rtpIds (mentions H ssrc)) ∧
        blocks = (src.createSubflowsRrPacket w).1
  | .sent ssrc out => ∃ addr, (mentions H ssrc).head?.map Mention.addr = some addr ∧
      out.dest = ⟨addr.ip, addr.port + 1⟩
  | .fetched p => ∃ q, (handledRtp H)[(fetchedPackets H).length]? = some q ∧
      Renumbered ((handledRtp H).take (fetchedPackets H).length) q p

/-- The invariant of a receiver's data and of the packets it keeps. -/
structure Receiver.Invariant (H : List ReceiverEvent) (d : ReceiverData) (packets : List RtpPacket) :
    Prop where
  follows : d.Follows H
  delivered : Delivered H (fetchedPackets H ++ packets)

theorem Source.Follows.reported {src : Source} {ms : List Mention} {rs : List UInt16}
    (h : src.Follows ms rs) : src.reported.Follows ms rs where
  ids := by
    rw [← h.ids]
    unfold Source.reported
    rw [List.map_map]
    rfl
  front := by
    rw [← h.front]
    unfold Source.reported
    cases src.subflows <;> rfl
  received := by
    intro sf hsf
    obtain ⟨sf₀, h₀, rfl⟩ := List.mem_map.mp hsf
    exact h.received sf₀ h₀
  cycles := by
    intro sf hsf
    obtain ⟨sf₀, h₀, rfl⟩ := List.mem_map.mp hsf
    exact h.cycles sf₀ h₀
  streamCycles := h.streamCycles

namespace Source.Polled

variable {src src' : Source}

theorem ssrc (h : src.Polled src') : src'.ssrc = src.ssrc := by
  rcases h with rfl | rfl <;> rfl

theorem map_ssrc {srcs srcs' : List Source} (h : srcs.Forall₂ Polled srcs') :
    srcs'.map Source.ssrc = srcs.map Source.ssrc := by
  induction h with
  | nil => rfl
  | cons hp _ ih => rw [List.map_cons, List.map_cons, hp.ssrc, ih]

theorem follows {ms : List Mention} {rs : List UInt16} (h : src.Polled src')
    (hf : src.Follows ms rs) : src'.Follows ms rs := by
  rcases h with rfl | rfl
  · exact hf
  · exact hf.reported

end Source.Polled

/-- Polling the sources keeps what they follow, their order and their SSRCs. -/
theorem ReceiverData.Follows.polled {d : ReceiverData} {H : List ReceiverEvent} (h : d.Follows H)
    {srcs : List Source} (hs : d.sources.Forall₂ Source.Polled srcs) :
    { d with sources := srcs }.Follows H := by
  have hmap := Source.Polled.map_ssrc hs
  refine ⟨?_, ?_, ?_⟩
  · have hpair : (d.sources.map Source.ssrc).Pairwise fun a b => a.toNat < b.toNat :=
      List.pairwise_map.mpr h.ordered
    rw [← hmap] at hpair
    have hpair' := List.pairwise_map.mp hpair
    exact hpair'
  · intro src' hsrc'
    obtain ⟨k, hk, rfl⟩ := List.getElem_of_mem hsrc'
    have hk' : k < d.sources.length := hs.length_eq ▸ hk
    have hp : d.sources[k].Polled srcs[k] := hs.get hk' hk
    rw [hp.ssrc]
    exact hp.follows (h.sources _ (List.getElem_mem hk'))
  · intro ssrc hno
    apply h.absent
    intro src hsrc he
    have hmem : ssrc ∈ srcs.map Source.ssrc := by
      rw [hmap]
      exact List.mem_map.mpr ⟨src, hsrc, he⟩
    obtain ⟨src', hsrc', he'⟩ := List.mem_map.mp hmem
    exact hno src' hsrc' he'

namespace Receiver

/-- An entry that is no call and returns no packet. -/
theorem Invariant.concat {H : List ReceiverEvent} {d : ReceiverData} {packets : List RtpPacket}
    (h : Invariant H d packets) {e : ReceiverEvent} (hc : e.call? = none) (hf : e.fetched? = none) :
    Invariant (H ++ [e]) d packets := by
  have hs : SameTold H (H ++ [e]) := SameTold.concat ⟨rfl, rfl⟩ hc hf
  refine ⟨h.follows.congr hs, ?_⟩
  rw [hs.2]
  exact h.delivered.congr hs.1

/-- Every step tells the truth and keeps the invariant. -/
theorem keptBySteps : KeptBySteps (fun _ => True) Told Invariant where
  rtp := by
    intro H d packets w raw pkt i _ hparse h
    obtain ⟨hf, hn⟩ := h.follows.onRtpPacket w pkt i
    have hd := h.delivered.concat (d := d) (i := i)
      ((RtpPacket.parse_fields hparse).rawpack ▸ hparse) hn
    rw [List.append_assoc] at hd
    refine ⟨trivial, hf, ?_⟩
    rw [fetchedPackets_visit]
    exact hd
  sr := by
    intro H d packets w pkt id i h
    have hh := handledRtp_visit H d (.rtcp (.sr pkt id) i)
    rw [Call.rtp?, Option.toList_none, List.append_nil] at hh
    refine ⟨trivial, h.follows.onRtcpSrPacket w pkt id i, ?_⟩
    rw [fetchedPackets_visit]
    exact ⟨hh ▸ h.delivered.length, hh ▸ h.delivered.renumbered⟩
  rr := by
    intro H d packets pkt id ssrc i h
    have hh := handledRtp_visit H d (.rtcp (.rr pkt id ssrc) i)
    rw [Call.rtp?, Option.toList_none, List.append_nil] at hh
    have hm : ∀ s, mentions (H ++ [.visit d (.rtcp (.rr pkt id ssrc) i)]) s = mentions H s := by
      intro s
      rw [mentions_visit, Call.mention_rr, Option.toList_none, List.append_nil]
    refine ⟨trivial, ⟨h.follows.ordered, ?_, ?_⟩, ?_⟩
    · intro src hsrc
      rw [hm]
      exact h.follows.sources src hsrc
    · intro s hno
      rw [hm]
      exact h.follows.absent s hno
    · rw [fetchedPackets_visit]
      exact ⟨hh ▸ h.delivered.length, hh ▸ h.delivered.renumbered⟩
  poll := by
    intro H d packets src hsrc h
    exact ⟨h.follows.sources src hsrc, h.concat rfl rfl⟩
  report := by
    intro H d packets src w hsrc _ h
    have hsame := h.follows.sources src hsrc
    have hstat : ({ src with sendRr := false }.createRrPacket w.tick).2.1.Follows
        (mentions H src.ssrc) (rtpIds (mentions H src.ssrc)) := hsame.congr rfl hsame.streamCycles
    exact ⟨⟨_, _, hstat, rfl⟩, h.concat rfl rfl⟩
  sent := by
    intro H d packets src w sf out hsrc _ hsf hout h
    have hfront := (h.follows.sources src hsrc).reported.front
    rw [hsf] at hfront
    subst hout
    exact ⟨⟨sf.remote, hfront.symm, rfl⟩, h.concat rfl rfl⟩
  polled := by
    intro H d packets srcs hs h
    exact ⟨h.follows.polled hs, h.delivered⟩
  fetched := by
    intro H d p ps h
    have hd := h.delivered
    have hout : (fetchedPackets H ++ p :: ps)[(fetchedPackets H).length]? = some p := by simp
    have hlt : (fetchedPackets H).length < (handledRtp H).length := by
      rw [← hd.length]
      simp
    have hq := List.getElem?_eq_getElem hlt
    have htold : Told H (.fetched p) := ⟨_, hq, hd.renumbered _ _ p hq hout⟩
    have hcalls : callsOf (H ++ [.fetched p]) = callsOf H := by simp [callsOf, ReceiverEvent.call?]
    have hfetched : fetchedPackets (H ++ [.fetched p]) = fetchedPackets H ++ [p] := by
      simp [fetchedPackets, ReceiverEvent.fetched?]
    have hm : ∀ ssrc, mentions (H ++ [.fetched p]) ssrc = mentions H ssrc :=
      mentions_of_call?_none rfl
    refine ⟨htold, ⟨h.follows.ordered, ?_, ?_⟩, ?_⟩
    · intro src hsrc
      rw [hm]
      exact h.follows.sources src hsrc
    · intro ssrc hno
      rw [hm]
      exact h.follows.absent ssrc hno
    · rw [hfetched, List.append_assoc]
      exact hd.congr hcalls

theorem invariant_new (timestampUnit : ℚ) (ssrc : UInt32) (w : World) :
    Invariant [] (new timestampUnit ssrc w).obj (new timestampUnit ssrc w).packets := by
  refine ⟨⟨List.Pairwise.nil, ?_, fun _ _ => rfl⟩, rfl, ?_⟩
  · intro src hsrc
    simp [new] at hsrc
  · intro n q p hq
    simp [handledRtp, callsOf] at hq

section

variable {timestampUnit : ℚ} {ssrc : UInt32} {w : World} {H : List ReceiverEvent}
  {r : Option Receiver}

/-- The invariant holds in every state that a run reaches. -/
theorem run_invariant (hrun : Run step (fun _ _ _ => True) (new timestampUnit ssrc w) H r)
    {r' : Receiver} (hr : r = some r') : Invariant H r'.obj r'.packets :=
  (keptBySteps.parts.run (invariant_new timestampUnit ssrc w) hrun).2 r' hr

/-- Every entry of the log of a run tells the truth. -/
theorem run_told (hrun : Run step (fun _ _ _ => True) (new timestampUnit ssrc w) H r)
    {n : ℕ} {e : ReceiverEvent} (hn : H[n]? = some e) : Told (H.take n) e :=
  (keptBySteps.parts.run (invariant_new timestampUnit ssrc w) hrun).1 n e hn

end

end Receiver

end Mprtp
