import Mprtp.Lib.Grouped
import Mprtp.Receiver.Stats
import Mprtp.Sender.Numbers
import Mprtp.Session.Order
import Mprtp.Stat.Gapless

/-! A receiver that gets the packets of each subflow in order and without a gap. -/
namespace Mprtp

/-- The statistics after packets of one SSRC and subflow, given their datagrams. -/
def SourceStats.After (st : SourceStats) (l : List (List UInt8)) : Prop :=
  match l.getLast? with
  | none => st.Untouched
  | some data => st.Gapless (numberIn data)

namespace SourceStats.After

variable {st : SourceStats} {l : List (List UInt8)}

theorem startNewInterval (h : st.After l) : st.startNewInterval.After l := by
  unfold After at h ⊢
  cases hl : l.getLast? with
  | none =>
    rw [hl] at h
    exact Untouched.startNewInterval h
  | some data =>
    rw [hl] at h
    exact Gapless.startNewInterval h

/-- The next packet. -/
theorem concat (h : st.After l) {data : List UInt8} (hnext : ∀ last ∈ l.getLast?, NextNumber last data)
    {pack : RtpPacket} (hp : pack.subflowExtseqnr = (numberIn data).toUInt32) (tsunit : ℚ) :
    (st.processPacket pack true tsunit).1.After (l ++ [data]) := by
  unfold After at h ⊢
  rw [List.getLast?_concat]
  cases hl : l.getLast? with
  | none =>
    rw [hl] at h
    exact Untouched.processPacket h hp tsunit
  | some last =>
    rw [hl] at h
    have hnumber : numberIn data = numberIn last + 1 := hnext last hl
    rw [hnumber] at hp
    dsimp only
    rw [hnumber]
    exact Gapless.processPacket h hp tsunit

end SourceStats.After

/-- The datagrams of a subflow with one SSRC. -/
def ofFlow (ssrc : UInt32) (id : UInt16) (l : List (List UInt8)) : List (List UInt8) :=
  (ofId id l).filter fun data => ssrcIn data = ssrc

theorem ofFlow_concat (ssrc : UInt32) (id : UInt16) (l : List (List UInt8)) (data : List UInt8) :
    ofFlow ssrc id (l ++ [data]) =
      ofFlow ssrc id l ++ if ssrc = ssrcIn data ∧ id = idIn data then [data] else [] := by
  unfold ofFlow
  rw [ofId_append, ofId_singleton, List.filter_append]
  by_cases hid : idIn data = id
  · rw [if_pos hid, List.filter_singleton, Bool.cond_decide]
    simp only [hid, eq_comm, and_true]
  · rw [if_neg hid, if_neg fun h => hid h.2.symm]
    rfl

/-- The datagrams of the RTP packets handled in a log, in order. -/
def handledData (L : List ReceiverEvent) : List (List UInt8) :=
  (handledRtp L).map fun pkt => pkt.rawpack.data

theorem handledData_visit (L : List ReceiverEvent) (d : ReceiverData) (c : Call) :
    handledData (L ++ [.visit d c]) =
      handledData L ++ (c.rtp?.map fun pkt => pkt.rawpack.data).toList := by
  unfold handledData
  rw [handledRtp_visit, List.map_append]
  cases c.rtp? <;> rfl

theorem handledData_of_call?_none {L : List ReceiverEvent} {e : ReceiverEvent} (h : e.call? = none) :
    handledData (L ++ [e]) = handledData L := by
  unfold handledData handledRtp callsOf
  rw [List.filterMap_append]
  simp [h]

/-- What a poll brings a receiver that has handled `L`, where `route` is the interface that each
subflow leads to: together with what came before, it is on each subflow the beginning of what was
sent. -/
def PollInput.InOrder (route : UInt16 → ℕ) (S : List (List UInt8)) (L : List ReceiverEvent)
    (fs : List Interface) (io : PollInput) : Prop :=
  ∀ id, ofId id (handledData L ++ Session.rtpQueue fs (route id) ++ (io (route id) false).received) <+:
      ofId id S ∧
    ∀ i, i ≠ route id → ofId id (io i false).received = []

/-- The SSRCs change on each subflow from one to the next, and none comes back. -/
def SsrcsGrouped (S : List (List UInt8)) : Prop := ∀ id, Grouped ((ofId id S).map ssrcIn)

theorem SsrcsGrouped.mono {S S' : List (List UInt8)} (h : SsrcsGrouped S') (hp : S <+: S') :
    SsrcsGrouped S := fun id => (h id).mono ((hp.filter _).map _)

/-- A receiver that has handled `L`, with the queues `q`, of what was sent in the order `S`. -/
structure Fed (route : UInt16 → ℕ) (S : List (List UInt8)) (q : ℕ → List (List UInt8))
    (L : List ReceiverEvent) (d : ReceiverData) : Prop where
  ordered : Keyed.Ordered Source.key d.sources
  order : ∀ id, ofId id (handledData L ++ q (route id)) <+: ofId id S
  apart : ∀ id i, i ≠ route id → ofId id (q i) = []
  short : ∀ i, ∀ data ∈ q i, data.length ≤ maxPacketSize
  stats : SsrcsGrouped S → ∀ ssrc id, (d.statAt ssrc id).After (ofFlow ssrc id (handledData L))

/-- What a log says of the statistics that a report is filled from. -/
def GaplessPolled (S : List (List UInt8)) : ReceiverEvent → Prop
  | .poll src => SsrcsGrouped S → ∀ id, (src.statOf id).Untouched ∨ ∃ last, (src.statOf id).Gapless last
  | _ => True

namespace Fed

variable {route : UInt16 → ℕ} {S S' : List (List UInt8)} {q : ℕ → List (List UInt8)}
  {L : List ReceiverEvent} {d d' : ReceiverData} {raw : RawPacket} {rest : List (List UInt8)} {i : ℕ}

/-- More is sent. -/
theorem mono (h : Fed route S q L d) (hp : S <+: S') : Fed route S' q L d where
  ordered := h.ordered
  order := fun id => (h.order id).trans (hp.filter _)
  apart := h.apart
  short := h.short
  stats := fun hg => h.stats (hg.mono hp)

/-- The next datagram in a queue is the next one that was sent on its subflow. -/
theorem head (h : Fed route S q L d) (hq : q i = raw.data :: rest) :
    i = route (idIn raw.data) ∧ ∃ after,
      ofId (idIn raw.data) S = ofId (idIn raw.data) (handledData L) ++ raw.data :: after := by
  have hmem : raw.data ∈ ofId (idIn raw.data) (q i) := mem_ofId.mpr ⟨by simp [hq], rfl⟩
  have hroute : i = route (idIn raw.data) := by
    by_contra hne
    rw [h.apart _ i hne] at hmem
    cases hmem
  obtain ⟨after, hafter⟩ := h.order (idIn raw.data)
  have hfirst : ofId (idIn raw.data) (q (route (idIn raw.data))) =
      raw.data :: ofId (idIn raw.data) rest := by
    rw [← hroute, hq, ← List.singleton_append, ofId_append, ofId_singleton, if_pos rfl]
    rfl
  refine ⟨hroute, ofId (idIn raw.data) rest ++ after, ?_⟩
  rw [← hafter, ofId_append, hfirst, List.append_assoc, List.cons_append]

theorem head_mem (h : Fed route S q L d) (hq : q i = raw.data :: rest) : raw.data ∈ S := by
  obtain ⟨-, after, hafter⟩ := h.head hq
  have hmem : raw.data ∈ ofId (idIn raw.data) S := by
    rw [hafter]
    simp
  exact (mem_ofId.mp hmem).1

/-- The queues after the next datagram is handled. -/
theorem queues (h : Fed route S q L d) (hq : q i = raw.data :: rest) :
    (∀ id, ofId id (handledData L ++ [raw.data] ++ Function.update q i rest (route id)) <+: ofId id S) ∧
      (∀ id j, j ≠ route id → ofId id (Function.update q i rest j) = []) ∧
      ∀ j, ∀ data ∈ Function.update q i rest j, data.length ≤ maxPacketSize := by
  obtain ⟨hroute, -⟩ := h.head hq
  refine ⟨?_, ?_, ?_⟩
  · intro id
    have horder := h.order id
    by_cases hi : route id = i
    · rw [hi, Function.update_self, List.append_assoc, List.singleton_append, ← hq, ← hi]
      exact horder
    · have hid : idIn raw.data ≠ id := by
        intro he
        rw [he] at hroute
        exact hi hroute.symm
      rw [Function.update_of_ne hi, ofId_append, ofId_append, ofId_singleton, if_neg hid,
        List.append_nil, ← ofId_append]
      exact horder
  · intro id j hj
    have hapart := h.apart id j hj
    by_cases hij : j = i
    · rw [hij, hq, ← List.singleton_append, ofId_append, List.append_eq_nil_iff] at hapart
      rw [hij, Function.update_self]
      exact hapart.2
    · rw [Function.update_of_ne hij]
      exact hapart
  · intro j data hdata
    by_cases hij : j = i
    · rw [hij, Function.update_self] at hdata
      exact h.short i data (by simp [hq, hdata])
    · rw [Function.update_of_ne hij] at hdata
      exact h.short j data hdata

/-- The next datagram is handled. -/
theorem onRtpPacket (h : Fed route S q L d) (hS : Sequenced S) (hq : q i = raw.data :: rest)
    {pkt : RtpPacket} (hparse : RtpPacket.parse raw = .ok pkt) (w : World) :
    Fed route S (Function.update q i rest) (L ++ [.visit d (.rtp pkt i)])
      (d.onRtpPacket w pkt i).2.2.1 := by
  obtain ⟨horder, hapart, hshort⟩ := h.queues hq
  obtain ⟨-, after, hafter⟩ := h.head hq
  obtain ⟨seq, timestamp, ssrc, id, n, payload, hdata⟩ := hS.packets raw.data (h.head_mem hq)
  obtain ⟨hssrc, hid, hext⟩ := parse_numbers hdata hparse
  obtain ⟨hssrcIn, hidIn, hnumber⟩ := in_rtpBytes seq timestamp ssrc id n payload
  rw [← hdata] at hssrcIn hidIn hnumber
  rw [← hssrcIn] at hssrc
  rw [← hidIn] at hid
  rw [← hnumber] at hext
  have hhandled : handledData (L ++ [.visit d (.rtp pkt i)]) = handledData L ++ [raw.data] := by
    rw [handledData_visit]
    change handledData L ++ [pkt.rawpack.data] = _
    rw [(RtpPacket.parse_fields hparse).rawpack]
  refine ⟨h.ordered.insert _, ?_, hapart, hshort, ?_⟩
  · rw [hhandled]
    exact horder
  · intro hg ssrc' id'
    have hstat := h.stats hg ssrc' id'
    rw [hhandled, ofFlow_concat, ReceiverData.onRtpPacket_stat h.ordered, hssrc, hid]
    by_cases hflow : ssrc' = ssrcIn raw.data ∧ id' = idIn raw.data
    · rw [if_pos hflow, if_pos hflow]
      apply hstat.concat ?_ hext
      obtain ⟨rfl, rfl⟩ := hflow
      intro last hlast
      exact (hg (idIn raw.data)).follows (hS.numbers _) hafter hlast
    · rw [if_neg hflow, if_neg hflow, List.append_nil]
      exact hstat

/-- No datagram is refused. -/
theorem not_refused (h : Fed route S q L d) (hS : Sequenced S) (hq : q i = raw.data :: rest)
    (hrtcp : raw.isrtcp = false) (e : ℤ) : RtpPacket.parse raw ≠ .error e := by
  obtain ⟨seq, timestamp, ssrc, id, n, payload, hdata⟩ := hS.packets raw.data (h.head_mem hq)
  have hlen := h.short i raw.data (by simp [hq])
  rw [hdata, rtpBytes_length] at hlen
  unfold maxPacketSize at hlen
  obtain ⟨pkt, hpkt, -⟩ := parse_rtpBytes hrtcp hdata (by omega)
  rw [hpkt]
  simp

/-- An entry that handles no RTP packet, and data with the same statistics. -/
theorem congr (h : Fed route S q L d) {e : ReceiverEvent}
    (he : handledData (L ++ [e]) = handledData L) (hordered : Keyed.Ordered Source.key d'.sources)
    (hstat : ∀ ssrc id, d'.statAt ssrc id = d.statAt ssrc id) : Fed route S q (L ++ [e]) d' where
  ordered := hordered
  order := by
    rw [he]
    exact h.order
  apart := h.apart
  short := h.short
  stats := by
    intro hg ssrc id
    rw [he, hstat]
    exact h.stats hg ssrc id

/-- A source starts new intervals with its report. -/
theorem report (h : Fed route S q L d) (src : Source) (hsrc : d.getSource src.ssrc = src) (w : World) :
    Fed route S q (L ++ [src.reportEvent w]) (d.setSource src.reported) where
  ordered := h.ordered.insert _
  order := by
    rw [handledData_of_call?_none rfl]
    exact h.order
  apart := h.apart
  short := h.short
  stats := by
    intro hg ssrc id
    have hstat := h.stats hg ssrc id
    rw [handledData_of_call?_none rfl]
    unfold ReceiverData.statAt at hstat ⊢
    rw [ReceiverData.getSource_setSource h.ordered]
    split
    · rename_i hssrc
      obtain rfl : ssrc = src.ssrc := hssrc
      rw [hsrc] at hstat
      rw [src.reported_stat]
      exact hstat.startNewInterval
    · exact hstat

/-- The statistics of a source that is polled. -/
theorem polled (h : Fed route S q L d) {src : Source} (hsrc : src ∈ d.sources) :
    GaplessPolled S (.poll src) := by
  intro hg id
  have hstat := h.stats hg src.ssrc id
  unfold ReceiverData.statAt at hstat
  rw [ReceiverData.getSource_of_mem h.ordered hsrc] at hstat
  unfold SourceStats.After at hstat
  split at hstat
  · exact Or.inl hstat
  · exact Or.inr ⟨_, hstat⟩

theorem pollSource {before after : List Source} {src : Source} {w : World} (h : Fed route S q L d)
    (hd : d.sources = before ++ src :: after) :
    (src.poll w).Sat (fun _ => GaplessPolled S) L fun L' r =>
      Fed route S q L' { d with sources := before ++ r.1 :: after } := by
  have hsrc : src ∈ d.sources := by simp [hd]
  have hget := ReceiverData.getSource_of_mem h.ordered hsrc
  have hpoll : Fed route S q (L ++ [.poll src]) d :=
    h.congr (handledData_of_call?_none rfl) h.ordered fun _ _ => rfl
  refine src.poll_sat (Q := fun L' src' => Fed route S q L' { d with sources := before ++ src' :: after })
    w (h.polled hsrc) ?_ (fun _ => trivial) ?_
  · intro _
    rw [← hd]
    exact hpoll
  · intro sf _ _ _
    have hssrc : src.reported.ssrc = src.ssrc := rfl
    have hreport := hpoll.report src hget w
    rw [ReceiverData.setSource_replace h.ordered hd hssrc]
    exact ⟨trivial, hreport.congr (handledData_of_call?_none rfl) hreport.ordered fun _ _ => rfl⟩

end Fed

namespace Receiver

/-- The calls of a poll keep a receiver fed. -/
theorem keptInOrder {route : UInt16 → ℕ} {S : List (List UInt8)} (hS : Sequenced S) :
    Session.KeptInOrder receiverHandlers (fun _ => GaplessPolled S)
      fun q L d _ => Fed route S q L d where
  rtp := fun q L d packets w i raw pkt rest hq _ hparse h =>
    ⟨trivial, h.onRtpPacket hS hq hparse w⟩
  refused := fun q L d packets i raw rest e hq hrtcp hparse h =>
    absurd hparse (h.not_refused hS hq hrtcp e)
  rtcp := by
    intro q L d packets w i call h
    have hhandled : handledData (L ++ [.visit d (.rtcp call i)]) = handledData L := by
      rw [handledData_visit]
      exact List.append_nil _
    refine ⟨trivial, ?_⟩
    cases call with
    | sr pkt id =>
      exact h.congr hhandled (h.ordered.insert _) (ReceiverData.onRtcpSrPacket_stat h.ordered w pkt id i)
    | rr pkt id ssrc => exact h.congr hhandled h.ordered fun _ _ => rfl

/-- A poll meets what comes in order. -/
def Step.InOrder (route : UInt16 → ℕ) (S : List (List UInt8)) (L : List ReceiverEvent)
    (fs : List Interface) : Step → Prop
  | .poll _ io => io.InOrder route S L fs
  | _ => True

variable {route : UInt16 → ℕ} {S : List (List UInt8)} {L : List ReceiverEvent} {r : Receiver}

/-- What a poll of the sockets brings joins the queues. -/
theorem pollInterfaces_fed (h : Fed route S (Session.rtpQueue r.interfaces) L r.obj) {io : PollInput}
    (hio : io.InOrder route S L r.interfaces) :
    Fed route S (Session.rtpQueue (Session.pollInterfaces io 0 r.interfaces r.world).1) L r.obj := by
  have hqueue := Session.pollInterfaces_rtpQueue io 0 r.interfaces r.world
  simp only [Nat.zero_add] at hqueue
  refine ⟨h.ordered, ?_, ?_, ?_, h.stats⟩
  · intro id
    rcases hqueue (route id) with hq | hq
    · rw [hq]
      exact h.order id
    · rw [hq, ← List.append_assoc]
      exact (hio id).1
  · intro id i hi
    rcases hqueue i with hq | hq
    · rw [hq]
      exact h.apart id i hi
    · rw [hq, ofId_append, h.apart id i hi, (hio id).2 i hi]
      rfl
  · intro i data hdata
    rcases hqueue i with hq | hq
    · rw [hq] at hdata
      exact h.short i data hdata
    · rw [hq] at hdata
      rcases List.mem_append.mp hdata with hdata | hdata
      · exact h.short i data hdata
      · exact PollOutcome.received_short hdata

/-- A step of a receiver that gets what was sent in order. -/
theorem step_fed (hS : Sequenced S) (h : Fed route S (Session.rtpQueue r.interfaces) L r.obj)
    {e : Step} (he : e.InOrder route S L r.interfaces) : (step r e).Sat (fun _ => GaplessPolled S) L
      fun L' r' => Fed route S (Session.rtpQueue r'.interfaces) L' r'.obj := by
  cases e with
  | addInterface addr opened =>
    apply Exec.sat_pure
    rw [Session.rtpQueue_addInterface]
    unfold Session.addInterface
    split
    · exact h
    · exact h
  | suspendInterface addr suspend =>
    apply Exec.sat_pure
    rw [Session.rtpQueue_suspendInterface]
    exact h
  | poll fuel io =>
    have hpoll : (Session.poll receiverHandlers fuel io r).Sat (fun _ => GaplessPolled S) L
        fun L' r' => Fed route S (Session.rtpQueue r'.1.interfaces) L' r'.1.obj :=
      (keptInOrder hS).poll (pollInterfaces_fed h he)
    apply Exec.sat_bind hpoll
    intro L₁ p h₁
    obtain ⟨r₁, status⟩ := p
    dsimp only at h₁ ⊢
    have hsources := pollSources_sat (J := fun L d => Fed route S (Session.rtpQueue r₁.interfaces) L d)
      (fun L d before src after w hd h => h.pollSource hd) h₁ r₁.world
    apply Exec.sat_bind hsources
    intro L₂ p₂ h₂
    obtain ⟨srcs, w⟩ := p₂
    exact Exec.sat_pure h₂
  | fetchPacket =>
    unfold Receiver.step Session.fetchPacket
    cases r.packets with
    | nil => exact Exec.sat_pure h
    | cons p ps =>
      refine Exec.sat_bind (Q := fun L' _ => L' = L ++ [.fetched p]) (Exec.sat_tell trivial rfl) ?_
      intro L' _ hL'
      obtain rfl := hL'
      exact Exec.sat_pure (h.congr (handledData_of_call?_none rfl) h.ordered fun _ _ => rfl)

end Receiver

end Mprtp
