import Mprtp.Sender.Payloads
import Mprtp.System.Calls
import Mprtp.System.Conservation
import Mprtp.System.Runs

/-! The packets that the receiver's application fetches and the payloads that the sender's hands over. -/
namespace Mprtp

theorem Source.processOnSubflow_pack (src : Source) (pack : RtpPacket) (tsunit : ℚ) (iface : ℕ) (w : World) :
    ∃ ext subflowExt, (src.processOnSubflow pack tsunit iface w).1 =
      { pack with extseqnr := ext, subflowExtseqnr := subflowExt } := by
  unfold processOnSubflow
  dsimp only
  split
  · exact ⟨pack.extseqnr, pack.subflowExtseqnr, rfl⟩
  · rename_i sf _
    exact sf.recvStat.processPacket_pack pack true tsunit

/-- Processing changes the extended numbers of a packet only. -/
theorem Source.processPacket_pack (src : Source) (pack : RtpPacket) (tsunit : ℚ) (iface : ℕ) (w : World) :
    ∃ ext subflowExt, (src.processPacket pack tsunit iface w).1 =
      { pack with extseqnr := ext, subflowExtseqnr := subflowExt } := by
  obtain ⟨ext, subflowExt, hpack⟩ := src.stat.processPacket_pack pack false tsunit
  obtain ⟨ext', subflowExt', hon⟩ :=
    { src with stat := (src.stat.processPacket pack false tsunit).1 }.processOnSubflow_pack
      (src.stat.processPacket pack false tsunit).2 tsunit iface w
  refine ⟨ext', subflowExt', ?_⟩
  have hsame : { (src.stat.processPacket pack false tsunit).2 with
      extseqnr := ext', subflowExtseqnr := subflowExt' } =
        { pack with extseqnr := ext', subflowExtseqnr := subflowExt' } := by rw [hpack]
  unfold processPacket
  dsimp only
  split
  · exact hon.trans hsame
  · exact hon.trans hsame

/-- A datagram that satisfies `P` was parsed into the packet, whose extended numbers may have been set
since then. -/
structure RtpPacket.ParsedFrom (P : List UInt8 → Prop) (p : RtpPacket) : Prop where
  data : P p.rawpack.data
  parsed : ∃ ext subflowExt,
    RtpPacket.parse p.rawpack = .ok { p with extseqnr := ext, subflowExtseqnr := subflowExt }

theorem RtpPacket.ParsedFrom.mono {P P' : List UInt8 → Prop} {p : RtpPacket} (h : p.ParsedFrom P)
    (hP : ∀ data, P data → P' data) : p.ParsedFrom P' := ⟨hP _ h.data, h.parsed⟩

theorem Receiver.keptBySteps_parsed (P : List UInt8 → Prop) :
    KeptBySteps P (fun _ e => ∀ p, e.fetched? = some p → p.ParsedFrom P)
      fun _ _ packets => ∀ p ∈ packets, p.ParsedFrom P where
  rtp := by
    intro L d packets w raw pkt i hraw hparse h
    refine ⟨fun p hp => (by cases hp), ?_⟩
    intro p hp
    rcases List.mem_append.mp hp with hp | hp
    · exact h p hp
    · rw [List.mem_singleton.mp hp]
      obtain ⟨ext, subflowExt, hpack⟩ :=
        (d.getSource pkt.ssrc).processPacket_pack pkt d.timestampUnit i w
      change ((d.getSource pkt.ssrc).processPacket pkt d.timestampUnit i w).1.ParsedFrom P
      rw [hpack]
      have hrawpack : pkt.rawpack = raw := (RtpPacket.parse_fields hparse).rawpack
      refine ⟨?_, pkt.extseqnr, pkt.subflowExtseqnr, ?_⟩
      · change P pkt.rawpack.data
        rw [hrawpack]
        exact hraw
      · change RtpPacket.parse pkt.rawpack = .ok pkt
        rw [hrawpack]
        exact hparse
  sr := fun _ _ _ _ _ _ _ h => ⟨fun p hp => (by cases hp), h⟩
  rr := fun _ _ _ _ _ _ _ h => ⟨fun p hp => (by cases hp), h⟩
  poll := fun _ _ _ _ _ h => ⟨fun p hp => (by cases hp), h⟩
  report := fun _ _ _ _ _ _ _ h => ⟨fun p hp => (by cases hp), h⟩
  sent := fun _ _ _ _ _ _ _ _ _ _ _ h => ⟨fun p hp => (by cases hp), h⟩
  polled := fun _ _ _ _ _ h => h
  fetched := by
    intro L d pkt packets h
    constructor
    · intro p hp
      cases hp
      exact h pkt (List.mem_cons_self ..)
    · exact fun p hp => h p (List.mem_cons_of_mem _ hp)

/-- What a receiver finds in the datagram of a call. -/
structure Sender.DataCall.Reaches (c : DataCall) (p : RtpPacket) : Prop where
  payload : p.payloadData = c.payload
  mprtp : p.isMprtpPacket = true
  timestamp : p.timestamp = c.timestamp
  ssrc : p.ssrc = c.sender.obj.ssrc
  subflowId : ∃ sf ∈ c.sender.obj.subflows, p.subflowId = sf.subflowId

theorem Sender.DataCall.Builds.reaches {c : DataCall} {p : RtpPacket}
    (h : p.ParsedFrom fun bytes => c.Builds bytes ∧ bytes.length ≤ maxUdpPayload) : c.Reaches p := by
  obtain ⟨⟨⟨sf, hsf, hdata⟩, hlen⟩, ext, subflowExt, hparse⟩ := h
  have hrtcp : p.rawpack.isrtcp = false := by
    by_contra hrtcp
    unfold RtpPacket.parse parsePacket at hparse
    rw [if_pos (Bool.eq_true_of_not_eq_false hrtcp)] at hparse
    cases hparse
  have hshort : c.payload.length + 24 < 2 ^ 31 := by
    rw [hdata, rtpBytes_length] at hlen
    unfold maxUdpPayload at hlen
    omega
  obtain ⟨pkt, hpkt, -, -, hpayload⟩ := parse_rtpBytes hrtcp hdata hshort
  have hfields := RtpPacket.parse_fields hparse
  obtain ⟨hssrc, hid, -⟩ := parse_numbers hdata hparse
  rw [hpkt] at hparse
  have hpacket := Except.ok.inj hparse
  refine ⟨?_, ?_, ?_, hssrc, sf, hsf, hid⟩
  · exact (congrArg RtpPacket.payloadData hpacket).symm.trans hpayload
  · exact hfields.isMprtpPacket.mpr (carries_rtpBytes hdata).hasMprtp
  · exact hfields.timestamp.trans (timestamp_rtpBytes hdata)

namespace System

/-- The queues and the packets of the receiver come from datagrams of the sender. -/
structure Supplied (H : SystemLog) (s : System) : Prop where
  queues : ∀ f ∈ s.receiver.interfaces, f.Keeps (Among (sentBySender (told H)))
  packets : ∀ p ∈ s.receiver.packets, p.ParsedFrom (Among (sentBySender (told H)))

theorem Supplied.mono {H H' : SystemLog} {s : System} (h : Supplied H s)
    (hsent : ∀ out ∈ sentBySender (told H), out ∈ sentBySender (told H')) : Supplied H' s where
  queues := fun f hf raw hraw => (h.queues f hf raw hraw).mono hsent
  packets := fun p hp => (h.packets p hp).mono fun _ hdata => hdata.mono hsent

/-- What is fetched comes from a datagram of the sender. -/
def FetchesSent (H : SystemLog) : (System × Step) ⊕ SystemEvent → Prop
  | .inr (.receiver e) => ∀ p, e.fetched? = some p → p.ParsedFrom (Among (sentBySender (told H)))
  | _ => True

variable {isPathValid : Endpoint → Endpoint → Bool} {senderUnit receiverUnit : ℚ} {ssrc : UInt32}
  {w w' : World} {H : SystemLog} {s : System} {r : Option System}

theorem noting_supplied (h : Supplied H s) {e : Step} (hnet : Network (told H) s e) :
    (noting (step isPathValid) s e).Sat FetchesSent H Supplied := by
  have hmono : ∀ L, ∀ out ∈ sentBySender (told H), out ∈ sentBySender (told H ++ L) := by
    intro L out hout
    unfold sentBySender at hout ⊢
    rw [List.filterMap_append]
    exact List.mem_append_left _ hout
  cases e with
  | sender e =>
    have hstep : (step isPathValid s (.sender e)).Sat (fun _ a => ∃ e', a = .sender e') (told H)
        fun _ s' => s'.receiver = s.receiver := by
      refine Exec.sat_bind (Q := fun _ _ => True) ?_ fun _ _ _ => Exec.sat_pure rfl
      exact Exec.sat_mapLog ⟨fun _ e' _ _ => ⟨e', rfl⟩, fun _ _ => trivial⟩
    refine Exec.sat_noting trivial hstep ?_ ?_
    · intro L a ha
      obtain ⟨e', rfl⟩ := ha
      trivial
    · intro L s' hs'
      have hsup : Supplied (H ++ [.inl (s, .sender e)] ++ L.map .inr) s := h.mono (by
        rw [told_noted]
        exact hmono L)
      constructor
      · rw [hs']
        exact hsup.queues
      · rw [hs']
        exact hsup.packets
  | receiver e =>
    have hbrings : e.Brings (Among (sentBySender (told H))) := by
      cases e with
      | poll fuel io => exact Delivers.brings hnet
      | _ => trivial
    have hstep : (step isPathValid s (.receiver e)).Sat
        (fun _ a => ∀ e' p, a = .receiver e' → e'.fetched? = some p →
          p.ParsedFrom (Among (sentBySender (told H)))) (told H)
        fun _ s' => Supplied H s' := by
      refine Exec.sat_bind (Q := fun _ receiver => Supplied H { s with receiver }) ?_
        fun _ _ h' => Exec.sat_pure h'
      have hkept := (Receiver.keptBySteps_parsed (Among (sentBySender (told H)))).step (H := [])
        h.packets h.queues hbrings
      apply Exec.sat_mapLog
      refine hkept.mono ?_ fun _ _ hx => ⟨hx.2, hx.1⟩
      intro _ e' he' e'' p heq hp
      cases heq
      exact he' p hp
    refine Exec.sat_noting trivial hstep ?_ ?_
    · intro L a ha
      cases a with
      | sender e' => trivial
      | receiver e' =>
        intro p hp
        refine (ha e' p rfl hp).mono fun data hdata => hdata.mono ?_
        rw [told_noted]
        exact hmono L
    · intro L s' hs'
      apply hs'.mono
      rw [told_noted]
      exact hmono L

theorem supplied_new : Supplied [] (new senderUnit receiverUnit ssrc w w') := by
  constructor
  · intro f hf
    cases hf
  · intro p hp
    cases hp

/-- A datagram of the sender has its entry in the log. -/
theorem getElem?_of_sent {H : SystemLog} {n : ℕ} {out : OutDatagram} (h : out ∈ sentBySender (told (H.take n))) :
    ∃ m < n, ∃ k, H[m]? = some (.inr (.sender (.sent k out))) := by
  obtain ⟨k, hsent⟩ := mem_sentBySender.mp h
  obtain ⟨m, hlt, hget⟩ := getElem?_of_mem_take (mem_told.mp hsent)
  exact ⟨m, hlt, k, hget⟩

/-- In front of a datagram of the sender there is the call of `send_data` that it comes from, unless it
is a report. -/
theorem sent_has_call {ok : SystemLog → System → Step → Prop}
    (hrun : Run (noting (step isPathValid)) ok (new senderUnit receiverUnit ssrc w w') H r)
    {n : ℕ} {out : OutDatagram} (hout : out ∈ sentBySender (told (H.take n))) :
    out.data[1]? = some rtcpTypeSr ∨
      ∃ m s data ret, m < n ∧ H[m]? = some (.inl (s, .sender (.sendData data ret))) ∧
        Sender.DataCall.Builds ⟨s.sender, data⟩ out.data := by
  obtain ⟨m', hlt, k, hget⟩ := getElem?_of_sent hout
  obtain ⟨⟨r', hsender, -⟩, -⟩ := noted_run_ends hrun
  have hbuilt := (Sender.run_builds hsender).1 _ _ _ (senderCalls_split hget) out rfl
  split at hbuilt
  · exact Or.inl hbuilt
  · obtain ⟨c, hc, hbuilds⟩ := Sender.exists_call hbuilt
    obtain ⟨ret, hret⟩ := Sender.mem_dataCalls.mp hc
    obtain ⟨s, hs, hmem⟩ := mem_senderCalls_inl.mp hret
    obtain ⟨m, hlt', hget''⟩ := getElem?_of_mem_take hmem
    refine Or.inr ⟨m, s, c.payload, ret, hlt'.trans hlt, hget'', ?_⟩
    rw [hs]
    exact hbuilds

/-- In every run over a network that only loses, delays, reorders and duplicates what the sender has sent,
every packet that `fetch_packet` returns at the receiver is the one of a call of `send_data` before: it has
the payload, the timestamp and the SSRC of the call and the id of one of the subflows. -/
theorem fetched_reaches
    (hrun : Run (noting (step isPathValid)) (fun H => Network (told H))
      (new senderUnit receiverUnit ssrc w w') H r) {n : ℕ} {p : RtpPacket}
    (hn : H[n]? = some (.inr (.receiver (.fetched p)))) :
    ∃ m s data ret, m < n ∧ H[m]? = some (.inl (s, .sender (.sendData data ret))) ∧
      p.payloadData = data ∧ p.ssrc = s.sender.obj.ssrc ∧
      p.timestamp = (s.sender.obj.stamped (s.sender.obj.selectSubflow s.sender.world).2).timestamp ∧
      ∃ sf ∈ s.sender.obj.subflows, p.subflowId = sf.subflowId := by
  have hfetched : FetchesSent (H.take n) (.inr (.receiver (.fetched p))) :=
    Run.sat_getElem supplied_new (fun _ _ _ h hnet => noting_supplied h hnet) hrun hn
  obtain ⟨⟨hlen, out, hout, hdata⟩, hparsed⟩ := hfetched p rfl
  rcases sent_has_call hrun hout with hsr | ⟨m, s, data, ret, hm, hcall, hbuilds⟩
  · obtain ⟨ext, subflowExt, hparse⟩ := hparsed
    rw [hdata] at hsr
    exact absurd hparse (RtpPacket.parse_senderReport hsr _)
  · rw [hdata] at hbuilds
    have hreaches := Sender.DataCall.Builds.reaches ⟨⟨hbuilds, hlen⟩, hparsed⟩
    exact ⟨m, s, data, ret, hm, hcall, hreaches.payload, hreaches.ssrc, hreaches.timestamp, hreaches.subflowId⟩

def fetchedPacket? : (System × Step) ⊕ SystemEvent → Option RtpPacket
  | .inr (.receiver e) => e.fetched?
  | .inr (.sender _) => none
  | .inl _ => none

theorem eq_fetched {e : (System × Step) ⊕ SystemEvent} {p : RtpPacket} (h : fetchedPacket? e = some p) :
    e = .inr (.receiver (.fetched p)) := by
  unfold fetchedPacket? at h
  split at h
  · rw [ReceiverEvent.eq_fetched h]
  · cases h
  · cases h

/-- One path and two packets, of which the second arrives first and both arrive twice. -/
def doubledPackets : List (SystemLog → Step) :=
  [fun _ => .sender (.addInterface ⟨0x0A000001, 23000⟩ true),
    fun _ => .sender (.connect 0xDEAD [⟨0x0A000002, 22000⟩]),
    fun _ => .receiver (.addInterface ⟨0x0A000002, 22000⟩ true),
    fun _ => .sender (.sendData [65] 25), fun _ => .sender (.sendData [66, 67] 26),
    fun H => toReceiver false 1 (told H), fun H => toReceiver false 0 (told H),
    fun H => toReceiver false 1 (told H), fun H => toReceiver false 0 (told H),
    fun _ => .receiver .fetchPacket, fun _ => .receiver .fetchPacket]

def doubledPacketsRun : SystemLog × Option System :=
  afterChoices (noting (step fun _ _ => true)) (new 1 1 0xBEEF (.ticking 1000) (.ticking 1000)) doubledPackets

theorem doubledPackets_reaches : ∃ p m s ret, m < 22 ∧
    doubledPacketsRun.1[22]? = some (.inr (.receiver (.fetched p))) ∧
      doubledPacketsRun.1[m]? = some (.inl (s, .sender (.sendData [65] ret))) := by
  have hok : ∀ choose ∈ doubledPackets, ∀ H s, Network (told H) s (choose H) := by
    have hreceiver : ∀ n (H : SystemLog) s, Network (told H) s (toReceiver false n (told H)) :=
      fun n H _ => delivers_pick _ n false _
    unfold doubledPackets
    simp only [List.forall_mem_cons, List.not_mem_nil, false_implies, implies_true, and_true]
    exact ⟨fun _ _ => trivial, fun _ _ => trivial, fun _ _ => trivial, fun _ _ => trivial,
      fun _ _ => trivial, hreceiver 1, hreceiver 0, hreceiver 1, hreceiver 0, fun _ _ => trivial,
      fun _ _ => trivial⟩
  have hsome : ∃ p ∈ doubledPacketsRun.1[22]?.bind fetchedPacket?, p.payloadData = [65] := by decide +kernel
  obtain ⟨p, hp, hpayload⟩ := hsome
  obtain ⟨e, he, hep⟩ := Option.bind_eq_some_iff.mp hp
  rw [eq_fetched hep] at he
  obtain ⟨m, s, data, ret, hm, hcall, hdata, -⟩ := fetched_reaches (Run.of_choices hok) he
  rw [← hdata, hpayload] at hcall
  exact ⟨p, m, s, ret, hm, he, hcall⟩

end System

end Mprtp
