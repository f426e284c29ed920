import Mprtp.Receiver.SenderReports
import Mprtp.Sender.Accounts
import Mprtp.System.Payloads

/-! What the two ends hear of each other: the sender reports tell what the application has handed over,
and the receiver reports what the receiver has counted. -/
namespace Mprtp

/-- The call is for a datagram that satisfies `P` on its socket. -/
def Call.For (P : Bool → List UInt8 → Prop) (c : Call) : Prop :=
  ∃ raw i, P raw.isrtcp raw.data ∧ c.Of raw i ∧ c.OnSocket raw

theorem Call.For.mono {P P' : Bool → List UInt8 → Prop} {c : Call} (h : c.For P)
    (hP : ∀ rtcp data, P rtcp data → P' rtcp data) : c.For P' := by
  obtain ⟨raw, i, hraw, hof, hon⟩ := h
  exact ⟨raw, i, hP _ _ hraw, hof, hon⟩

def SenderEvent.call? : SenderEvent → Option Call
  | .visit _ c => some c
  | _ => none

namespace Receiver

variable {P : Bool → List UInt8 → Prop} {L : List ReceiverEvent} {r : Receiver}

/-- What a poll brings satisfies `P`. -/
def Step.BringsOn (P : Bool → List UInt8 → Prop) : Step → Prop
  | .poll _ io => io.BringsOn P
  | _ => True

theorem pollSources_silent (srcs : List Source) (w : World) :
    (pollSources srcs w).Sat (fun _ e => e.call? = none) L fun _ _ => True := by
  induction srcs generalizing L w with
  | nil => exact Exec.sat_pure trivial
  | cons src srcs ih =>
    unfold pollSources
    refine Exec.sat_bind (Q := fun _ _ => True) ?_ ?_
    · exact src.poll_sat (Q := fun _ _ => True) w rfl (fun _ => trivial) (fun _ => rfl)
        fun _ _ _ _ => ⟨rfl, trivial⟩
    · intro L₁ p _
      refine Exec.sat_bind (Q := fun _ _ => True) (ih p.2) ?_
      exact fun _ _ _ => Exec.sat_pure trivial

/-- Every call of a handler is for a datagram that has come in. -/
theorem step_calls (hf : ∀ f ∈ r.interfaces, f.KeepsOn P) {e : Step} (he : e.BringsOn P) :
    (step r e).Sat (fun _ e' => ∀ c, e'.call? = some c → c.For P) L
      fun _ r' => ∀ f ∈ r'.interfaces, f.KeepsOn P := by
  have hsilent : ∀ (L : List ReceiverEvent) (e' : ReceiverEvent), e'.call? = none →
      ∀ c, e'.call? = some c → c.For P := by
    intro L e' hnone c hc
    rw [hnone] at hc
    cases hc
  cases e with
  | addInterface addr opened => exact Exec.sat_pure (Session.addInterface_keepsOn hf addr opened)
  | suspendInterface addr suspend => exact Exec.sat_pure (Session.suspendInterface_keepsOn hf addr suspend)
  | poll fuel io =>
    have hsession : (Session.poll receiverHandlers fuel io r).Sat
        (fun _ e' => ∀ c, e'.call? = some c → c.For P) L
        fun _ p => True ∧ ∀ f ∈ p.1.interfaces, f.KeepsOn P := by
      refine Session.poll_obj_on (I := fun _ _ _ => True) ?_ he hf trivial
      intro L d packets w raw c i hraw hof hon _
      refine ⟨?_, trivial⟩
      intro c' hc'
      cases hc'
      exact ⟨raw, i, hraw, hof, hon⟩
    refine Exec.sat_bind hsession ?_
    intro L₁ p hp
    refine Exec.sat_bind (Q := fun _ _ => True) ((pollSources_silent _ _).mono hsilent fun _ _ h => h) ?_
    exact fun _ _ _ => Exec.sat_pure hp.2
  | fetchPacket =>
    unfold step
    dsimp only
    have hkept := hf
    rw [← r.fetchPacket_interfaces] at hkept
    split
    · rename_i r' hfetch
      rw [hfetch] at hkept
      exact Exec.sat_pure hkept
    · rename_i pkt r' hfetch
      rw [hfetch] at hkept
      refine Exec.sat_bind (Q := fun _ _ => True) (Exec.sat_tell (hsilent L _ rfl) trivial) ?_
      exact fun _ _ _ => Exec.sat_pure hkept

end Receiver

namespace Sender

variable {P : Bool → List UInt8 → Prop} {L : List SenderEvent} {s : Sender}
  {isPathValid : Endpoint → Endpoint → Bool}

/-- Every call of a handler is for a datagram that has come in. -/
theorem keptBySteps_calls (P : Bool → List UInt8 → Prop) :
    KeptBySteps (PollInput.BringsOn P) (fun _ e => ∀ c, e.call? = some c → c.For P)
      fun _ s => ∀ f ∈ s.interfaces, f.KeepsOn P where
  session := by
    intro L s fuel io hio hf
    have hsession : (Session.poll senderHandlers fuel io s).Sat
        (fun _ e => ∀ c, e.call? = some c → c.For P) L
        fun _ p => True ∧ ∀ f ∈ p.1.interfaces, f.KeepsOn P := by
      refine Session.poll_obj_on (I := fun _ _ _ => True) ?_ hio hf trivial
      intro L d packets w raw c i hraw hof hon _
      refine ⟨?_, trivial⟩
      intro c' hc'
      cases hc'
      exact ⟨raw, i, hraw, hof, hon⟩
    exact hsession.mono (fun _ _ hg => hg) fun _ _ hp => hp.2
  tick := fun _ _ hf => hf
  sends := fun _ _ _ _ _ _ _ _ _ hf => ⟨fun _ h => (by cases h), hf⟩
  sendsReport := fun _ _ _ _ _ _ _ hf => ⟨fun _ h => (by cases h), hf⟩
  measure := fun _ _ _ hf => ⟨fun _ h => (by cases h), hf⟩
  recalc := fun _ _ _ _ hf => ⟨fun _ h => (by cases h), hf⟩
  connect := fun _ _ _ _ hf => hf
  addSubflow := fun _ _ _ _ hf => hf
  addInterface := fun _ _ addr opened hf => Session.addInterface_keepsOn hf addr opened
  suspendInterface := fun _ _ addr suspend hf => Session.suspendInterface_keepsOn hf addr suspend
  fetchPacket := by
    intro L s hf
    rw [s.fetchPacket_interfaces]
    exact hf

end Sender

/-- The data is that of one of the datagrams sent, for this kind of socket. -/
def AmongOn (sent : List OutDatagram) (rtcp : Bool) (data : List UInt8) : Prop :=
  data.length ≤ maxUdpPayload ∧ ∃ out ∈ sent, out.rtcp = rtcp ∧ out.data = data

theorem AmongOn.mono {sent sent' : List OutDatagram} {rtcp : Bool} {data : List UInt8}
    (h : AmongOn sent rtcp data) (hs : ∀ out ∈ sent, out ∈ sent') : AmongOn sent' rtcp data := by
  obtain ⟨hlen, out, hout, hdata⟩ := h
  exact ⟨hlen, out, hs out hout, hdata⟩

/-- The datagrams that a poll meets have all been sent, reports to the RTCP sockets and data to the RTP
sockets; they may come at any time and any number of times. -/
def DeliversOn (sent : List OutDatagram) (io : PollInput) : Prop :=
  ∀ i rtcp a, some a ∈ (io i rtcp).recvd →
    a.data.length ≤ maxUdpPayload ∧ ∃ out ∈ sent, out.rtcp = rtcp ∧ out.data = a.data

theorem DeliversOn.brings {sent : List OutDatagram} {io : PollInput} (h : DeliversOn sent io) :
    io.BringsOn (AmongOn sent) := by
  intro i rtcp a ha
  obtain ⟨hlen, hout⟩ := h i rtcp a ha
  have htake : a.data.take maxPacketSize = a.data := by
    apply List.take_of_length_le
    unfold maxUdpPayload at hlen
    unfold maxPacketSize
    omega
  rw [htake]
  exact ⟨hlen, hout⟩

namespace System

/-- The network loses, delays, reorders and duplicates datagrams, but brings none to another socket. -/
def NetworkOn (H : List SystemEvent) (_ : System) : Step → Prop
  | .sender (.poll _ io) => DeliversOn (sentByReceiver H) io
  | .receiver (.poll _ io) => DeliversOn (sentBySender H) io
  | _ => True

/-- The queues of each end come from datagrams of the other. -/
structure Connected (H : SystemLog) (s : System) : Prop where
  toReceiver : ∀ f ∈ s.receiver.interfaces, f.KeepsOn (AmongOn (sentBySender (told H)))
  toSender : ∀ f ∈ s.sender.interfaces, f.KeepsOn (AmongOn (sentByReceiver (told H)))

/-- A handler is called for a datagram of the other end. -/
def CallsFor (H : SystemLog) : (System × Step) ⊕ SystemEvent → Prop
  | .inl _ => True
  | .inr (.receiver e) => ∀ c, e.call? = some c → c.For (AmongOn (sentBySender (told H)))
  | .inr (.sender e) => ∀ c, e.call? = some c → c.For (AmongOn (sentByReceiver (told H)))

variable {isPathValid : Endpoint → Endpoint → Bool} {senderUnit receiverUnit : ℚ} {ssrc : UInt32}
  {w w' : World} {H : SystemLog} {s : System} {r : Option System}

theorem sent_mono (H H' : SystemLog) :
    (∀ out ∈ sentBySender (told H), out ∈ sentBySender (told (H ++ H'))) ∧
      ∀ out ∈ sentByReceiver (told H), out ∈ sentByReceiver (told (H ++ H')) := by
  unfold sentBySender sentByReceiver
  rw [told_append, List.filterMap_append, List.filterMap_append]
  exact ⟨fun out hout => List.mem_append_left _ hout, fun out hout => List.mem_append_left _ hout⟩

theorem Connected.mono (h : Connected H s) (H' : SystemLog) : Connected (H ++ H') s := by
  obtain ⟨hsender, hreceiver⟩ := sent_mono H H'
  constructor
  · intro f hf raw hraw
    exact (h.toReceiver f hf raw hraw).mono hsender
  · intro f hf raw hraw
    exact (h.toSender f hf raw hraw).mono hreceiver

theorem noting_calls (h : Connected H s) {e : Step} (hnet : NetworkOn (told H) s e) :
    (noting (step isPathValid) s e).Sat CallsFor H Connected := by
  cases e with
  | sender e =>
    have hmeets : e.Meets (PollInput.BringsOn (AmongOn (sentByReceiver (told H)))) := by
      cases e with
      | poll fuel io => exact DeliversOn.brings hnet
      | _ => trivial
    have hstep : (step isPathValid s (.sender e)).Sat
        (fun _ a => ∃ e', a = .sender e' ∧
          ∀ c, e'.call? = some c → c.For (AmongOn (sentByReceiver (told H)))) (told H)
        fun _ s' => Connected H s' := by
      refine Exec.sat_bind (Q := fun _ sender => Connected H { s with sender }) ?_
        fun _ _ h' => Exec.sat_pure h'
      have hkept := (Sender.keptBySteps_calls (AmongOn (sentByReceiver (told H)))).step (H := [])
        isPathValid h.toSender hmeets
      apply Exec.sat_mapLog
      exact hkept.mono (fun _ e' he' => ⟨e', rfl, he'⟩) fun _ _ hs' => ⟨h.toReceiver, hs'⟩
    refine Exec.sat_noting trivial hstep ?_ ?_
    · intro L a ha
      obtain ⟨e', rfl, hcall⟩ := ha
      intro c hc
      rw [List.append_assoc]
      exact (hcall c hc).mono fun rtcp data hdata => hdata.mono (sent_mono H _).2
    · intro L s' hs'
      rw [List.append_assoc]
      exact hs'.mono _
  | receiver e =>
    have hbrings : e.BringsOn (AmongOn (sentBySender (told H))) := by
      cases e with
      | poll fuel io => exact DeliversOn.brings hnet
      | _ => trivial
    have hstep : (step isPathValid s (.receiver e)).Sat
        (fun _ a => ∃ e', a = .receiver e' ∧
          ∀ c, e'.call? = some c → c.For (AmongOn (sentBySender (told H)))) (told H)
        fun _ s' => Connected H s' := by
      refine Exec.sat_bind (Q := fun _ receiver => Connected H { s with receiver }) ?_
        fun _ _ h' => Exec.sat_pure h'
      have hkept := Receiver.step_calls (L := []) h.toReceiver hbrings
      apply Exec.sat_mapLog
      exact hkept.mono (fun _ e' he' => ⟨e', rfl, he'⟩) fun _ _ hr' => ⟨hr', h.toSender⟩
    refine Exec.sat_noting trivial hstep ?_ ?_
    · intro L a ha
      obtain ⟨e', rfl, hcall⟩ := ha
      intro c hc
      rw [List.append_assoc]
      exact (hcall c hc).mono fun rtcp data hdata => hdata.mono (sent_mono H _).1
    · intro L s' hs'
      rw [List.append_assoc]
      exact hs'.mono _

theorem connected_new : Connected [] (new senderUnit receiverUnit ssrc w w') := by
  constructor
  · intro f hf
    cases hf
  · intro f hf
    cases hf

/-- The call of a handler is for a datagram that the other end has sent before. -/
theorem getElem?_calls
    (hrun : Run (noting (step isPathValid)) (fun H => NetworkOn (told H))
      (new senderUnit receiverUnit ssrc w w') H r) {n : ℕ} {e : (System × Step) ⊕ SystemEvent}
    (hn : H[n]? = some e) : CallsFor (H.take n) e :=
  Run.sat_getElem connected_new (fun _ _ _ h hnet => noting_calls h hnet) hrun hn

/-- A report on RTCP counts the calls of `send_data` before it, and has room for the subflows that there are
at the call that sends it. -/
theorem sent_accounts {ok : SystemLog → System → Step → Prop}
    (hrun : Run (noting (step isPathValid)) ok (new senderUnit receiverUnit ssrc w w') H r) {m k : ℕ}
    {out : OutDatagram} (hm : H[m]? = some (.inr (.sender (.sent k out)))) (hrtcp : out.rtcp = true) :
    Sender.ReportsAccounts (Sender.acceptedCalls (senderCalls (H.take m))) out ∧
      ∃ s e, lastCall? (senderCalls (H.take m)) = some (s, e) ∧
        out.data.length = 40 + 32 * s.obj.subflows.length := by
  obtain ⟨⟨r', hsender, -⟩, -⟩ := noted_run_ends hrun
  obtain ⟨s, e, hlast, hlength⟩ := Sender.run_reportsOn hsender (senderCalls_split hm)
  exact ⟨Sender.run_accounts hsender _ _ _ (senderCalls_split hm) out rfl hrtcp, s, e, hlast,
    hlength out rfl hrtcp⟩

/-- In every run over a network that loses, delays, reorders and duplicates datagrams, every sender report
that the receiver handles tells how many packets and octets the application had handed over when it was
sent, in calls of `send_data` that returned true: with the id 0 on the whole, and with the id `j + 1` on the
subflow at `j`, one of those there are at the call `e` that sends the report. -/
theorem senderReports_heard
    (hrun : Run (noting (step isPathValid)) (fun H => NetworkOn (told H))
      (new senderUnit receiverUnit ssrc w w') H r) {n i : ℕ} {d : ReceiverData} {pkt : RtcpSrPacket}
    {id : UInt16} (hn : H[n]? = some (.inr (.receiver (.visit d (.rtcp (.sr pkt id) i))))) :
    ∃ m k out s e, m < n ∧ H[m]? = some (.inr (.sender (.sent k out))) ∧ out.rtcp = true ∧
      lastCall? (senderCalls (H.take m)) = some (s, e) ∧
      ∃ calls, (calls = Sender.acceptedCalls (senderCalls (H.take m)) ∧ id = 0 ∨
          ∃ j < s.obj.subflows.length, calls = Sender.callsOn j (Sender.acceptedCalls (senderCalls (H.take m))) ∧
            id.toNat = j + 1) ∧
        pkt.packetCount.toNat = calls.length % 2 ^ 32 ∧
          pkt.octetCount.toNat = Sender.octetsOf calls % 2 ^ 32 := by
  obtain ⟨raw, -, ⟨-, out, hout, hrtcp, hdata⟩, ⟨-, fuel, hcall⟩, hon⟩ := getElem?_calls hrun hn _ rfl
  obtain ⟨m, hlt, k, hm⟩ := getElem?_of_sent hout
  have hreport : out.rtcp = true := hrtcp.trans hon
  obtain ⟨⟨d', ntp, haccounts, hbytes, hfits⟩, s, e, hlast, hroom⟩ := sent_accounts hrun hm hreport
  have hfuel : raw.dataLen < max fuel (raw.dataLen + 1) := by omega
  have hcalls := d'.reportBytes_decoded ntp hfits (hdata.symm.trans hbytes) hfuel
  have hmem := (rtcpCalls_mono (le_max_left fuel (raw.dataLen + 1)) raw).subset hcall
  rw [hcalls] at hmem
  refine ⟨m, k, out, s, e, hlt, hm, hreport, hlast, ?_⟩
  rcases List.mem_cons.mp hmem with hstream | hsubflow
  · cases hstream
    exact ⟨_, Or.inl ⟨rfl, rfl⟩, haccounts.counts.packets, haccounts.counts.octets⟩
  · obtain ⟨sf, hsf, heq⟩ := List.mem_map.mp hsubflow
    cases heq
    obtain ⟨j, hj⟩ := List.getElem?_of_mem hsf
    obtain ⟨hpackets, hoctets⟩ := haccounts.counts.subflow j sf hj
    have hlt' := (List.getElem?_eq_some_iff.mp hj).1
    rw [hbytes, d'.reportBytes_length] at hroom
    rw [d'.reportBytes_length] at hfits
    unfold maxPacketSize at hfits
    have hid : sf.subflowId.toNat = j + 1 := by
      rw [haccounts.ids.ids j sf hj, UInt16.toNat_ofNat']
      omega
    exact ⟨_, Or.inr ⟨j, by omega, rfl, hid⟩, hpackets, hoctets⟩

/-- What the receiver sends was built from a source that it has polled, in a world of that poll. -/
theorem sent_polled {ok : SystemLog → System → Step → Prop}
    (hrun : Run (noting (step isPathValid)) ok (new senderUnit receiverUnit ssrc w w') H r) {n : ℕ}
    {out : OutDatagram} (hout : out ∈ sentByReceiver (told (H.take n))) :
    ∃ m < n, ∃ src w, H[m]? = some (.inr (.receiver (.poll src))) ∧
      (∃ l < n, Receiver.PolledIn (receiverCalls (H.take l)) src w) ∧
      out.data = (src.buildReport w).1 ++ (src.buildReport w).2.1 := by
  obtain ⟨id, hsent⟩ := mem_sentByReceiver.mp hout
  obtain ⟨l, hlt, hget⟩ := getElem?_of_mem_take (mem_told.mp hsent)
  obtain ⟨-, ⟨r', hreceiver, -⟩⟩ := noted_run_ends hrun
  have hsplit := receiverCalls_split hget
  have hentry : (receiverCalls H)[(receiverCalls (H.take l)).length]? = some (.inr (.sent id out)) := by
    rw [hsplit, List.getElem?_append_right (le_refl _), Nat.sub_self]
    rfl
  have htake : (receiverCalls H).take (receiverCalls (H.take l)).length = receiverCalls (H.take l) := by
    rw [hsplit, List.take_left' rfl]
  obtain ⟨src, w₁, hpolled, hbuilt⟩ := Receiver.run_sentWithSrs hreceiver hentry
  rw [htake] at hpolled hbuilt
  have hpoll := hbuilt.polled
  rw [told_receiverCalls, mem_byReceiver] at hpoll
  obtain ⟨m, hlt', hm⟩ := getElem?_of_mem_take (mem_told.mp hpoll)
  exact ⟨m, hlt'.trans hlt, src, w₁, hm, ⟨l, hlt, hpolled⟩, hbuilt.data⟩

/-- In every run over a network that loses, delays, reorders and duplicates datagrams, every receiver report
that the sender handles tells what the receiver has counted when it polled the source: for the stream, or
for the subflow with its id. It was filled at one of the readings of the clock in that poll. -/
theorem receiverReports_heard
    (hrun : Run (noting (step isPathValid)) (fun H => NetworkOn (told H))
      (new senderUnit receiverUnit ssrc w w') H r) {n i : ℕ} {d : SenderData} {pkt : RtcpRrPacket}
    {id : UInt16} {senderSsrc : UInt32}
    (hn : H[n]? = some (.inr (.sender (.visit d (.rtcp (.rr pkt id senderSsrc) i))))) :
    ∃ m src w, m < n ∧ H[m]? = some (.inr (.receiver (.poll src))) ∧ senderSsrc = src.senderSsrc ∧
      (∃ l < n, Receiver.PolledIn (receiverCalls (H.take l)) src w) ∧
      ∃ stat k, (stat = src.stat ∧ id = 0 ∧ k = 0 ∨
          ∃ sf, k ≠ 0 ∧ src.subflows[k - 1]? = some sf ∧ stat = sf.recvStat ∧ id = sf.subflowId) ∧
        pkt = stat.rrSent src.ssrc src.lastSenderReport (World.tick^[k + 1] w) pkt.recvFrom pkt.recvTime := by
  obtain ⟨raw, -, ⟨hlen, out, hout, -, hdata⟩, ⟨-, fuel, hcall⟩, -⟩ := getElem?_calls hrun hn _ rfl
  obtain ⟨m, hlt, src, w₁, hm, hpolled, hbytes⟩ := sent_polled hrun hout
  refine ⟨m, src, w₁, hlt, hm, ?_⟩
  rcases Source.mem_calls_buildReport (hdata.symm.trans hbytes) (by unfold maxUdpPayload at hlen; omega)
    hcall with hstream | ⟨k, sf, hsf, hsubflow⟩
  · cases hstream
    exact ⟨rfl, hpolled, _, 0, Or.inl ⟨rfl, rfl, rfl⟩, rfl⟩
  · cases hsubflow
    exact ⟨rfl, hpolled, _, k + 1, Or.inr ⟨sf, Nat.succ_ne_zero k, hsf, rfl, rfl⟩, rfl⟩

/-- The datagram sent as number `n`, for a socket of its kind. -/
def pickOn (sent : List OutDatagram) (rtcp : Bool) (n : ℕ) : List (List UInt8) :=
  ((sent[n]?.filter fun out => out.data.length ≤ maxUdpPayload ∧ out.rtcp = rtcp).map OutDatagram.data).toList

theorem deliversOn_pickOn (sent : List OutDatagram) (rtcp : Bool) (n : ℕ) (addr : Endpoint) :
    DeliversOn sent (.arrive rtcp addr (pickOn sent rtcp n)) := by
  intro i b a ha
  unfold PollInput.arrive at ha
  split at ha
  · rename_i hsocket
    obtain ⟨data, hdata, he⟩ := List.mem_map.mp ha
    cases he
    unfold pickOn at hdata
    rw [Option.mem_toList, Option.map_eq_some_iff] at hdata
    obtain ⟨out, hout, rfl⟩ := hdata
    obtain ⟨hget, hfits⟩ := Option.filter_eq_some_iff.mp hout
    obtain ⟨hlen, hrtcp⟩ := of_decide_eq_true hfits
    exact ⟨hlen, out, List.mem_of_getElem? hget, hrtcp.trans hsocket.2.symm, rfl⟩
  · cases ha

/-- The receiver polls and receives a datagram of the sender on a socket of its kind. -/
def toReceiverOn (rtcp : Bool) (n : ℕ) (H : SystemLog) : Step :=
  .receiver (.poll 10 (.arrive rtcp ⟨0x0A000001, 23000⟩ (pickOn (sentBySender (told H)) rtcp n)))

/-- The sender polls and receives a report. -/
def toSenderOn (n : ℕ) (H : SystemLog) : Step :=
  .sender (.poll 10 (.arrive true ⟨0x0A000002, 22001⟩ (pickOn (sentByReceiver (told H)) true n)))

/-- One path and one packet, a report of the sender and one of the receiver. -/
def reportsExchanged : List (SystemLog → Step) :=
  [fun _ => .sender (.addInterface ⟨0x0A000001, 23000⟩ true),
    fun _ => .sender (.connect 0xDEAD [⟨0x0A000002, 22000⟩]),
    fun _ => .receiver (.addInterface ⟨0x0A000002, 22000⟩ true),
    fun _ => .sender (.sendData [65, 66] 26), toReceiverOn false 0, toSenderOn 0, toReceiverOn true 1,
    toSenderOn 0]

def reportsExchangedRun : SystemLog × Option System :=
  afterChoices (noting (step fun _ _ => true)) (new 1 1 0xBEEF (drawing 7) (drawing 0)) reportsExchanged

def senderReport? : (System × Step) ⊕ SystemEvent → Option (ReceiverData × RtcpSrPacket × UInt16 × ℕ)
  | .inr (.receiver (.visit d (.rtcp (.sr pkt id) i))) => some (d, pkt, id, i)
  | _ => none

theorem eq_senderReport {e : (System × Step) ⊕ SystemEvent} {x : ReceiverData × RtcpSrPacket × UInt16 × ℕ}
    (h : senderReport? e = some x) : e = .inr (.receiver (.visit x.1 (.rtcp (.sr x.2.1 x.2.2.1) x.2.2.2))) := by
  unfold senderReport? at h
  split at h
  · cases h
    rfl
  · cases h

def receiverReport? : (System × Step) ⊕ SystemEvent → Option (SenderData × RtcpRrPacket × UInt16 × UInt32 × ℕ)
  | .inr (.sender (.visit d (.rtcp (.rr pkt id senderSsrc) i))) => some (d, pkt, id, senderSsrc, i)
  | _ => none

theorem eq_receiverReport {e : (System × Step) ⊕ SystemEvent}
    {x : SenderData × RtcpRrPacket × UInt16 × UInt32 × ℕ} (h : receiverReport? e = some x) :
    e = .inr (.sender (.visit x.1 (.rtcp (.rr x.2.1 x.2.2.1 x.2.2.2.1) x.2.2.2.2))) := by
  unfold receiverReport? at h
  split at h
  · cases h
    rfl
  · cases h

theorem reportsExchanged_run : Run (noting (step fun _ _ => true)) (fun H => NetworkOn (told H))
    (new 1 1 0xBEEF (drawing 7) (drawing 0)) reportsExchangedRun.1 reportsExchangedRun.2 := by
  apply Run.of_choices
  have hreceiver : ∀ rtcp n (H : SystemLog) s, NetworkOn (told H) s (toReceiverOn rtcp n H) :=
    fun rtcp n H _ => deliversOn_pickOn _ rtcp n _
  have hsender : ∀ n (H : SystemLog) s, NetworkOn (told H) s (toSenderOn n H) :=
    fun n H _ => deliversOn_pickOn _ true n _
  unfold reportsExchanged
  simp only [List.forall_mem_cons, List.not_mem_nil, false_implies, implies_true, and_true]
  exact ⟨fun _ _ => trivial, fun _ _ => trivial, fun _ _ => trivial, fun _ _ => trivial,
    hreceiver false 0, hsender 0, hreceiver true 1, hsender 0⟩

/-- The receiver hears of the one packet and its two bytes in the report for the stream, and in the one for the
first subflow. -/
theorem reportsExchanged_toReceiver : ∃ d pkt i d' pkt' i',
    reportsExchangedRun.1[12]? = some (.inr (.receiver (.visit d (.rtcp (.sr pkt 0) i)))) ∧
    reportsExchangedRun.1[13]? = some (.inr (.receiver (.visit d' (.rtcp (.sr pkt' 1) i')))) ∧
    pkt.packetCount = 1 ∧ pkt.octetCount = 2 ∧ pkt'.packetCount = 1 ∧ pkt'.octetCount = 2 ∧
    (∃ m < 12, pkt.packetCount.toNat =
      (Sender.acceptedCalls (senderCalls (reportsExchangedRun.1.take m))).length % 2 ^ 32) ∧
    ∃ m < 13, (∃ s e, lastCall? (senderCalls (reportsExchangedRun.1.take m)) = some (s, e) ∧
        0 < s.obj.subflows.length) ∧
      pkt'.packetCount.toNat = (Sender.callsOn 0
        (Sender.acceptedCalls (senderCalls (reportsExchangedRun.1.take m)))).length % 2 ^ 32 := by
  have hsome : (∃ x ∈ reportsExchangedRun.1[12]?.bind senderReport?,
        x.2.2.1 = 0 ∧ x.2.1.packetCount = 1 ∧ x.2.1.octetCount = 2) ∧
      ∃ x ∈ reportsExchangedRun.1[13]?.bind senderReport?,
        x.2.2.1 = 1 ∧ x.2.1.packetCount = 1 ∧ x.2.1.octetCount = 2 := by decide +kernel
  obtain ⟨⟨x, hx, hid, hone, htwo⟩, x', hx', hid', hone', htwo'⟩ := hsome
  obtain ⟨e, he, hreport⟩ := Option.bind_eq_some_iff.mp hx
  obtain ⟨e', he', hreport'⟩ := Option.bind_eq_some_iff.mp hx'
  rw [eq_senderReport hreport, hid] at he
  rw [eq_senderReport hreport', hid'] at he'
  obtain ⟨m, _, _, s, e, hlt, -, -, -, calls, hcalls, hpackets, -⟩ :=
    senderReports_heard reportsExchanged_run he
  obtain ⟨m', _, _, s', e', hlt', -, -, hlast', calls', hcalls', hpackets', -⟩ :=
    senderReports_heard reportsExchanged_run he'
  refine ⟨x.1, x.2.1, x.2.2.2, x'.1, x'.2.1, x'.2.2.2, he, he', hone, htwo, hone', htwo', ⟨m, hlt, ?_⟩,
    m', hlt', ?_⟩
  · rcases hcalls with ⟨rfl, -⟩ | ⟨j, -, -, hj⟩
    · exact hpackets
    · cases hj
  · rcases hcalls' with ⟨-, hzero⟩ | ⟨j, hj, rfl, hid⟩
    · cases hzero
    · obtain rfl : j = 0 := (Nat.succ.inj hid).symm
      exact ⟨⟨s', e', hlast', hj⟩, hpackets'⟩

/-- The sender hears of it in the report for the stream. -/
theorem reportsExchanged_toSender : ∃ d pkt senderSsrc i,
    reportsExchangedRun.1[18]? = some (.inr (.sender (.visit d (.rtcp (.rr pkt 0 senderSsrc) i)))) ∧
      ∃ m src w stat k, m < 18 ∧ reportsExchangedRun.1[m]? = some (.inr (.receiver (.poll src))) ∧
        (∃ l < 18, Receiver.PolledIn (receiverCalls (reportsExchangedRun.1.take l)) src w) ∧
        pkt = SourceStats.rrSent stat src.ssrc src.lastSenderReport (World.tick^[k + 1] w) pkt.recvFrom
          pkt.recvTime := by
  have hsome : ∃ x ∈ reportsExchangedRun.1[18]?.bind receiverReport?, x.2.2.1 = 0 := by decide +kernel
  obtain ⟨x, hx, hid⟩ := hsome
  obtain ⟨e, he, hreport⟩ := Option.bind_eq_some_iff.mp hx
  rw [eq_receiverReport hreport, hid] at he
  obtain ⟨m, src, w, hlt, hpoll, -, hpolled, stat, k, -, hpkt⟩ := receiverReports_heard reportsExchanged_run he
  exact ⟨x.1, x.2.1, x.2.2.2.1, x.2.2.2.2, he, m, src, w, stat, k, hlt, hpoll, hpolled, hpkt⟩

end System

end Mprtp
