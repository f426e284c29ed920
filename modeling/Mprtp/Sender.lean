import Mprtp.Source
import Mprtp.Session

/-! `sender`: its subflows, the packets it sends and how it distributes them. -/
namespace Mprtp

/-- `sender` without its base class; the default values are those of the constructor. -/
structure SenderData where
  sequesnceNumber : UInt16
  timestamp : UInt32 := 0
  nextSubflowId : UInt16 := 1
  ssrc : UInt32 := 0
  destAddr : List Endpoint := []
  timestampUnit : ℚ
  subflows : List Subflow := []
  recalcDistribution : Bool := false
  packetCount : UInt32 := 0
  octetCount : UInt32 := 0
  lastPacketTime : RtpTime := 0
  lastSenderReportTime : RtpTime := 0
  /-- SB, bytes per second, updated about every second -/
  streamBitrate : ExtRat := 1
  /-- bytes since the last calculation of SB -/
  sbSize : UInt32 := 0
  sbTime : RtpTime := 0

/-- What a sender does, in order. -/
inductive SenderEvent where
  /-- a handler is called -/
  | visit (obj : SenderData) (c : Call)
  /-- a datagram is handed to the socket of the subflow at an index -/
  | sent (subflow : ℕ) (out : OutDatagram)
  /-- `poll` comes to the calculation of the stream bitrate, at the time `curtime` -/
  | measure (obj : SenderData) (curtime : RtpTime)
  /-- `recalc_subflow_percentage` is called and divides by these values, in order -/
  | recalc (obj : SenderData) (divisors : List ExtRat)

namespace SenderData

/-- `select_subflow`: the loop that adds up the percentages. -/
def selectFrom (rnd : ℚ) : List Subflow → ExtRat → ℕ → Option ℕ
  | [], _, _ => none
  | sf :: sfs, p, k =>
    let p := p + sf.percentage
    if .fin rnd < p then some k else selectFrom rnd sfs p (k + 1)

/-- `select_subflow`: the index of the subflow; the front of an empty list is not there. -/
def selectSubflow (d : SenderData) (w : World) : Option ℕ × World :=
  let rnd : ℚ := (w.draw % 101 : ℕ) / 100
  match selectFrom rnd d.subflows 0 0, d.subflows with
  | some k, _ => (some k, w.drawn)
  | none, [] => (none, w.drawn)
  | none, _ :: _ => (some 0, w.drawn)

/-- `get_next_timestamp`, which returns `timestamp`. -/
def getNextTimestamp (d : SenderData) (w : World) : SenderData × World :=
  if d.packetCount = 0 then
    ({ d with
        lastPacketTime := w.now
        timestamp := UInt32.ofNat (w.draw % 0xFFFF) }, w.tick.drawn)
  else
    let curtime := w.now
    let tsdiff := truncU32 ((curtime - d.lastPacketTime) / d.timestampUnit + 1 / 2)
    ({ d with lastPacketTime := curtime, timestamp := d.timestamp + tsdiff }, w.tick)

/-- `update_stream_bitrate`. -/
def updateStreamBitrate (d : SenderData) (size : UInt32) (w : World) : SenderData × World :=
  let d := { d with sbSize := d.sbSize + size }
  if d.sbTime = 0 then ({ d with sbTime := w.now }, w.tick) else (d, w)

/-- The datagram that `send_data` builds. -/
def rtpBytes (seq : UInt16) (timestamp ssrc : UInt32) (subflowId subflowSeq : UInt16)
    (payload : List UInt8) : List UInt8 :=
  [0x90, 0] ++ bytes16 seq ++ bytes32 timestamp ++ bytes32 ssrc ++
    (bytes16 mprtpExtensionId ++ bytes16 2) ++
    ([0x04, 0x04] ++ bytes16 subflowId ++ bytes16 subflowSeq ++ [0, 0]) ++ payload

/-- The end of `send_data` for a datagram of `pktLen` bytes that was sent. -/
def countSent (d : SenderData) (dataLen pktLen : ℕ) (w : World) : SenderData × World :=
  let (d, w) :=
    if d.packetCount = 0 then ({ d with lastSenderReportTime := w.now }, w.tick) else (d, w)
  { d with
    packetCount := d.packetCount + 1
    octetCount := d.octetCount + UInt32.ofNat dataLen }.updateStreamBitrate (UInt32.ofNat pktLen) w

/-- `send_data`; `ret` is what the socket's `sendto` returns. -/
def sendData (d : SenderData) (w : World) (data : List UInt8) (ret : ℤ) :
    Exec SenderEvent (Bool × SenderData × World) := do
  let (chosen, w) := d.selectSubflow w
  match chosen.bind fun k => d.subflows[k]?.map fun sf => (k, sf) with
  | none => Exec.stuck []
  | some (k, sf) =>
    let seq := d.sequesnceNumber
    let (d, w) := { d with sequesnceNumber := seq + 1 }.getNextTimestamp w
    let pkt := rtpBytes seq d.timestamp d.ssrc sf.subflowId sf.sequesnceNumber data
    let (out, sf) := sf.sendto pkt (UInt32.ofNat data.length) false ret
    Exec.tell (.sent k out)
    let d := { d with subflows := d.subflows.set k sf }
    if ret = pkt.length then
      let (d, w) := d.countSent data.length pkt.length w
      return (true, d, w)
    else
      return (false, d, w)

/-- `make_sender_report`. -/
def makeSenderReport (d : SenderData) (packetCount octetCount : UInt32) (ntp : RtpNtpTime) :
    List UInt8 :=
  rtcpHeader 0 rtcpTypeSr 6 ++ bytes32 d.ssrc ++ bytes32 ntp.msw ++ bytes32 ntp.lsw ++
    bytes32 d.timestamp ++ bytes32 packetCount ++ bytes32 octetCount

/-- The loop of `make_subflow_sender_report`: one MPRTCP block for each subflow. -/
def senderBlocks (d : SenderData) (ntp : RtpNtpTime) : List Subflow → List UInt8
  | [] => []
  | sf :: sfs =>
    let sr := d.makeSenderReport sf.packetCount sf.octetCount ntp
    let blockLength := (sizeofMprtpRtcp + 2 + sr.length) / 4
    [mprtcpTypeSubflow, UInt8.ofNat blockLength] ++ bytes16 sf.subflowId ++ sr ++
      senderBlocks d ntp sfs

/-- `make_subflow_sender_report`. -/
def makeSubflowSenderReport (d : SenderData) (ntp : RtpNtpTime) : List UInt8 :=
  let body := bytes32 d.ssrc ++ bytes32 d.ssrc ++ d.senderBlocks ntp d.subflows
  let length := (sizeofRtcpCommonHeader + body.length - 1) / 4
  rtcpHeader 0 rtcpTypeMprtp (UInt16.ofNat length) ++ body

/-- `send_sender_report`. A report behind the end of the buffer is undefined. -/
def sendSenderReport (d : SenderData) (w : World) : Exec SenderEvent (SenderData × World) := do
  let (d, w) := d.getNextTimestamp w
  let ntp := getNtpTime d.lastPacketTime
  let pkt := d.makeSenderReport d.packetCount d.octetCount ntp ++ d.makeSubflowSenderReport ntp
  if maxPacketSize < pkt.length then
    Exec.stuck []
  let (chosen, w) := d.selectSubflow w
  match chosen.bind fun k => d.subflows[k]?.map fun sf => (k, sf) with
  | none => Exec.stuck []
  | some (k, sf) =>
    -- the result of the send is not looked at
    let (out, _) := sf.sendto pkt 0 true 0
    Exec.tell (.sent k out)
    let (d, w) := d.updateStreamBitrate (UInt32.ofNat pkt.length) w
    return ({ d with lastSenderReportTime := d.lastPacketTime }, w)

/-- `on_rtcp_rr_packet`: a report on a subflow goes to the first with its id. -/
def onRtcpRrPacket (d : SenderData) (w : World) (pkt : RtcpRrPacket) (subflowId : UInt16) :
    SenderData × World :=
  if subflowId = 0 then (d, w)
  else
    match d.subflows.findIdx? fun sf => sf.subflowId = subflowId with
    | none => (d, w)
    | some k =>
      match d.subflows[k]? with
      | none => (d, w)
      | some sf =>
        let (sf, w) := sf.processRrPacket pkt w
        ({ d with subflows := d.subflows.set k sf, recalcDistribution := true }, w)

/-- A division of `recalc_subflow_percentage`, with its divisor on record. -/
def divide (a b : ExtRat) : Exec ExtRat ExtRat := do
  Exec.tell b
  return a / b

/-- The sum of a bitrate over subflows. -/
def sumOf (f : Subflow → ExtRat) (sfs : List Subflow) : ExtRat :=
  sfs.foldl (fun s sf => s + f sf) 0

/-- The loops of `recalc_subflow_percentage` that give every subflow its share `f` of `sum`. -/
def distribute (f : Subflow → ExtRat) (sum : ExtRat) (sfs : List Subflow) :
    Exec ExtRat (List Subflow) :=
  sfs.mapM fun sf => do
    let percentage ← divide (f sf) sum
    return { sf with percentage }

/-- The loop of the stepwise approach over all subflows: those that are congested or lossy get
their percentage, and `AP` adds these up. -/
def stepwise (streamBitrate sumTB : ExtRat) : List Subflow → ExtRat →
    Exec ExtRat (List Subflow × ExtRat)
  | [], ap => pure ([], ap)
  | sf :: sfs, ap => do
    if sf.isCongested || sf.isLossy then
      let share ← divide sf.testedBitrate sumTB
      let bound ← divide ((if sf.isCongested then beta else gamma) * sf.congestedBitrate) streamBitrate
      let p := ExtRat.stdMin share bound
      let (sfs, ap) ← stepwise streamBitrate sumTB sfs (ap + p)
      return ({ sf with percentage := p } :: sfs, ap)
    else
      let (sfs, ap) ← stepwise streamBitrate sumTB sfs ap
      return (sf :: sfs, ap)

/-- The end of the stepwise approach: the subflows that are neither congested nor lossy share
what is left. -/
def shareRest (ap : ExtRat) (sfs : List Subflow) : Exec ExtRat (List Subflow) := do
  let sumUnassTB := sumOf Subflow.testedBitrate (sfs.filter fun sf => !(sf.isCongested || sf.isLossy))
  if sumUnassTB = 0 then
    return sfs
  sfs.mapM fun sf => do
    if sf.isCongested || sf.isLossy then
      return sf
    let share ← divide sf.testedBitrate sumUnassTB
    return { sf with percentage := share * (1 - ap) }

/-- `recalc_subflow_percentage`: the subflows after it, and the divisors on its way. -/
def recalcSubflowPercentage (d : SenderData) : Exec ExtRat (List Subflow) := do
  if !d.subflows.all Subflow.readyForDistribution then
    return d.subflows
  let congestedCount := d.subflows.countP Subflow.isCongested
  let sfs ← if congestedCount = 0 then
      distribute Subflow.testedBitrate (sumOf Subflow.testedBitrate d.subflows) d.subflows
    else pure d.subflows
  if congestedCount = d.subflows.length then
    distribute Subflow.congestedBitrate (sumOf Subflow.congestedBitrate sfs) sfs
  else do
    let (sfs, ap) ← stepwise d.streamBitrate (sumOf Subflow.testedBitrate sfs) sfs 0
    shareRest ap sfs

/-- The part of `poll` that sends a sender report when the last is five seconds old. -/
def sendDueReport (d : SenderData) (curtime : RtpTime) (w : World) :
    Exec SenderEvent (SenderData × World) :=
  if d.lastSenderReportTime ≠ 0 ∧ getSeconds curtime - getSeconds d.lastSenderReportTime ≥ 5 then
    d.sendSenderReport w
  else pure (d, w)

/-- The part of `poll` that measures the stream bitrate. -/
def measureStreamBitrate (d : SenderData) (curtime : RtpTime) : SenderData :=
  if d.sbTime = 0 then { d with sbTime := curtime }
  else if d.sbTime + 1 ≤ curtime then
    { d with
      streamBitrate := .fin d.sbSize.toNat / .fin (curtime - d.sbTime)
      sbSize := 0
      sbTime := curtime }
  else d

/-- The end of `poll`: the distribution is calculated anew after receiver reports. -/
def redistribute (d : SenderData) : Exec SenderEvent SenderData := do
  if !d.recalcDistribution then
    return d
  let shares := d.recalcSubflowPercentage
  Exec.tell (.recalc d shares.log)
  return { d with subflows := shares.res.getD d.subflows, recalcDistribution := false }

end SenderData

def senderHandlers : Handlers SenderData SenderEvent where
  onRtpPacket d w pkt _ := (true, pkt, d, w)
  onRtcpSrPacket d w _ _ _ := (d, w)
  onRtcpRrPacket d w pkt subflowId _ _ := d.onRtcpRrPacket w pkt subflowId
  visit := .visit

abbrev Sender := Session SenderData

namespace Sender

/-- The constructor. -/
def new (timestampUnit : ℚ) (w : World) : Sender where
  obj := { sequesnceNumber := UInt16.ofNat (w.draw % 0xFFFF), timestampUnit }
  world := w.drawn

/-- The loops of `connect`, over the pairs of an interface and a destination. -/
def connectPaths (isPathValid : Endpoint → Endpoint → Bool) (interfaces : List Interface) :
    List (ℕ × Endpoint) → SenderData → World → SenderData × World
  | [], d, w => (d, w)
  | (i, addr) :: pairs, d, w =>
    match interfaces[i]? with
    | none => connectPaths isPathValid interfaces pairs d w
    | some iface =>
      if isPathValid iface.getAddress addr then
        let (sf, w) := Subflow.new d.nextSubflowId i addr w
        connectPaths isPathValid interfaces pairs
          { d with subflows := d.subflows ++ [sf], nextSubflowId := d.nextSubflowId + 1 } w
      else
        connectPaths isPathValid interfaces pairs d w

/-- `connect`. -/
def connect (isPathValid : Endpoint → Endpoint → Bool) (s : Sender) (ssrc : UInt32)
    (destination : List Endpoint) : Bool × Sender :=
  if s.interfaces = [] then (false, s)
  else
    let d := { s.obj with ssrc, destAddr := destination }
    let pairs := (List.range s.interfaces.length).flatMap fun i => destination.map fun a => (i, a)
    let (obj, world) := connectPaths isPathValid s.interfaces pairs d s.world
    (obj.subflows ≠ [], { s with obj, world })

/-- `send_data`. -/
def sendData (s : Sender) (data : List UInt8) (ret : ℤ) : Exec SenderEvent (Bool × Sender) := do
  let (sent, obj, world) ← s.obj.sendData s.world data ret
  return (sent, { s with obj, world })

/-- `sender::poll`; the status of `session::poll` is handed on. -/
def poll (fuel : ℕ) (io : PollInput) (s : Sender) : Exec SenderEvent Sender := do
  let (s, _) ← Session.poll senderHandlers fuel io s
  let curtime := s.world.now
  let (d, w) ← s.obj.sendDueReport curtime s.world.tick
  Exec.tell (.measure d curtime)
  let obj ← (d.measureStreamBitrate curtime).redistribute
  return { s with obj, world := w }

/-- The calls that the application makes. -/
inductive Step where
  | addInterface (addr : Endpoint) (opened : Bool)
  | suspendInterface (addr : Endpoint) (suspend : Bool)
  | connect (ssrc : UInt32) (destination : List Endpoint)
  | sendData (data : List UInt8) (ret : ℤ)
  | poll (fuel : ℕ) (io : PollInput)
  | fetchPacket

def step (isPathValid : Endpoint → Endpoint → Bool) (s : Sender) : Step → Exec SenderEvent Sender
  | .addInterface addr opened => pure (s.addInterface addr opened)
  | .suspendInterface addr suspend => pure (s.suspendInterface addr suspend).1
  | .connect ssrc destination => pure (s.connect isPathValid ssrc destination).2
  | .sendData data ret => do
    let (_, s) ← sendData s data ret
    return s
  | .poll fuel io => poll fuel io s
  | .fetchPacket => pure s.fetchPacket.2

end Sender

end Mprtp
