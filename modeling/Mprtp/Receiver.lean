import Mprtp.Source
import Mprtp.Session
import Mprtp.Lib.Keyed

/-! `receiver`: its sources, its handlers and its runs. -/
namespace Mprtp

/-- `receiver` without its base class. The map of the sources is a list ordered by SSRC. -/
structure ReceiverData where
  sources : List Source := []
  timestampUnit : ℚ
  ssrc : UInt32

/-- What a receiver does, in order. -/
inductive ReceiverEvent where
  /-- a handler is called -/
  | visit (obj : ReceiverData) (c : Call)
  /-- `source::poll` is entered -/
  | poll (src : Source)
  /-- `create_rr_packet` and `create_subflows_rr_packet` have written these bytes -/
  | report (ssrc : UInt32) (rr blocks : List UInt8)
  /-- a receiver report about `ssrc` is handed to a socket -/
  | sent (ssrc : UInt32) (out : OutDatagram)
  /-- `fetch_packet` returns a packet -/
  | fetched (pkt : RtpPacket)

/-- The key of a source in the map. -/
def Source.key (src : Source) : ℕ := src.ssrc.toNat

namespace ReceiverData

/-- `get_source`; the source it creates is stored by the caller, through `setSource`. -/
def getSource (d : ReceiverData) (ssrc : UInt32) : Source :=
  (Keyed.find? Source.key ssrc.toNat d.sources).getD (Source.new ssrc d.ssrc)

def setSource (d : ReceiverData) (src : Source) : ReceiverData :=
  { d with sources := Keyed.insert Source.key src d.sources }

/-- `on_rtp_packet`. -/
def onRtpPacket (d : ReceiverData) (w : World) (pkt : RtpPacket) (iface : ℕ) :
    Bool × RtpPacket × ReceiverData × World :=
  let (pkt, src, w) := (d.getSource pkt.ssrc).processPacket pkt d.timestampUnit iface w
  (true, pkt, d.setSource src, w)

/-- `on_rtcp_sr_packet`. -/
def onRtcpSrPacket (d : ReceiverData) (w : World) (pkt : RtcpSrPacket) (subflowId : UInt16)
    (iface : ℕ) : ReceiverData × World :=
  let (src, w) := (d.getSource pkt.senderSsrc).processSrPacket pkt subflowId iface w
  (d.setSource src, w)

end ReceiverData

/-- The handlers of a receiver; receiver reports go to the empty handler of `session`. -/
def receiverHandlers : Handlers ReceiverData ReceiverEvent where
  onRtpPacket := ReceiverData.onRtpPacket
  onRtcpSrPacket := ReceiverData.onRtcpSrPacket
  onRtcpRrPacket d w _ _ _ _ := (d, w)
  visit := .visit

namespace Source

/-- The two packets that `source::poll` builds. The time it reads first is not used in them. -/
def buildReport (src : Source) (w : World) : List UInt8 × List UInt8 × Source × World :=
  let (rr, src, w) := { src with sendRr := false }.createRrPacket w.tick
  let (blocks, src, w) := src.createSubflowsRrPacket w
  (rr, blocks, src, w)

/-- `select_subflow`, where the front of an empty list is undefined, and the `sendto` of its
result; what that returns is not looked at. -/
def sendReport (src : Source) (data : List UInt8) : Exec ReceiverEvent Unit :=
  match src.subflows with
  | [] => Exec.stuck []
  | sf :: _ => Exec.tell (.sent src.ssrc (sf.sendto data 0 true 0).1)

/-- `source::poll`. A report behind the end of the buffer is undefined. -/
def poll (src : Source) (w : World) : Exec ReceiverEvent (Source × World) := do
  Exec.tell (.poll src)
  if src.sendRr then
    let (rr, blocks, src, w) := src.buildReport w
    Exec.tell (.report src.ssrc rr blocks)
    if maxPacketSize < blocks.length then
      Exec.stuck []
    else
      src.sendReport (rr ++ blocks)
      return (src, w)
  else
    return (src, w)

end Source

abbrev Receiver := Session ReceiverData

namespace Receiver

/-- The loop of `receiver::poll` over the sources. -/
def pollSources : List Source → World → Exec ReceiverEvent (List Source × World)
  | [], w => pure ([], w)
  | src :: rest, w => do
    let (src, w) ← src.poll w
    let (rest, w) ← pollSources rest w
    return (src :: rest, w)

/-- `receiver::poll`; the status of `session::poll` is handed on. -/
def poll (fuel : ℕ) (io : PollInput) (r : Receiver) : Exec ReceiverEvent Receiver := do
  let (r, _) ← Session.poll receiverHandlers fuel io r
  let (sources, world) ← pollSources r.obj.sources r.world
  return { r with obj := { r.obj with sources }, world }

/-- The calls that the application makes. -/
inductive Step where
  | addInterface (addr : Endpoint) (opened : Bool)
  | suspendInterface (addr : Endpoint) (suspend : Bool)
  | poll (fuel : ℕ) (io : PollInput)
  | fetchPacket

def step (r : Receiver) : Step → Exec ReceiverEvent Receiver
  | .addInterface addr opened => pure (r.addInterface addr opened)
  | .suspendInterface addr suspend => pure (r.suspendInterface addr suspend).1
  | .poll fuel io => poll fuel io r
  | .fetchPacket =>
    match r.fetchPacket with
    | (none, r) => pure r
    | (some pkt, r) => do
      Exec.tell (.fetched pkt)
      return r

/-- The constructor, with the SSRC it was given or has drawn. -/
def new (timestampUnit : ℚ) (ssrc : UInt32) (world : World) : Receiver where
  obj := { timestampUnit, ssrc }
  world := world

end Receiver

end Mprtp
