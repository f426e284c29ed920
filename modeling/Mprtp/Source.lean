import Mprtp.Subflow

/-! `source`: what a receiver knows about one SSRC, and the reports it sends about it. -/
namespace Mprtp

/-- `source`. -/
structure Source where
  ssrc : UInt32
  senderSsrc : UInt32
  stat : SourceStats := {}
  subflows : List Subflow := []
  lastSenderReport : Option RtcpSrPacket := none
  lastReceiverReportTime : RtpTime := 0
  sendRr : Bool := false

/-- The first four bytes of an RTCP packet. -/
def rtcpHeader (count : ℕ) (packettype : UInt8) (length : UInt16) : List UInt8 :=
  [UInt8.ofNat (rtpVersion * 64 + count), packettype] ++ bytes16 length

/-- The bytes of a report block. -/
def RtcpReceiverReport.bytes (rr : RtcpReceiverReport) : List UInt8 :=
  bytes32 rr.ssrc ++ [rr.fractionlost, rr.packetslost0, rr.packetslost1, rr.packetslost2] ++
    bytes32 rr.exthighseqnr ++ bytes32 rr.jitter ++ bytes32 rr.lsr ++ bytes32 rr.dlsr

namespace Source

def new (ssrc senderSsrc : UInt32) : Source := { ssrc, senderSsrc }

/-- `find_subflow(id)`: the index of the subflow. -/
def findSubflow? (src : Source) (id : UInt16) : Option ℕ :=
  src.subflows.findIdx? fun sf => sf.subflowId = id

/-- `find_subflow(id, addr, iface)`: a subflow that is not there is created. -/
def findSubflow (src : Source) (id : UInt16) (addr : Endpoint) (iface : ℕ) (w : World) :
    ℕ × Source × World :=
  match src.findSubflow? id with
  | some k => (k, src, w)
  | none =>
    let (sf, w) := Subflow.new id iface addr w
    (src.subflows.length, { src with subflows := src.subflows ++ [sf] }, w)

/-- The lines of `process_packet` about the subflow of the packet. -/
def processOnSubflow (src : Source) (pack : RtpPacket) (tsunit : ℚ) (iface : ℕ) (w : World) :
    RtpPacket × Source × World :=
  let (k, src, w) := src.findSubflow pack.subflowId pack.fromAddress iface w
  match src.subflows[k]? with
  | none => (pack, src, w)
  | some sf =>
    let (sf, pack) := sf.processRtpPacket pack tsunit
    (pack, { src with subflows := src.subflows.set k sf }, w)

/-- `process_packet`. -/
def processPacket (src : Source) (pack : RtpPacket) (tsunit : ℚ) (iface : ℕ) (w : World) :
    RtpPacket × Source × World :=
  let (stat, pack) := src.stat.processPacket pack false tsunit
  let (pack, src, w) := { src with stat }.processOnSubflow pack tsunit iface w
  if src.lastReceiverReportTime = 0 then
    (pack, { src with lastReceiverReportTime := w.now }, w.tick)
  else
    (pack, src, w)

/-- `process_sr_packet`. -/
def processSrPacket (src : Source) (pkt : RtcpSrPacket) (subflowId : UInt16) (iface : ℕ)
    (w : World) : Source × World :=
  if subflowId = 0 then
    ({ src with lastSenderReport := some pkt, sendRr := true }, w)
  else
    let (k, src, w) := src.findSubflow subflowId pkt.recvFrom iface w
    match src.subflows[k]? with
    | none => (src, w)
    | some sf => ({ src with subflows := src.subflows.set k (sf.processSrPacket pkt) }, w)

/-- `make_rr_packet` for the statistics `stat`: the bytes written and the statistics after. -/
def makeRrPacket (src : Source) (stat : SourceStats) (w : World) :
    List UInt8 × SourceStats × World :=
  let pktLen := sizeofRtcpCommonHeader + sizeofRtpSourceIdentifier + sizeofRtcpReceiverReport
  let (rr, stat, w) := stat.fillReceiverReport src.ssrc src.lastSenderReport w
  (rtcpHeader 1 rtcpTypeRr (UInt16.ofNat (pktLen / 4 - 1)) ++ bytes32 src.senderSsrc ++ rr.bytes,
    stat, w)

/-- `create_rr_packet`. -/
def createRrPacket (src : Source) (w : World) : List UInt8 × Source × World :=
  let (bytes, stat, w) := src.makeRrPacket src.stat w
  (bytes, { src with stat }, w)

/-- The loop of `create_subflows_rr_packet`: one MPRTCP block for each subflow. -/
def subflowBlocks (src : Source) : List Subflow → World → List UInt8 × List Subflow × World
  | [], w => ([], [], w)
  | sf :: sfs, w =>
    let (rr, recvStat, w) := src.makeRrPacket sf.recvStat w
    let blockLength := (sizeofMprtpRtcp + 2 + rr.length) / 4
    let block := [mprtcpTypeSubflow, UInt8.ofNat blockLength] ++ bytes16 sf.subflowId ++ rr
    let (blocks, sfs, w) := subflowBlocks src sfs w
    (block ++ blocks, { sf with recvStat } :: sfs, w)

/-- `create_subflows_rr_packet`: what it writes, from the start of its buffer on. -/
def createSubflowsRrPacket (src : Source) (w : World) : List UInt8 × Source × World :=
  let (blocks, subflows, w) := src.subflowBlocks src.subflows w
  let body := bytes32 src.senderSsrc ++ bytes32 src.ssrc ++ blocks
  let length := (sizeofRtcpCommonHeader + body.length) / 4 - 1
  (rtcpHeader 0 rtcpTypeMprtp (UInt16.ofNat length) ++ body, { src with subflows }, w)

end Source

end Mprtp
