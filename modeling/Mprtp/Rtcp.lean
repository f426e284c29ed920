import Mprtp.Packet

/-! RTCP packets as the session parses them, and the walk of `process_rtcp_packet` over a
compound. The handlers that the walk calls do not influence it, so it yields their calls. -/
namespace Mprtp

/-- `rtcp_rr_packet`: one report block. -/
structure RtcpRrPacket where
  recvTime : RtpTime
  recvFrom : Endpoint
  ssrc : UInt32
  fractionlost : UInt8
  packetslost : UInt32
  exthighseqnr : UInt32
  jitter : UInt32
  lsr : UInt32
  dlsr : UInt32
  deriving DecidableEq

/-- `rtcp_sr_packet`. -/
structure RtcpSrPacket where
  recvTime : RtpTime
  recvFrom : Endpoint
  senderSsrc : UInt32
  ntpTime : RtpNtpTime
  rtpTimestamp : UInt32
  packetCount : UInt32
  octetCount : UInt32
  rrReports : List RtcpRrPacket
  deriving DecidableEq

/-- A call of one of the session's virtual RTCP handlers. -/
inductive RtcpCall where
  | sr (pkt : RtcpSrPacket) (subflowId : UInt16)
  | rr (pkt : RtcpRrPacket) (subflowId : UInt16) (senderSsrc : UInt32)
  deriving DecidableEq

/-- The `count` bit-field of an RTCP header. -/
def countOf (b : UInt8) : ℕ := b.toNat % 32

section

variable (recvFrom : Endpoint) (recvtime : RtpTime)

/-- `rtcp_rr_packet::parse` of the report block at `data`. -/
def RtcpRrPacket.parse (data : ℕ) : ByteReader RtcpRrPacket := do
  let ssrc ← .u32 data
  let fractionlost ← .byte (data + 4)
  let lost2 ← .byte (data + 7)
  let lost1 ← .byte (data + 6)
  let lost0 ← .byte (data + 5)
  let exthighseqnr ← .u32 (data + 8)
  let jitter ← .u32 (data + 12)
  let lsr ← .u32 (data + 16)
  let dlsr ← .u32 (data + 20)
  return {
    recvTime := recvtime, recvFrom, ssrc, fractionlost
    packetslost := lost2.toUInt32 ||| lost1.toUInt32 <<< 8 ||| lost0.toUInt32 <<< 16
    exthighseqnr, jitter, lsr, dlsr }

/-- The loop of `rtcp_sr_packet::parse` over the report blocks from `data` on. -/
def srReports : ℕ → ℕ → ByteReader (List RtcpRrPacket)
  | 0, _ => pure []
  | n + 1, data => do
    let rr ← RtcpRrPacket.parse recvFrom recvtime data
    let rest ← srReports n (data + sizeofRtcpReceiverReport)
    return rr :: rest

/-- `rtcp_sr_packet::parse` of the packet at `data`. -/
def RtcpSrPacket.parse (data : ℕ) : ByteReader (Option RtcpSrPacket) := do
  let packettype ← .byte (data + 1)
  if packettype ≠ rtcpTypeSr then
    return none
  let senderSsrc ← .u32 (data + 4)
  let msw ← .u32 (data + 8)
  let lsw ← .u32 (data + 12)
  let rtpTimestamp ← .u32 (data + 16)
  let packetCount ← .u32 (data + 20)
  let octetCount ← .u32 (data + 24)
  let hdr ← .byte data
  let rrReports ← srReports recvFrom recvtime (countOf hdr) (data + 28)
  return some
    { recvTime := recvtime, recvFrom, senderSsrc, ntpTime := ⟨msw, lsw⟩
      rtpTimestamp, packetCount, octetCount, rrReports }

/-- `session::process_sr_packet`. -/
def processSrPacket (pkt : ℕ) (subflowId : UInt16) : ByteReader (List RtcpCall) := do
  match ← RtcpSrPacket.parse recvFrom recvtime pkt with
  | none => return []
  | some sr => return [.sr sr subflowId]

/-- The loop of `process_rr_packet`: the pointer to the report block does not move. -/
def rrReports (pkt : ℕ) (subflowId : UInt16) : ℕ → ByteReader (List RtcpCall)
  | 0 => pure []
  | n + 1 => do
    let rr ← RtcpRrPacket.parse recvFrom recvtime (pkt + 8)
    let senderSsrc ← .u32 (pkt + 4)
    let rest ← rrReports pkt subflowId n
    return .rr rr subflowId senderSsrc :: rest

/-- `session::process_rr_packet`. -/
def processRrPacket (pkt : ℕ) (subflowId : UInt16) : ByteReader (List RtcpCall) := do
  let hdr ← .byte pkt
  rrReports recvFrom recvtime pkt subflowId (countOf hdr)

/-- The body of the loop of `process_mprtcp_packet` for the block at `data`, without the
advance. Only subflow blocks are looked into. -/
def mprtcpBlock (data : ℕ) : ByteReader (List RtcpCall) := do
  let mprtcpType ← .byte data
  if mprtcpType ≠ mprtcpTypeSubflow then
    return []
  let packettype ← .byte (data + 5)
  if packettype = rtcpTypeSr then
    let subflowId ← .u16 (data + 2)
    processSrPacket recvFrom recvtime (data + 4) subflowId
  else if packettype = rtcpTypeRr then
    let subflowId ← .u16 (data + 2)
    processRrPacket recvFrom recvtime (data + 4) subflowId
  else
    return []

/-- The loop of `process_mprtcp_packet` up to the end `stop` of the packet: the calls made and
whether the loop was left, after at most `fuel` tests of its condition. -/
def mprtcpLoop (stop : ℕ) : ℕ → ℕ → ByteReader (List RtcpCall × Bool)
  | 0, _ => pure ([], false)
  | fuel + 1, data =>
    if data < stop then do
      let calls ← mprtcpBlock recvFrom recvtime data
      let blockLength ← .byte (data + 1)
      let rest ← mprtcpLoop stop fuel (data + blockLength.toNat * 4)
      return (calls ++ rest.1, rest.2)
    else
      pure ([], true)

/-- `session::process_mprtcp_packet`. -/
def processMprtcpPacket (fuel pkt : ℕ) : ByteReader (List RtcpCall × Bool) := do
  let length ← .u16 (pkt + 2)
  mprtcpLoop recvFrom recvtime (pkt + (length.toNat + 1) * 4) fuel (pkt + 12)

/-- The switch of `process_rtcp_packet`. The handlers of the SDES, BYE, APP and unknown
packets are empty. -/
def dispatchPacket (fuel pkt : ℕ) : ByteReader (List RtcpCall × Bool) := do
  let packettype ← .byte (pkt + 1)
  if packettype = rtcpTypeSr then
    let calls ← processSrPacket recvFrom recvtime pkt 0
    return (calls, true)
  else if packettype = rtcpTypeRr then
    let calls ← processRrPacket recvFrom recvtime pkt 0
    return (calls, true)
  else if packettype = rtcpTypeMprtp then
    processMprtcpPacket recvFrom recvtime fuel pkt
  else
    return ([], true)

/-- The loop of `process_rtcp_packet` over a datagram of `len` bytes. -/
def rtcpLoop (len blockFuel : ℕ) : ℕ → ℕ → ByteReader (List RtcpCall × Bool)
  | 0, _ => pure ([], false)
  | fuel + 1, pkt =>
    if pkt < len then do
      let here ← dispatchPacket recvFrom recvtime blockFuel pkt
      if !here.2 then
        return here
      let length ← .u16 (pkt + 2)
      let rest ← rtcpLoop len blockFuel fuel (pkt + (length.toNat + 1) * 4)
      return (here.1 ++ rest.1, rest.2)
    else
      pure ([], true)

end

/-- `session::process_rtcp_packet`: the handler calls, in order, and whether the function
returned; `fuel` bounds the passes through each of its loops. -/
def processRtcpPacket (fuel : ℕ) (pkt : RawPacket) : ByteReader (List RtcpCall × Bool) :=
  rtcpLoop pkt.fromAddr pkt.recvtime pkt.dataLen fuel fuel 0

/-- What `process_rtcp_packet` does with a datagram in its memory. -/
def RawPacket.rtcpCalls (fuel : ℕ) (pkt : RawPacket) : List RtcpCall × Bool :=
  (processRtcpPacket fuel pkt).eval pkt.mem

end Mprtp
