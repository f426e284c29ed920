import Mprtp.Rtcp

/-! `source_stats`: reception statistics of a stream or of a subflow. -/
namespace Mprtp

/-- `source_stats`; the default values are those of its constructor. -/
structure SourceStats where
  receivedData : Bool := false
  packetsReceived : UInt32 := 0
  /-- shifted left 16 bits -/
  numCycles : UInt32 := 0
  baseseqnr : UInt32 := 0
  exthighseqnr : UInt32 := 0
  prevExtHighSeqnr : UInt32 := 0
  jitter : UInt32 := 0
  prevTimestamp : UInt32 := 0
  djitter : ℚ := 0
  prevPacktime : RtpTime := 0
  lastMsgTime : RtpTime := 0
  lastRtpTime : RtpTime := 0
  numNewPackets : UInt32 := 0
  savedExtSeqnr : UInt32 := 0

/-- `rtcp_receiver_report`, in host byte order. -/
structure RtcpReceiverReport where
  ssrc : UInt32
  fractionlost : UInt8
  packetslost0 : UInt8
  packetslost1 : UInt8
  packetslost2 : UInt8
  exthighseqnr : UInt32
  jitter : UInt32
  lsr : UInt32
  dlsr : UInt32
  deriving DecidableEq

namespace SourceStats

/-- The first branch of `process_packet`. -/
def firstPacket (st : SourceStats) (packSequenceNumber : UInt32) (timestamp : UInt32)
    (recvtime : RtpTime) : SourceStats :=
  let baseseqnr := if packSequenceNumber = 0 then 0x0000FFFF else packSequenceNumber - 1
  { st with
    receivedData := true
    packetsReceived := st.packetsReceived + 1
    numNewPackets := st.numNewPackets + 1
    baseseqnr
    numCycles := if packSequenceNumber = 0 then 0x00010000 else st.numCycles
    exthighseqnr := baseseqnr + 1
    prevPacktime := recvtime
    prevExtHighSeqnr := baseseqnr
    savedExtSeqnr := baseseqnr
    prevTimestamp := timestamp
    lastMsgTime := recvtime
    lastRtpTime := recvtime }

/-- `maxseq16` of `process_packet`. -/
def maxseq16 (st : SourceStats) : UInt16 := st.exthighseqnr.toUInt16

/-- The comparison of `dif1` with `dif2`: the number lies ahead of `maxseq16`. -/
def wrapped (maxseq16 packSequenceNumber : UInt16) : Prop :=
  packSequenceNumber - maxseq16 < maxseq16 - packSequenceNumber

instance (a b : UInt16) : Decidable (wrapped a b) := inferInstanceAs (Decidable (_ < _))

/-- The sequence numbers that the second branch computes for a packet. -/
structure Extended where
  numCycles : UInt32
  exthighseqnr : UInt32
  /-- the packet's own extended number -/
  extseqnr : UInt32

/-- The sequence arithmetic of the second branch of `process_packet`. -/
def extendSequence (st : SourceStats) (packSequenceNumber : UInt32) : Extended :=
  if packSequenceNumber ≥ st.maxseq16.toUInt32 then
    let extseqnr := st.numCycles + packSequenceNumber
    { numCycles := st.numCycles, exthighseqnr := extseqnr, extseqnr }
  else if wrapped st.maxseq16 packSequenceNumber.toUInt16 then
    let numCycles := st.numCycles + 0x00010000
    let extseqnr := numCycles + packSequenceNumber
    { numCycles, exthighseqnr := extseqnr, extseqnr }
  else
    let extseqnr := st.numCycles + packSequenceNumber
    { numCycles := st.numCycles, exthighseqnr := st.exthighseqnr, extseqnr }

/-- The signed difference of two RTP timestamps that the jitter estimate uses. -/
def timestampDiff (curts prevTimestamp : UInt32) : ℚ :=
  if curts > prevTimestamp then
    let unsigneddiff := curts - prevTimestamp
    if unsigneddiff < 0x10000000 then unsigneddiff.toNat else -((-unsigneddiff).toNat : ℚ)
  else if curts < prevTimestamp then
    let unsigneddiff := prevTimestamp - curts
    if unsigneddiff < 0x10000000 then -(unsigneddiff.toNat : ℚ) else (-unsigneddiff).toNat
  else
    0

/-- The jitter part of the second branch: `m_djitter` and `m_jitter`. -/
def nextJitter (st : SourceStats) (timestamp : UInt32) (recvtime : RtpTime) (tsunit : ℚ) :
    ℚ × UInt32 :=
  if tsunit > 0 then
    let ts1 := (recvtime - st.prevPacktime) / tsunit
    let ts2 := timestampDiff timestamp st.prevTimestamp
    let diff := ts1 - ts2
    let diff := if diff < 0 then -diff else diff
    let djitter := st.djitter + (diff - st.djitter) / 16
    (djitter, truncU32 djitter)
  else
    (0, 0)

/-- The number of the packet that `process_packet` works with. -/
def packSequenceNumber (pack : RtpPacket) (subflow : Bool) : UInt32 :=
  if subflow then pack.subflowExtseqnr else pack.extseqnr

/-- `source_stats::process_packet`: the statistics, and the packet with the number set on it. -/
def processPacket (st : SourceStats) (pack : RtpPacket) (subflow : Bool) (tsunit : ℚ) :
    SourceStats × RtpPacket :=
  if !st.receivedData then
    let st := st.firstPacket (packSequenceNumber pack subflow) pack.timestamp pack.recvtime
    (st, { pack with extseqnr := st.exthighseqnr })
  else
    let ext := st.extendSequence (packSequenceNumber pack subflow)
    let jit := st.nextJitter pack.timestamp pack.recvtime tsunit
    ({ st with
        packetsReceived := st.packetsReceived + 1
        numNewPackets := st.numNewPackets + 1
        numCycles := ext.numCycles
        exthighseqnr := ext.exthighseqnr
        djitter := jit.1
        jitter := jit.2
        prevPacktime := pack.recvtime
        prevTimestamp := pack.timestamp
        lastMsgTime := pack.recvtime
        lastRtpTime := pack.recvtime },
      if subflow then { pack with subflowExtseqnr := ext.extseqnr }
      else { pack with extseqnr := ext.extseqnr })

/-- `start_new_interval`. -/
def startNewInterval (st : SourceStats) : SourceStats :=
  { st with numNewPackets := 0, savedExtSeqnr := st.exthighseqnr }

/-- The `fraclost` of `fill_receiver_report`: `(uint8_t)` of 256 times a quotient of doubles,
which is a NaN when nothing was expected and nothing received. -/
def fractionLost (expected num : UInt32) (w : World) : UInt8 :=
  if expected < num then 0
  else if expected = 0 then w.nanByte
  else UInt8.ofInt ⌊((expected - num).toNat : ℚ) / expected.toNat * 256⌋

/-- The LSR and DLSR of `fill_receiver_report` at the time `curtime`. -/
def lastSrFields (sr : Option RtcpSrPacket) (curtime : RtpTime) : UInt32 × UInt32 :=
  match sr with
  | none => (0, 0)
  | some sr =>
    let msw := sr.ntpTime.msw &&& 0xFFFF
    let lsw := (sr.ntpTime.lsw >>> 16) &&& 0xFFFF
    (msw <<< 16 ||| lsw, truncU32 ((curtime - sr.recvTime) * 65536))

/-- `source_stats::fill_receiver_report`. -/
def fillReceiverReport (st : SourceStats) (ssrc : UInt32) (sr : Option RtcpSrPacket) (w : World) :
    RtcpReceiverReport × SourceStats × World :=
  let curtime := w.now
  let expected := st.exthighseqnr - st.savedExtSeqnr
  let fraclost := fractionLost expected st.numNewPackets w
  let packlost := st.exthighseqnr - st.baseseqnr - st.packetsReceived
  let (lsr, dlsr) := lastSrFields sr curtime
  ({ ssrc
     fractionlost := fraclost
     packetslost2 := packlost.toUInt8
     packetslost1 := (packlost >>> 8).toUInt8
     packetslost0 := (packlost >>> 16).toUInt8
     exthighseqnr := st.exthighseqnr
     jitter := st.jitter
     lsr, dlsr }, st.startNewInterval, w.tick)

end SourceStats

end Mprtp
