import Mprtp.Interface
import Mprtp.Stat
import Mprtp.Lib.ExtRat

/-! `subflow`: one path of a sender, or of a source that a receiver knows. -/
namespace Mprtp

/-! The constants of `mprtp_constants.cpp`. -/

def alpha : ExtRat := .fin (99 / 100)
def ciMax : ℤ := 3
def TO : ℚ := 3
def beta : ExtRat := .fin (1 / 2)
def gamma : ExtRat := .fin (3 / 4)

/-- `subflow`; the default values are those of its constructor. The interface is the index of
one of the session's. -/
structure Subflow where
  sequesnceNumber : UInt16
  subflowId : UInt16
  remote : Endpoint
  iface : ℕ
  lastSenderReport : Option RtcpSrPacket := none
  lastReceiverReport : Option RtcpRrPacket := none
  packetCount : UInt32 := 0
  octetCount : UInt32 := 0
  packetCountTt : UInt32 := 0
  octetCountTt : UInt32 := 0
  instantBitrate : ExtRat := 0
  testedBitrate : ExtRat := 0
  tbInitialized : Bool := false
  congestedBitrate : ExtRat := 0
  cbInitialized : Bool := false
  congestionIndicator : ℤ := 0
  congestionTime : RtpTime := 0
  percentage : ExtRat := .fin (1 / 2)
  readyForDistribution : Bool := false
  recvStat : SourceStats := {}

namespace Subflow

/-- The constructor, with the random start of the numbering. -/
def new (id : UInt16) (iface : ℕ) (remote : Endpoint) (w : World) : Subflow × World :=
  ({ sequesnceNumber := UInt16.ofNat (w.draw % 0xFFFF), subflowId := id, remote, iface }, w.drawn)

/-- `sendto`; `ret` is what the socket's `sendto` returns. -/
def sendto (sf : Subflow) (data : List UInt8) (payloadLength : UInt32) (rtcp : Bool) (ret : ℤ) :
    OutDatagram × Subflow :=
  let out := Interface.sendto sf.iface data sf.remote rtcp
  if rtcp then (out, sf)
  else if ret = data.length then
    (out, { sf with
      packetCount := sf.packetCount + 1
      octetCount := sf.octetCount + payloadLength
      packetCountTt := sf.packetCountTt + 1
      octetCountTt := sf.octetCountTt + payloadLength
      sequesnceNumber := sf.sequesnceNumber + 1 })
  else
    (out, { sf with sequesnceNumber := sf.sequesnceNumber + 1 })

/-- `process_rtp_packet`. -/
def processRtpPacket (sf : Subflow) (pack : RtpPacket) (tsunit : ℚ) : Subflow × RtpPacket :=
  let (recvStat, pack) := sf.recvStat.processPacket pack true tsunit
  ({ sf with recvStat }, pack)

/-- `process_sr_packet`. -/
def processSrPacket (sf : Subflow) (pkt : RtcpSrPacket) : Subflow :=
  { sf with lastSenderReport := some pkt }

/-- `is_congested`. -/
def isCongested (sf : Subflow) : Bool := sf.congestionIndicator = ciMax

/-- `is_lossy`. -/
def isLossy (sf : Subflow) : Bool := 0 < sf.congestionIndicator && !sf.isCongested

/-- The packet count of `process_rr_packet`, an unsigned difference. -/
def hsnDiff (last pkt : RtcpRrPacket) : UInt32 := pkt.exthighseqnr - last.exthighseqnr

/-- The instantaneous bitrate that `process_rr_packet` computes. -/
def bitrate (sf : Subflow) (last pkt : RtcpRrPacket) : ExtRat :=
  let fractLoss : ℚ := pkt.fractionlost.toNat / 256
  let avgPacketSize := ExtRat.fin sf.octetCountTt.toNat / ExtRat.fin sf.packetCountTt.toNat
  let timeDiff := pkt.recvTime - last.recvTime
  ExtRat.fin (hsnDiff last pkt).toNat * ExtRat.fin (1 - fractLoss) * avgPacketSize /
    ExtRat.fin timeDiff

/-- How the tested and the congested bitrate follow the instantaneous one without loss. -/
def follow (initialized : Bool) (old instant : ExtRat) : ExtRat :=
  if !initialized then instant * alpha
  else if old < instant then old * alpha + (1 - alpha) * instant
  else old

/-- The decrement of the congestion indicator after `TO` seconds per step without loss. -/
def relax (sf : Subflow) (w : World) : Subflow × World :=
  if sf.congestionTime + sf.congestionIndicator * TO < w.now then
    ({ sf with
        congestionIndicator := sf.congestionIndicator - 1
        congestionTime := w.tick.now }, w.tick.tick)
  else
    (sf, w.tick)

/-- `process_rr_packet` for a report without loss, once the bitrate `b` is computed. -/
def withoutLoss (sf : Subflow) (b : ExtRat) (w : World) : Subflow × World :=
  let testedBitrate := follow sf.tbInitialized sf.testedBitrate b
  let sf := { sf with instantBitrate := b, testedBitrate, tbInitialized := true }
  if sf.congestionIndicator > 0 then
    let congestedBitrate := follow sf.cbInitialized sf.congestedBitrate b
    { sf with congestedBitrate, cbInitialized := true }.relax w
  else
    (sf, w)

/-- `process_rr_packet` for a report of loss, once the bitrate `b` is computed. -/
def withLoss (sf : Subflow) (b : ExtRat) (w : World) : Subflow × World :=
  ({ sf with
      instantBitrate := b
      testedBitrate := b * alpha
      tbInitialized := true
      congestedBitrate := b * alpha
      cbInitialized := true
      congestionTime := w.now
      congestionIndicator :=
        if sf.congestionIndicator < ciMax then sf.congestionIndicator + 1
        else sf.congestionIndicator }, w.tick)

/-- The part of `process_rr_packet` that computes the bitrates. -/
def measure (sf : Subflow) (last pkt : RtcpRrPacket) (w : World) : Subflow × World :=
  let b := sf.bitrate last pkt
  let (sf, w) := if pkt.fractionlost = 0 then sf.withoutLoss b w else sf.withLoss b w
  ({ sf with readyForDistribution := true }, w)

/-- The end of `process_rr_packet`. -/
def store (sf : Subflow) (pkt : RtcpRrPacket) : Subflow :=
  { sf with packetCountTt := 0, octetCountTt := 0, lastReceiverReport := some pkt }

/-- `process_rr_packet`. -/
def processRrPacket (sf : Subflow) (pkt : RtcpRrPacket) (w : World) : Subflow × World :=
  match sf.lastReceiverReport with
  | none => (sf.store pkt, w)
  | some last =>
    if sf.packetCountTt > 0 then
      let (sf, w) := sf.measure last pkt w
      (sf.store pkt, w)
    else
      (sf.store pkt, w)

end Subflow

end Mprtp
