import Mprtp.Basic

/-! Received datagrams and `rtp_packet::parse_packet`. -/
namespace Mprtp

/-- `raw_packet`: a received datagram, the bytes that lie in memory behind it, and how it
came in. -/
structure RawPacket where
  data : List UInt8
  beyond : ℕ → UInt8
  fromAddr : Endpoint
  isrtcp : Bool
  recvtime : RtpTime

namespace RawPacket

def dataLen (p : RawPacket) : ℕ := p.data.length

def mem (p : RawPacket) : ℕ → UInt8 := memOf p.data p.beyond

end RawPacket

/-! Bit-fields of the first two bytes of an RTP header. -/

def versionOf (b : UInt8) : ℕ := b.toNat / 64
def paddingOf (b : UInt8) : ℕ := b.toNat / 32 % 2
def extensionOf (b : UInt8) : ℕ := b.toNat / 16 % 2
def csrccountOf (b : UInt8) : ℕ := b.toNat % 16
def markerOf (b : UInt8) : ℕ := b.toNat / 128
def payloadtypeOf (b : UInt8) : ℕ := b.toNat % 128

/-- `rtp_packet` after a successful parse. Pointers into the datagram are offsets. -/
structure RtpPacket where
  rawpack : RawPacket
  hasextension : Bool
  hasmarker : Bool
  numcsrcs : ℕ
  payloadtype : ℕ
  extseqnr : UInt32
  subflowExtseqnr : UInt32
  subflowId : UInt16
  timestamp : UInt32
  ssrc : UInt32
  payload : ℕ
  payloadlength : ℕ
  extid : UInt16
  extension : ℕ
  extensionlength : ℕ

/-- The header extension as `parse_packet` finds it, at the offset behind the CSRC list. -/
structure Extension where
  extid : UInt16 := 0
  extension : ℕ := 0
  extensionlength : ℕ := 0
  subflowExtseqnr : UInt32 := 0
  subflowId : UInt16 := 0
  /-- `payloadoffset` behind the extension. -/
  payloadoffset : ℕ

/-- The number of padding bytes, from the last byte when the P bit is set. -/
def parsePadding (raw : RawPacket) (b0 : UInt8) : ByteReader UInt8 :=
  if paddingOf b0 ≠ 0 then .byte (raw.dataLen - 1) else pure 0

/-- The extension header at `payloadoffset`, read when the X bit is set. -/
def parseExtension (b0 : UInt8) (payloadoffset : ℕ) : ByteReader Extension := do
  if extensionOf b0 = 0 then
    return { payloadoffset }
  let length ← .u16 (payloadoffset + 2)
  let extid ← .u16 payloadoffset
  let extension := payloadoffset + sizeofRtpExtensionHeader
  let extensionlength := length.toNat * 4
  let ext : Extension :=
    { extid, extension, extensionlength, payloadoffset := extension + extensionlength }
  if extid ≠ mprtpExtensionId then
    return ext
  let subflowSeq ← .u16 (extension + 4)
  let subflowId ← .u16 (extension + 2)
  return { ext with subflowExtseqnr := subflowSeq.toUInt32, subflowId }

/-- The end of `parse_packet`: the payload length, then the fields of the fixed header. -/
def parsePayload (raw : RawPacket) (b0 b1 numpadbytes : UInt8) (ext : Extension) :
    ByteReader (Except ℤ RtpPacket) := do
  -- the datagram's length goes through an `int`
  let payloadlength := (raw.dataLen : ℤ).bmod (2 ^ 32) - numpadbytes.toNat - ext.payloadoffset
  if payloadlength < 0 then
    return .error (-7)
  let sequencenumber ← .u16 2
  let timestamp ← .u32 4
  let ssrc ← .u32 8
  return .ok
    { rawpack := raw
      hasextension := extensionOf b0 ≠ 0
      hasmarker := markerOf b1 ≠ 0
      numcsrcs := csrccountOf b0
      payloadtype := payloadtypeOf b1
      extseqnr := sequencenumber.toUInt32
      subflowExtseqnr := ext.subflowExtseqnr
      subflowId := ext.subflowId
      timestamp, ssrc
      payload := ext.payloadoffset
      payloadlength := payloadlength.toNat
      extid := ext.extid
      extension := ext.extension
      extensionlength := ext.extensionlength }

/-- `rtp_packet::parse_packet`: the packet, or the error code. -/
def parsePacket (raw : RawPacket) : ByteReader (Except ℤ RtpPacket) := do
  if raw.isrtcp then
    return .error (-2)
  if raw.dataLen < sizeofRtpHeader then
    return .error (-3)
  let b0 ← .byte 0
  if versionOf b0 ≠ rtpVersion then
    return .error (-4)
  let b1 ← .byte 1
  -- the marker bit is the high bit of the RTCP packet type
  if markerOf b1 ≠ 0 ∧ (payloadtypeOf b1 = 72 ∨ payloadtypeOf b1 = 73) then
    return .error (-5)
  let numpadbytes ← parsePadding raw b0
  if paddingOf b0 ≠ 0 ∧ numpadbytes = 0 then
    return .error (-6)
  let ext ← parseExtension b0 (sizeofRtpHeader + csrccountOf b0 * 4)
  parsePayload raw b0 b1 numpadbytes ext

namespace RtpPacket

/-- The constructor `rtp_packet(rawpack)` with `get_error`. -/
def parse (raw : RawPacket) : Except ℤ RtpPacket := (parsePacket raw).eval raw.mem

/-- `get_sequence_number`. -/
def sequenceNumber (p : RtpPacket) : UInt16 := p.extseqnr.toUInt16

/-- `get_subflow_sequence_number`. -/
def subflowSequenceNumber (p : RtpPacket) : UInt16 := p.subflowExtseqnr.toUInt16

/-- `get_csrc_count`. -/
def csrcCount (p : RtpPacket) : ℕ := p.numcsrcs

/-- `get_csrc`. -/
def csrc (p : RtpPacket) (num : ℕ) : UInt32 := be32 p.rawpack.mem (sizeofRtpHeader + num * 4)

/-- As many bytes as `get_payload_length` says, from `get_payload_data` on. -/
def payloadData (p : RtpPacket) : List UInt8 :=
  (List.range p.payloadlength).map fun i => p.rawpack.mem (p.payload + i)

/-- `is_mprtp_packet`. -/
def isMprtpPacket (p : RtpPacket) : Bool := p.hasextension && p.extid == mprtpExtensionId

/-- `recvtime`. -/
def recvtime (p : RtpPacket) : RtpTime := p.rawpack.recvtime

/-- `get_from_address`. -/
def fromAddress (p : RtpPacket) : Endpoint := p.rawpack.fromAddr

end RtpPacket

end Mprtp
