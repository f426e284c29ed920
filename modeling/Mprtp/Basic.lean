import Mathlib.Data.Rat.Floor
import Mprtp.Lib.Endian

/-! The wire constants, addresses and times shared by both ends, and the world the
library runs in. Times are exact seconds: the source's doubles are rationals here. -/
namespace Mprtp

/-! Packet and block types, as in `mprtp_defines.h`. -/

def rtpVersion : ℕ := 2
def rtcpTypeSr : UInt8 := 200
def rtcpTypeRr : UInt8 := 201
def rtcpTypeMprtp : UInt8 := 211
def mprtpExtensionId : UInt16 := 0xBEDE
def mprtcpTypeSubflow : UInt8 := 0

/-- `MAX_PACKET_SIZE`, also `MAXPACKSIZE` of the sender. -/
def maxPacketSize : ℕ := 65535

/-! Sizes of the packed structures of `mprtp_struct.h`. -/

def sizeofRtpHeader : ℕ := 12
def sizeofRtpExtensionHeader : ℕ := 4
def sizeofRtcpCommonHeader : ℕ := 4
def sizeofRtpSourceIdentifier : ℕ := 4
def sizeofRtcpReceiverReport : ℕ := 24
def sizeofMprtpRtcp : ℕ := 2

/-- `endpoint`: an IPv4 address and a port. -/
structure Endpoint where
  ip : UInt32
  port : UInt16
  deriving DecidableEq

/-- `rtp_time`. -/
abbrev RtpTime := ℚ

/-- The conversion of a double to `uint32_t`: truncation, the value cut to 32 bits. -/
def truncU32 (x : ℚ) : UInt32 := UInt32.ofInt (if 0 ≤ x then ⌊x⌋ else ⌈x⌉)

/-- `rtp_time::get_seconds`. -/
def getSeconds (t : RtpTime) : ℤ := if 0 ≤ t then ⌊t⌋ else ⌈t⌉

structure RtpNtpTime where
  msw : UInt32
  lsw : UInt32
  deriving DecidableEq

def rtpNtpTimeOffset : UInt32 := 2208988800

/-- `rtp_time::get_ntp_time`. -/
def getNtpTime (t : RtpTime) : RtpNtpTime :=
  let sec := truncU32 t
  let microsec := truncU32 ((t - sec.toNat) * 1000000)
  { msw := sec + rtpNtpTimeOffset
    lsw := truncU32 ((microsec.toNat : ℚ) / 1000000 * (65536 * 65536)) }

/-- What the library takes from outside: the clock readings and random draws still to come,
and the byte that this machine makes of a NaN. -/
structure World where
  clock : ℕ → RtpTime
  rand : ℕ → ℕ
  nanByte : UInt8

namespace World

/-- The next reading of `rtp_time::now`. -/
def now (w : World) : RtpTime := w.clock 0

def tick (w : World) : World := { w with clock := fun n => w.clock (n + 1) }

/-- The next value of `rand`. -/
def draw (w : World) : ℕ := w.rand 0

def drawn (w : World) : World := { w with rand := fun n => w.rand (n + 1) }

/-- A world whose clock goes on by a second with each reading and whose draws are all 0. -/
def ticking (start : RtpTime) : World := ⟨fun n => start + n, fun _ => 0, 0⟩

end World

end Mprtp
