import Mprtp.Rtcp

/-! A local interface: its two sockets and the queue of datagrams received on them. -/
namespace Mprtp

/-- `interface`. Only interfaces whose sockets `open` has bound are kept by a session, so the
sockets themselves are left out. -/
structure Interface where
  ip : UInt32
  rtpPort : UInt16
  rtcpPort : UInt16
  suspended : Bool := false
  packets : List RawPacket := []

/-- A datagram handed to a socket: the interface, the socket, the destination. -/
structure OutDatagram where
  iface : ℕ
  rtcp : Bool
  dest : Endpoint
  data : List UInt8
  deriving DecidableEq

/-- A datagram that `recvfrom` delivers. -/
structure Arrival where
  data : List UInt8
  beyond : ℕ → UInt8
  fromAddr : Endpoint

/-- What one call of `interface::poll` meets: the results of its `recvfrom` calls, `none` for a
call that returns nothing, and the status of the last `poll` of the socket. -/
structure PollOutcome where
  recvd : List (Option Arrival) := []
  status : ℤ := 0

namespace Interface

def new (ep : Endpoint) : Interface where
  ip := ep.ip
  rtpPort := ep.port
  rtcpPort := ep.port + 1

def getAddress (f : Interface) : Endpoint := ⟨f.ip, f.rtpPort⟩

/-- `interface::sendto`: the datagram it hands to the socket. An RTCP datagram goes to the port
behind the one of the address. -/
def sendto (iface : ℕ) (data : List UInt8) (addr : Endpoint) (rtcp : Bool) : OutDatagram where
  iface := iface
  rtcp := rtcp
  dest := if rtcp then ⟨addr.ip, addr.port + 1⟩ else addr
  data := data

/-- The body of the loop of `interface::poll`: one datagram read, at the clock's next time. -/
def receive (rtcp : Bool) (f : Interface) (w : World) : Option Arrival → Interface × World
  | none => (f, w.tick)
  | some a =>
    if a.data = [] then (f, w.tick)
    else
      let pkt : RawPacket :=
        { data := a.data.take maxPacketSize, beyond := a.beyond, fromAddr := a.fromAddr
          isrtcp := rtcp, recvtime := w.now }
      ({ f with packets := f.packets ++ [pkt] }, w.tick)

/-- `interface::poll`. -/
def poll (rtcp : Bool) (io : PollOutcome) (f : Interface) (w : World) : Interface × World × ℤ :=
  let (f, w) := io.recvd.foldl (fun fw a => receive rtcp fw.1 fw.2 a) (f, w)
  (f, w, io.status)

end Interface

end Mprtp
