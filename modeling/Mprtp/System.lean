import Mprtp.Receiver
import Mprtp.Sender

/-! One sender, one receiver and the network between them, which may lose, delay, reorder and
duplicate datagrams. -/
namespace Mprtp

structure System where
  sender : Sender
  receiver : Receiver

/-- What the two ends do, in the order in which it happens. -/
inductive SystemEvent where
  | sender (e : SenderEvent)
  | receiver (e : ReceiverEvent)

/-- The largest payload of a UDP datagram over IPv4. -/
def maxUdpPayload : ℕ := 65507

namespace System

/-- One of the two ends takes a step. -/
inductive Step where
  | sender (e : Sender.Step)
  | receiver (e : Receiver.Step)

def step (isPathValid : Endpoint → Endpoint → Bool) (s : System) : Step → Exec SystemEvent System
  | .sender e => do
    let sender ← (Sender.step isPathValid s.sender e).mapLog .sender
    return { s with sender }
  | .receiver e => do
    let receiver ← (Receiver.step s.receiver e).mapLog .receiver
    return { s with receiver }

/-- Two ends that have done nothing yet. -/
def new (senderUnit receiverUnit : ℚ) (ssrc : UInt32) (w w' : World) : System where
  sender := Sender.new senderUnit w
  receiver := Receiver.new receiverUnit ssrc w'

end System

def SystemEvent.bySender? : SystemEvent → Option OutDatagram
  | .sender (.sent _ out) => some out
  | _ => none

def SystemEvent.byReceiver? : SystemEvent → Option OutDatagram
  | .receiver (.sent _ out) => some out
  | _ => none

/-- The datagrams that the sender has handed to its sockets. -/
def sentBySender (H : List SystemEvent) : List OutDatagram := H.filterMap SystemEvent.bySender?

/-- The datagrams that the receiver has handed to its sockets. -/
def sentByReceiver (H : List SystemEvent) : List OutDatagram := H.filterMap SystemEvent.byReceiver?

/-- The datagrams that a poll meets have all been sent; they may be on any socket, at any time and
any number of times. -/
def Delivers (sent : List OutDatagram) (io : PollInput) : Prop :=
  ∀ i rtcp a, some a ∈ (io i rtcp).recvd →
    a.data.length ≤ maxUdpPayload ∧ ∃ out ∈ sent, out.data = a.data

/-- An end receives what the other end has sent. -/
def System.Network (H : List SystemEvent) (_ : System) : Step → Prop
  | .sender (.poll _ io) => Delivers (sentByReceiver H) io
  | .receiver (.poll _ io) => Delivers (sentBySender H) io
  | _ => True

/-- The socket takes the datagram of `send_data`, which has 24 bytes in front of the data. -/
def System.Step.Succeeds : Step → Prop
  | .sender (.sendData data ret) => ret = 24 + data.length
  | _ => True

/-- The index of the subflow on which an RTP packet is handed to a socket. -/
def SystemEvent.rtpOn? : SystemEvent → Option ℕ
  | .sender (.sent k out) => if out.rtcp then none else some k
  | _ => none

/-- The number of RTP packets that the sender has handed to the socket of the subflow at `k`. -/
def sentOn (k : ℕ) (H : List SystemEvent) : ℕ := (H.filterMap SystemEvent.rtpOn?).count k

end Mprtp
