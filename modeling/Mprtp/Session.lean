import Mprtp.Interface
import Mprtp.Lib.Exec

/-! `session`: polling the interfaces and handing what they received to the virtual handlers of
the derived class, whose object is the type `σ`. -/
namespace Mprtp

/-- A call of a handler; `iface` is the index of the interface the datagram came in on. -/
inductive Call where
  | rtp (pkt : RtpPacket) (iface : ℕ)
  | rtcp (call : RtcpCall) (iface : ℕ)

/-- The virtual handlers of a class derived from `session`, and the log entry that records a
call together with the object it was made on. -/
structure Handlers (σ ω : Type) where
  onRtpPacket : σ → World → RtpPacket → ℕ → Bool × RtpPacket × σ × World
  onRtcpSrPacket : σ → World → RtcpSrPacket → UInt16 → ℕ → σ × World
  onRtcpRrPacket : σ → World → RtcpRrPacket → UInt16 → UInt32 → ℕ → σ × World
  visit : σ → Call → ω

/-- `session`, with the derived object. -/
structure Session (σ : Type) where
  interfaces : List Interface := []
  packets : List RtpPacket := []
  obj : σ
  world : World

/-- What a poll meets on the RTP (`false`) and RTCP (`true`) sockets of each interface. -/
abbrev PollInput := ℕ → Bool → PollOutcome

/-- Datagrams from one address on one socket of the first interface. -/
def PollInput.arrive (rtcp : Bool) (fromAddr : Endpoint) (datagrams : List (List UInt8)) : PollInput :=
  fun i b =>
    if i = 0 ∧ b = rtcp then
      { recvd := datagrams.map fun data => some ⟨data, fun _ => 0, fromAddr⟩ }
    else {}

namespace Session

variable {σ ω : Type} (h : Handlers σ ω)

/-- `add_interface`, with the result of `open`. -/
def addInterface (s : Session σ) (addr : Endpoint) (opened : Bool) : Session σ :=
  if opened then { s with interfaces := s.interfaces ++ [Interface.new addr] } else s

/-- The loop of `suspend_interface`: the first interface with the address. -/
def suspendFirst (addr : Endpoint) (suspend : Bool) : List Interface → List Interface × Bool
  | [] => ([], false)
  | f :: fs =>
    if addr = f.getAddress then ({ f with suspended := suspend } :: fs, true)
    else
      let (fs, found) := suspendFirst addr suspend fs
      (f :: fs, found)

/-- `suspend_interface`. -/
def suspendInterface (s : Session σ) (addr : Endpoint) (suspend : Bool) : Session σ × Bool :=
  let (interfaces, found) := suspendFirst addr suspend s.interfaces
  ({ s with interfaces }, found)

/-- `fetch_packet`. -/
def fetchPacket (s : Session σ) : Option RtpPacket × Session σ :=
  match s.packets with
  | [] => (none, s)
  | p :: ps => (some p, { s with packets := ps })

/-- The first loop of `session::poll`, from the interface with index `i` on. -/
def pollInterfaces (io : PollInput) : ℕ → List Interface → World → List Interface × World × ℤ
  | _, [], w => ([], w, 0)
  | i, f :: fs, w =>
    let (f, w, status) := f.poll false (io i false) w
    if status < 0 then (f :: fs, w, status)
    else
      let (f, w, status) := f.poll true (io i true) w
      if status < 0 then (f :: fs, w, status)
      else
        let (fs, w, status) := pollInterfaces io (i + 1) fs w
        (f :: fs, w, status)

/-- One handler call; a packet that `on_rtp_packet` keeps joins the queue of the session. -/
def handle (s : Session σ) : Call → Session σ
  | .rtp pkt i =>
    let (keep, pkt, obj, world) := h.onRtpPacket s.obj s.world pkt i
    { s with packets := if keep then s.packets ++ [pkt] else s.packets, obj, world }
  | .rtcp (.sr pkt subflowId) i =>
    let (obj, world) := h.onRtcpSrPacket s.obj s.world pkt subflowId i
    { s with obj, world }
  | .rtcp (.rr pkt subflowId senderSsrc) i =>
    let (obj, world) := h.onRtcpRrPacket s.obj s.world pkt subflowId senderSsrc i
    { s with obj, world }

/-- Log a handler call and make it. -/
def call (s : Session σ) (c : Call) : Exec ω (Session σ) := do
  Exec.tell (h.visit s.obj c)
  return s.handle h c

/-- `session::process_rtp_packet`. -/
def processRtpPacket (i : ℕ) (s : Session σ) (pkt : RawPacket) : Exec ω (Session σ) :=
  match RtpPacket.parse pkt with
  | .error _ => pure s
  | .ok p => s.call h (.rtp p i)

/-- `session::process_rtcp_packet` with the handlers it calls; a walk that does not end leaves
the poll stuck. -/
def processRtcpPacket (fuel i : ℕ) (s : Session σ) (pkt : RawPacket) : Exec ω (Session σ) := do
  let (calls, done) := pkt.rtcpCalls fuel
  let s ← calls.foldlM (fun s c => s.call h (.rtcp c i)) s
  if done then return s else Exec.stuck []

/-- The body of the second loop of `session::poll`. -/
def processRawPacket (fuel i : ℕ) (s : Session σ) (pkt : RawPacket) : Exec ω (Session σ) :=
  if pkt.isrtcp then s.processRtcpPacket h fuel i pkt else s.processRtpPacket h i pkt

/-- The second loop of `session::poll` for one interface: its queue is emptied. -/
def drain (fuel : ℕ) (s : Session σ) (i : ℕ) : Exec ω (Session σ) :=
  match s.interfaces[i]? with
  | none => pure s
  | some f =>
    f.packets.foldlM (fun s pkt => s.processRawPacket h fuel i pkt)
      { s with interfaces := s.interfaces.set i { f with packets := [] } }

/-- `session::poll`: the session and the returned status. -/
def poll (fuel : ℕ) (io : PollInput) (s : Session σ) : Exec ω (Session σ × ℤ) := do
  let (interfaces, world, status) := pollInterfaces io 0 s.interfaces s.world
  let s := { s with interfaces, world }
  if status < 0 then
    return (s, status)
  let s ← (List.range interfaces.length).foldlM (fun s i => s.drain h fuel i) s
  return (s, 0)

/-- The constructor. -/
def new (w : World) : Session Unit := { obj := (), world := w }

/-- The calls that the application makes. -/
inductive Step where
  | addInterface (addr : Endpoint) (opened : Bool)
  | suspendInterface (addr : Endpoint) (suspend : Bool)
  | poll (fuel : ℕ) (io : PollInput)
  | fetchPacket

end Session

/-- The handlers of `session` itself. -/
def sessionHandlers : Handlers Unit Call where
  onRtpPacket _ w pkt _ := (true, pkt, (), w)
  onRtcpSrPacket _ w _ _ _ := ((), w)
  onRtcpRrPacket _ w _ _ _ _ := ((), w)
  visit _ c := c

def Session.step (s : Session Unit) : Session.Step → Exec Call (Session Unit)
  | .addInterface addr opened => pure (s.addInterface addr opened)
  | .suspendInterface addr suspend => pure (s.suspendInterface addr suspend).1
  | .poll fuel io => do
    let (s, _) ← s.poll sessionHandlers fuel io
    return s
  | .fetchPacket => pure s.fetchPacket.2

end Mprtp
