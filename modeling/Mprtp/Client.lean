import Mprtp.Address
import Mprtp.Lib.Critical
import Mprtp.Sender

/-! The example client: what it sets up from its options, and the two threads that share its sender. -/
namespace Mprtp

/-- The threads that use the sender. -/
inductive ClientThread where
  | main
  | poll
  deriving DecidableEq

namespace Client

/-- An option that `getopt` returns, its argument as `atoi` or `create_endpoint` reads it. -/
inductive Opt where
  | p (port : ℤ)
  | s (port : ℤ)
  | i (addr : UInt32)
  | r (addr : UInt32)
  | unknown

structure Options where
  localIfaces : List UInt32 := []
  remoteIfaces : List UInt32 := []
  localPort : UInt16 := portClientBase
  remotePort : UInt16 := portServerBase

/-- The body of the loop over the options; `none` when `usage` ends the program. -/
def readOpt (o : Options) : Opt → Option Options
  | .p port => some { o with localPort := UInt16.ofInt port }
  | .s port => some { o with remotePort := UInt16.ofInt port }
  | .i addr => some { o with localIfaces := o.localIfaces ++ [addr] }
  | .r addr => some { o with remoteIfaces := o.remoteIfaces ++ [addr] }
  | .unknown => none

def readOpts (opts : List Opt) : Option Options := do
  let o ← opts.foldlM readOpt {}
  if o.localIfaces = [] ∨ o.remoteIfaces = [] then none else some o

/-- `my_sender::is_path_valid`. -/
def isPathValid (addr remote : Endpoint) : Bool := inSameSubnet addr remote 24 = some true

/-- A call of the sender with the sender it meets, or what the call does. -/
abbrev Entry := (Sender × Sender.Step) ⊕ SenderEvent

/-- A call of the client's sender. -/
def call : Sender → Sender.Step → Exec Entry Sender := noting (Sender.step isPathValid)

/-- `main` up to the result of `connect`; `opened` tells which of the interfaces could be opened. -/
def setUp (o : Options) (opened : ℕ → Bool) (w : World) : Exec Entry (Bool × Sender) := do
  let added := (endpoints o.localIfaces o.localPort).zipIdx.map fun p => .addInterface p.1 (opened p.2)
  let s ← added.foldlM call (Sender.new (1 / 1000) w)
  let dest := endpoints o.remoteIfaces o.remotePort
  Exec.tell (.inl (s, .connect 0xDEAD dest))
  return s.connect isPathValid 0xDEAD dest

/-- Where `main` is behind `connect`. -/
inductive MainAt where
  | reading
  /-- from `sync.lock` to `sync.unlock`, with a line to send -/
  | sending (buff : List UInt8)
  | joining
  | returned
  deriving DecidableEq

/-- Where the polling thread is. -/
inductive PollAt where
  | testing
  /-- from `sync.lock` to `sync.unlock` -/
  | polling
  | sleeping
  | finished
  deriving DecidableEq

/-- Where the handler of SIGINT is. It runs in the thread of `main`. -/
inductive HandlerAt where
  | idle
  | joining
  | exited
  /-- `main` and its handler have joined the same thread -/
  | undefined
  deriving DecidableEq

end Client

/-- The client while its threads run. -/
structure Client where
  cli : Locked ClientThread Client.Entry Sender
  /-- the lines that `std::getline` has not read yet -/
  input : List (List UInt8)
  main : Client.MainAt := .reading
  poll : Client.PollAt := .testing
  handler : Client.HandlerAt := .idle
  stopClient : Bool := false

namespace Client

/-- The threads start when `connect` has returned true. -/
def start (o : Options) (opened : ℕ → Bool) (w : World) (lines : List (List UInt8)) : Option Client :=
  match (setUp o opened w).res with
  | some (true, s) => some { cli := { obj := s }, input := lines }
  | _ => none

/-- The next step of `main`; `ret` is what the socket returns when it sends. -/
def stepMain (c : Client) (ret : ℤ) : Option Client :=
  match c.main with
  | .reading =>
    match c.input with
    | [] => some { c with main := .joining }
    | buff :: input => some { c with main := if buff = [] then .joining else .sending buff, input }
  | .sending buff => do
    let cli ← c.cli.next call .main (.sendData buff ret)
    match cli.stage .main with
    | .outside => some { c with cli, main := .reading }
    | _ => some { c with cli }
  | .joining => if c.poll = .finished then some { c with main := .returned } else none
  | .returned => none

/-- The next step of the polling thread. -/
def stepPoll (c : Client) (fuel : ℕ) (io : PollInput) : Option Client :=
  match c.poll with
  | .testing => some { c with poll := if c.stopClient then .finished else .polling }
  | .polling => do
    let cli ← c.cli.next call .poll (.poll fuel io)
    match cli.stage .poll with
    | .outside => some { c with cli, poll := .sleeping }
    | _ => some { c with cli }
  | .sleeping => some { c with poll := .testing }
  | .finished => none

/-- `signalHandler` is called in the middle of `main`. -/
def interrupt (c : Client) : Option Client :=
  match c.main with
  | .returned => none
  | .joining => some { c with stopClient := true, handler := .undefined }
  | _ => some { c with stopClient := true, handler := .joining }

/-- What may happen next. -/
inductive Event where
  | main (ret : ℤ)
  | poll (fuel : ℕ) (io : PollInput)
  | interrupt

/-- While the handler runs, `main` does not; a second signal waits for the handler to return. -/
def step (c : Client) (e : Event) : Option Client :=
  match c.handler, e with
  | .idle, .main ret => c.stepMain ret
  | .idle, .interrupt => c.interrupt
  | .joining, .main _ => if c.poll = .finished then some { c with handler := .exited } else none
  | .joining, .interrupt => none
  | .exited, _ | .undefined, _ => none
  | _, .poll fuel io => c.stepPoll fuel io

end Client

end Mprtp
