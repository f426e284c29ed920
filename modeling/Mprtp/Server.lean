import Mprtp.Address
import Mprtp.Receiver

/-! What the example server sets up from its options. -/
namespace Mprtp

namespace Server

/-- An option that `getopt` returns, its argument as `atoi` or `create_endpoint` reads it. -/
inductive Opt where
  | p (port : ℤ)
  | i (addr : UInt32)
  | unknown

structure Options where
  ifaces : List UInt32 := []
  port : UInt16 := portServerBase

/-- The body of the loop over the options; `none` when `usage` ends the program. -/
def readOpt (o : Options) : Opt → Option Options
  | .p port => some { o with port := UInt16.ofInt port }
  | .i addr => some { o with ifaces := o.ifaces ++ [addr] }
  | .unknown => none

def readOpts (opts : List Opt) : Option Options := do
  let o ← opts.foldlM readOpt {}
  if o.ifaces = [] then none else some o

/-- `main` up to its last loop; `opened` tells which of the interfaces could be opened. -/
def setUp (o : Options) (opened : ℕ → Bool) (w : World) : Exec ReceiverEvent Receiver :=
  ((endpoints o.ifaces o.port).zipIdx.map fun p => .addInterface p.1 (opened p.2)).foldlM Receiver.step
    (Receiver.new (1 / 1000) 0xBEAF w)

end Server

end Mprtp
