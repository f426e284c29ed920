import Mprtp.Sender.Bitrates
import Mprtp.Sender
import Mprtp.Lib.Since

/-! What the log of a sender says about its estimates: the reports that made it compute bitrates
and the seconds for which it measured the stream bitrate. -/
namespace Mprtp

/-- A report that makes `process_rr_packet` compute the bitrates of the subflow at an index, with
the subflow and its last report as they are then. -/
structure Measured where
  subflow : ℕ
  sf : Subflow
  last : RtcpRrPacket
  pkt : RtcpRrPacket

/-- The bitrates that a report on a subflow makes a sender compute. -/
def SenderData.measured? (d : SenderData) (pkt : RtcpRrPacket) (subflowId : UInt16) :
    Option Measured := do
  guard (subflowId ≠ 0)
  let k ← d.subflows.findIdx? fun sf => sf.subflowId = subflowId
  let sf ← d.subflows[k]?
  let last ← sf.lastReceiverReport
  guard (sf.packetCountTt > 0)
  return ⟨k, sf, last, pkt⟩

def SenderEvent.measured? : SenderEvent → Option Measured
  | .visit d (.rtcp (.rr pkt subflowId _) _) => d.measured? pkt subflowId
  | _ => none

/-- The bytes of a second for which `poll` calculates the stream bitrate. -/
def SenderEvent.second? : SenderEvent → Option UInt32
  | .measure d curtime => if d.sbTime ≠ 0 ∧ d.sbTime + 1 ≤ curtime then some d.sbSize else none
  | _ => none

def SenderEvent.recalc? : SenderEvent → Option (SenderData × List ExtRat)
  | .recalc d divisors => some (d, divisors)
  | _ => none

theorem SenderEvent.eq_recalc {e : SenderEvent} {d : SenderData} {divisors : List ExtRat}
    (h : e.recalc? = some (d, divisors)) : e = .recalc d divisors := by
  cases e with
  | recalc d' divisors' =>
    cases h
    rfl
  | _ => cases h

/-- A report on the subflow at `k` has shown progress, and every later one that reported loss has
shown progress as well. -/
def Live (k : ℕ) (H : List SenderEvent) : Prop :=
  Since (fun e => ∃ m, e.measured? = some m ∧ m.subflow = k ∧ m.sf.Progress m.last m.pkt)
    (fun e => ∀ m, e.measured? = some m → m.subflow = k → m.pkt.fractionlost = 0) H

/-- The stream bitrate was last calculated for a second in which no bytes were counted. -/
def Idle (H : List SenderEvent) : Prop :=
  Since (fun e => e.second? = some 0) (fun e => e.second? = none) H

section

variable {H : List SenderEvent} {e : SenderEvent} {k : ℕ}

theorem live_concat_of_not_measured (h : ∀ m, e.measured? = some m → m.subflow ≠ k) :
    Live k (H ++ [e]) ↔ Live k H := by
  unfold Live
  apply since_concat_of_neither
  · intro h'
    obtain ⟨m, hm, hk, -⟩ := h'
    exact h m hm hk
  · intro m hm hk
    exact absurd hk (h m hm)

theorem live_concat_of_measured {m : Measured} (hm : e.measured? = some m) (hk : m.subflow = k) :
    Live k (H ++ [e]) ↔
      m.sf.Progress m.last m.pkt ∨ m.pkt.fractionlost = 0 ∧ Live k H := by
  unfold Live
  rw [since_concat, hm]
  simp only [Option.some.injEq, exists_eq_left', forall_eq', hk, true_and, true_implies]

theorem idle_concat_of_none (h : e.second? = none) : Idle (H ++ [e]) ↔ Idle H := by
  unfold Idle
  rw [since_concat, h]
  simp

theorem idle_concat_of_some {n : UInt32} (h : e.second? = some n) : Idle (H ++ [e]) ↔ n = 0 := by
  unfold Idle
  rw [since_concat, h]
  simp

end

end Mprtp
