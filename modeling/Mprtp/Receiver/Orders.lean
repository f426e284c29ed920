import Mprtp.Lib.Independent
import Mprtp.Receiver.Stats

/-! RTP packets handled in different orders. -/
namespace Mprtp

/-- The pair of SSRC and subflow id that a packet belongs to. -/
def RtpPacket.flow (pkt : RtpPacket) : UInt32 × UInt16 := (pkt.ssrc, pkt.subflowId)

namespace Receiver

/-- An RTP packet that came in on an interface is handled. -/
def handleRtp (r : Receiver) (arrived : RtpPacket × ℕ) : Receiver :=
  r.handle receiverHandlers (.rtp arrived.1 arrived.2)

/-- The data of a receiver, whose sources have distinct SSRCs. -/
structure WellOrdered (timestampUnit : ℚ) (r : Receiver) : Prop where
  ordered : Keyed.Ordered Source.key r.obj.sources
  timestampUnit : r.obj.timestampUnit = timestampUnit

/-- A subflow that is new starts with empty statistics. -/
def received (timestampUnit : ℚ) (stat : Option SourceStats) (arrived : RtpPacket × ℕ) :
    Option SourceStats :=
  some ((stat.getD {}).processPacket arrived.1 true timestampUnit).1

theorem handleRtp_findStat {r : Receiver} (h : Keyed.Ordered Source.key r.obj.sources)
    (arrived : RtpPacket × ℕ) (ssrc : UInt32) (id : UInt16) :
    (r.handleRtp arrived).obj.findStat ssrc id = if (ssrc, id) = arrived.1.flow then
      received r.obj.timestampUnit (r.obj.findStat ssrc id) arrived else r.obj.findStat ssrc id := by
  have hstat := ReceiverData.onRtpPacket_findStat h r.world arrived.1 arrived.2 ssrc id
  unfold RtpPacket.flow
  simp only [Prod.mk.injEq]
  exact hstat

theorem independent (timestampUnit : ℚ) :
    Independent (WellOrdered timestampUnit) handleRtp (fun arrived => arrived.1.flow)
      (fun flow r => r.obj.findStat flow.1 flow.2) (received timestampUnit) where
  kept := fun r arrived h => ⟨h.ordered.insert _, h.timestampUnit⟩
  own := by
    intro r arrived h
    rw [handleRtp_findStat h.ordered, if_pos rfl, h.timestampUnit]
  other := by
    intro r arrived flow h hne
    rw [handleRtp_findStat h.ordered, if_neg hne]

/-- Two orders of packets that agree within each subflow of each SSRC: from every reachable state
they lead to the same statistics of every subflow. -/
theorem findStat_of_orders {timestampUnit : ℚ} {ssrc : UInt32} {w : World}
    {H : List ReceiverEvent} {r : Receiver}
    (hrun : Run step (fun _ _ _ => True) (new timestampUnit ssrc w) H (some r))
    {packs packs' : List (RtpPacket × ℕ)}
    (hsame : ∀ flow, packs.filter (fun p => p.1.flow = flow) = packs'.filter fun p => p.1.flow = flow)
    (s : UInt32) (id : UInt16) :
    (packs.foldl handleRtp r).obj.findStat s id = (packs'.foldl handleRtp r).obj.findStat s id := by
  have hordered : WellOrdered r.obj.timestampUnit r := ⟨(run_invariant hrun rfl).follows.ordered, rfl⟩
  exact (independent r.obj.timestampUnit).foldl_congr (k := (s, id)) hordered (hsame (s, id))

/-- Neighbours of different subflows may change places. -/
theorem filter_swap {a b : RtpPacket × ℕ} (hne : a.1.flow ≠ b.1.flow) (packs : List (RtpPacket × ℕ))
    (flow : UInt32 × UInt16) : (a :: b :: packs).filter (fun p => p.1.flow = flow) =
      (b :: a :: packs).filter fun p => p.1.flow = flow := by
  by_cases ha : a.1.flow = flow
  · have hb : ¬ b.1.flow = flow := fun hb => hne (ha.trans hb.symm)
    simp [ha, hb]
  · simp [List.filter_cons, ha]

/-- The packet with the number `seq` of a subflow, on the first interface. -/
def onSubflow (id : UInt16) (seq : UInt32) : RtpPacket × ℕ :=
  ({ SourceStats.plainPacket 7 with subflowId := id, subflowExtseqnr := seq }, 0)

/-- The packets of subflow 1, whose numbers wrap, with one of subflow 2 in between or in front. -/
theorem findStat_of_overtaken :
    let r := [onSubflow 1 65535, onSubflow 2 7, onSubflow 1 0].foldl handleRtp (new 1 1 (.ticking 1000))
    let r' := [onSubflow 2 7, onSubflow 1 65535, onSubflow 1 0].foldl handleRtp (new 1 1 (.ticking 1000))
    r.obj.findStat 0xDEAD 1 = r'.obj.findStat 0xDEAD 1 ∧
      (r.obj.findStat 0xDEAD 1).map SourceStats.exthighseqnr = some 65536 :=
  ⟨findStat_of_orders .nil (filter_swap (by decide) _) 0xDEAD 1, by decide +kernel⟩

end Receiver

end Mprtp
