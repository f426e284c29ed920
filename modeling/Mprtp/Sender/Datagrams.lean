import Mprtp.Sender.Reports
import Mprtp.Sender.Steps
import Mprtp.Sender.Wire

/-! The datagrams of `send_data`, with what a receiver makes of them. -/
namespace Mprtp

namespace SenderData

variable (d : SenderData) (w : World) (data : List UInt8) (ret : ℤ)

/-- `send_data` sends one datagram, with the next numbers and the time of the sender. -/
theorem sendData_sent {k : ℕ} {out : OutDatagram} (hsent : .sent k out ∈ (d.sendData w data ret).log) :
    ∃ sf, d.subflows[k]? = some sf ∧ out.data = rtpBytes d.sequesnceNumber
      (d.stamped (d.selectSubflow w).2).timestamp d.ssrc sf.subflowId sf.sequesnceNumber data := by
  have htimestamp : (d.numbered w).1.timestamp = (d.stamped (d.selectSubflow w).2).timestamp := by
    unfold numbered stamped getNextTimestamp
    dsimp only
    split <;> rfl
  rcases d.sendData_eq w data ret with hres | ⟨j, sf, -, hsf, hres⟩
  · rw [hres] at hsent
    cases hsent
  · rw [hres] at hsent
    cases List.mem_singleton.mp hsent
    refine ⟨sf, hsf, ?_⟩
    rw [← htimestamp]
    rfl

end SenderData

end Mprtp
