import Mprtp.Lib.Wrap
import Mprtp.Source.Packets

/-! The lost packets of a report when more packets came than were expected. -/
namespace Mprtp

/-- Among the numbers of 24 bits with a sign, the 24 bits alone are enough for those from 0 on. -/
theorem ofInt_mod24_eq_iff {k : ℤ} (hlo : -2 ^ 23 ≤ k) (hhi : k < 2 ^ 23) :
    UInt32.ofInt k % 0x1000000 = UInt32.ofInt k ↔ 0 ≤ k := by
  have hk := UInt32.toNat_ofInt k
  have hcut : (UInt32.ofInt k % 0x1000000).toNat = (UInt32.ofInt k).toNat % 2 ^ 24 := rfl
  rw [← UInt32.toNat_inj, hcut]
  omega

variable {st : SourceStats} {k : ℤ} {m : ℕ → UInt8} {p : ℕ}

/-- The receiver of a report takes its 24 bits without their sign, so it has the number of lost packets
where this is not negative. -/
theorem parse_packetslost_eq_iff (hlo : -2 ^ 23 ≤ k) (hhi : k < 2 ^ 23)
    (hk : st.packlost = UInt32.ofInt k) (ssrc : UInt32) (sr : Option RtcpSrPacket) (w : World)
    (h : BytesAt m p (st.fillReceiverReport ssrc sr w).1.bytes) (recvFrom : Endpoint)
    (recvtime : RtpTime) :
    ((RtcpRrPacket.parse recvFrom recvtime p).eval m).packetslost = st.packlost ↔ 0 ≤ k := by
  rw [RtcpRrPacket.parse_eval, Source.rrAt_bytes w h]
  change st.packlost % 0x1000000 = st.packlost ↔ 0 ≤ k
  rw [hk]
  exact ofInt_mod24_eq_iff hlo hhi

/-- A stream from number 100 on, of which `n` packets came, with `high` as the highest number. -/
def countedStats (high n : UInt32) : SourceStats :=
  { receivedData := true, packetsReceived := n, baseseqnr := 99, exthighseqnr := high,
    numNewPackets := n, savedExtSeqnr := 99 }

def countedBytes (high n : UInt32) : List UInt8 :=
  ((countedStats high n).fillReceiverReport 1 none (.ticking 1000)).1.bytes

def countedReport (high n : UInt32) : RtcpRrPacket :=
  (RtcpRrPacket.parse ⟨0x0A000001, 23001⟩ 1001 0).eval (alone (countedBytes high n))

theorem lostPackets_parsed : (countedReport 109 3).packetslost = (countedStats 109 3).packlost :=
  (parse_packetslost_eq_iff (k := 7) (by decide) (by decide) (by decide) 1 none (.ticking 1000)
    (bytesAt_memOf (countedBytes 109 3) fun _ => 0) ⟨0x0A000001, 23001⟩ 1001).2 (by decide)

/-- A packet came twice: the report has lost -1 packets, its receiver reads 2^24 - 1. -/
theorem copiedPacket_parsed : (countedStats 100 2).packlost = UInt32.ofInt (-1) ∧
    (countedReport 100 2).packetslost = 0xFFFFFF ∧
    (countedReport 100 2).packetslost ≠ (countedStats 100 2).packlost := by
  decide +kernel

end Mprtp
