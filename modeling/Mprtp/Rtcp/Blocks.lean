import Mprtp.Rtcp.Decode

/-! The report blocks of a receiver report, against those of a sender report that carries the same
ones. -/
namespace Mprtp

open ByteReader

section

variable {m m' : ℕ → UInt8} {recvFrom : Endpoint} {recvtime : RtpTime} {p q : ℕ}

/-- A report block has all its 24 bytes in its fields. -/
theorem rrAt_inj : rrAt m recvFrom recvtime p = rrAt m' recvFrom recvtime q ↔
    ∀ k < 24, m (p + k) = m' (q + k) := by
  unfold rrAt
  simp only [RtcpRrPacket.mk.injEq, be32_inj, or24_inj, true_and]
  constructor
  · intro h
    obtain ⟨hssrc, hfraction, ⟨hlost2, hlost1, hlost0⟩, hhigh, hjitter, hlsr, hdlsr⟩ := h
    intro k hk
    rcases (by omega : k < 4 ∨ k = 4 ∨ k = 5 ∨ k = 6 ∨ k = 7 ∨ 8 ≤ k ∧ k < 12 ∨ 12 ≤ k ∧ k < 16 ∨
      16 ≤ k ∧ k < 20 ∨ 20 ≤ k) with h | rfl | rfl | rfl | rfl | h | h | h | h
    · exact hssrc k h
    · exact hfraction
    · exact hlost0
    · exact hlost1
    · exact hlost2
    · have hbyte := hhigh (k - 8) (by omega)
      rwa [Nat.add_assoc, Nat.add_assoc, Nat.add_sub_of_le h.1] at hbyte
    · have hbyte := hjitter (k - 12) (by omega)
      rwa [Nat.add_assoc, Nat.add_assoc, Nat.add_sub_of_le h.1] at hbyte
    · have hbyte := hlsr (k - 16) (by omega)
      rwa [Nat.add_assoc, Nat.add_assoc, Nat.add_sub_of_le h.1] at hbyte
    · have hbyte := hdlsr (k - 20) (by omega)
      rwa [Nat.add_assoc, Nat.add_assoc, Nat.add_sub_of_le h] at hbyte
  · intro h
    have hword : ∀ i, i + 4 ≤ 24 → ∀ k < 4, m (p + i + k) = m' (q + i + k) := by
      intro i hi k hk
      rw [Nat.add_assoc, Nat.add_assoc]
      exact h (i + k) (by omega)
    exact ⟨fun k hk => h k (by omega), h 4 (by omega), ⟨h 7 (by omega), h 6 (by omega), h 5 (by omega)⟩,
      hword 8 (by omega), hword 12 (by omega), hword 16 (by omega), hword 20 (by omega)⟩

end

/-- Where the report block `i` of a receiver report at `p` begins. -/
def rrBlock (p i : ℕ) : ℕ := p + 8 + i * sizeofRtcpReceiverReport

/-- The report blocks of the receiver report at `p` all have the bytes of the first one. -/
def SameBlocks (m : ℕ → UInt8) (p : ℕ) : Prop :=
  ∀ i < countOf (m p), ∀ k < sizeofRtcpReceiverReport, m (rrBlock p i + k) = m (rrBlock p 0 + k)

section

variable (m : ℕ → UInt8) (recvFrom : Endpoint) (recvtime : RtpTime) (p : ℕ) (subflowId : UInt16)

/-- The calls that are due for a receiver report: one for each of its blocks, with its fields. -/
def dueCalls : List RtcpCall :=
  (List.range (countOf (m p))).map fun i =>
    .rr ((RtcpRrPacket.parse recvFrom recvtime (rrBlock p i)).eval m) subflowId (be32 m (p + 4))

theorem processRrPacket_eq_dueCalls_iff :
    (processRrPacket recvFrom recvtime p subflowId).eval m = dueCalls m recvFrom recvtime p subflowId ↔
      SameBlocks m p := by
  have hfirst : rrBlock p 0 = p + 8 := by
    unfold rrBlock
    omega
  unfold dueCalls SameBlocks
  simp only [processRrPacket_eval, RtcpRrPacket.parse_eval, hfirst]
  rw [eq_comm, List.eq_replicate_iff]
  simp only [List.length_map, List.length_range, true_and, List.forall_mem_map, List.mem_range,
    RtcpCall.rr.injEq, and_true, rrAt_inj]
  rfl

/-- `process_rr_packet` makes one call for each block that is announced, wherever the receiver report
is; the calls have the fields of their blocks, and those that `rtcp_sr_packet::parse` finds in a sender
report with the same blocks, exactly when all blocks have the bytes of the first one. -/
theorem processRrPacket_blocks_iff :
    let calls := (processRrPacket recvFrom recvtime p subflowId).eval m
    calls.length = countOf (m p) ∧
    (calls = dueCalls m recvFrom recvtime p subflowId ↔ SameBlocks m p) ∧
    ∀ (m' : ℕ → UInt8) (q : ℕ), m' (q + 1) = rtcpTypeSr → countOf (m' q) = countOf (m p) →
      (∀ k < countOf (m p) * sizeofRtcpReceiverReport, m' (q + 28 + k) = m (p + 8 + k)) →
      ∃ sr, (RtcpSrPacket.parse recvFrom recvtime q).eval m' = some sr ∧
        (calls = sr.rrReports.map (fun rr => .rr rr subflowId (be32 m (p + 4))) ↔ SameBlocks m p) := by
  intro calls
  have hdue := processRrPacket_eq_dueCalls_iff m recvFrom recvtime p subflowId
  refine ⟨?_, hdue, ?_⟩
  · have hcalls : calls = List.replicate (countOf (m p))
        (.rr (rrAt m recvFrom recvtime (p + 8)) subflowId (be32 m (p + 4))) :=
      processRrPacket_eval m recvFrom recvtime p subflowId
    rw [hcalls, List.length_replicate]
  · intro m' q ht hcount hblocks
    have hsr : (RtcpSrPacket.parse recvFrom recvtime q).eval m' = some (srAt m' recvFrom recvtime q) :=
      RtcpSrPacket.parse_eval m' recvFrom recvtime ht
    refine ⟨_, hsr, ?_⟩
    have hreports : (srAt m' recvFrom recvtime q).rrReports.map
        (fun rr => RtcpCall.rr rr subflowId (be32 m (p + 4))) =
          dueCalls m recvFrom recvtime p subflowId := by
      unfold srAt dueCalls
      dsimp only
      rw [List.map_map, hcount]
      apply List.map_congr_left
      intro i hi
      have hi' := List.mem_range.mp hi
      have hblock : rrAt m' recvFrom recvtime (q + 28 + i * sizeofRtcpReceiverReport) =
          rrAt m recvFrom recvtime (rrBlock p i) := by
        rw [rrAt_inj]
        intro k hk
        have hlt : i * sizeofRtcpReceiverReport + k < countOf (m p) * sizeofRtcpReceiverReport := by
          unfold sizeofRtcpReceiverReport
          omega
        unfold rrBlock
        rw [Nat.add_assoc, Nat.add_assoc (p + 8)]
        exact hblocks _ hlt
      rw [Function.comp_apply, hblock, RtcpRrPacket.parse_eval]
    rw [hreports]
    exact hdue

end

/-- A receiver report of 56 bytes about the two sources 1 and 2. -/
def twoBlocksPacket : RawPacket where
  data := [0x82, 201, 0, 13, 0, 0, 0, 7] ++ [0, 0, 0, 1] ++ List.replicate 20 0 ++
    [0, 0, 0, 2] ++ List.replicate 20 0
  beyond := fun _ => 0
  fromAddr := ⟨0x0A000001, 23001⟩
  isrtcp := true
  recvtime := 1

/-- A whole receiver report at `p`: it ends behind its last block. -/
def WholeRr (m : ℕ → UInt8) (p : ℕ) : Prop :=
  versionOf (m p) = rtpVersion ∧ m (p + 1) = rtcpTypeRr ∧
    p + packetBytes m p = rrBlock p (countOf (m p))

theorem processRrPacket_repeats_first :
    ¬ ∀ pkt : RawPacket, WholeRr pkt.mem 0 → pkt.dataLen = packetBytes pkt.mem 0 →
      (processRrPacket pkt.fromAddr pkt.recvtime 0 0).eval pkt.mem =
        dueCalls pkt.mem pkt.fromAddr pkt.recvtime 0 0 := by
  intro h
  have hwhole : WholeRr twoBlocksPacket.mem 0 := ⟨by decide, by decide, by decide⟩
  have hsame : SameBlocks twoBlocksPacket.mem 0 :=
    (processRrPacket_eq_dueCalls_iff _ _ _ _ _).mp (h twoBlocksPacket hwhole (by decide))
  -- the last byte of the SSRC of the second block
  exact absurd (hsame 1 (by decide) 3 (by decide)) (by decide)

end Mprtp
