import Mprtp.Rtcp.Walk

/-! Which bytes `process_rtcp_packet` reads. Nothing is checked against the datagram's length
but the start of each packet, so the reads stay inside exactly for a datagram that is framed
well from end to end. -/
namespace Mprtp

open ByteReader

section

variable (m : ℕ → UInt8) (len : ℕ)

/-- The sender report at `p`, with as many report blocks as it counts, lies inside. -/
def SrInside (p : ℕ) : Prop := p + 28 + countOf (m p) * 24 ≤ len

/-- The receiver report at `p` lies inside as far as it is read: up to its first block. -/
def RrInside (p : ℕ) : Prop := p < len ∧ (countOf (m p) ≠ 0 → p + 32 ≤ len)

/-- The MPRTCP block at `q` lies inside as far as it is read. -/
def BlockInside (q : ℕ) : Prop :=
  q + 2 ≤ len ∧ (m q = mprtcpTypeSubflow → q + 6 ≤ len ∧
    (m (q + 5) = rtcpTypeSr → SrInside m len (q + 4)) ∧
    (m (q + 5) = rtcpTypeRr → RrInside m len (q + 4)))

/-- The packet at `p` lies inside as far as it is read. -/
def PacketInside (p : ℕ) : Prop :=
  p + 4 ≤ len ∧ (m (p + 1) = rtcpTypeSr → SrInside m len p) ∧
    (m (p + 1) = rtcpTypeRr → RrInside m len p) ∧
    (m (p + 1) = rtcpTypeMprtp → ∀ q, BlockOf m p q → BlockInside m len q)

end

section

variable (recvFrom : Endpoint) (recvtime : RtpTime) {m : ℕ → UInt8} {len : ℕ}

theorem RtcpRrPacket.parse_readsIn (data : ℕ) :
    (RtcpRrPacket.parse recvFrom recvtime data).ReadsIn (· < len) m ↔ data + 24 ≤ len := by
  simp only [RtcpRrPacket.parse, readsIn_bind, readsIn_byte, readsIn_u32, readsIn_pure, and_true]
  omega

theorem srReports_readsIn (n data : ℕ) :
    (srReports recvFrom recvtime n data).ReadsIn (· < len) m ↔
      (n ≠ 0 → data + n * 24 ≤ len) := by
  induction n generalizing data with
  | zero => simp [srReports]
  | succ n ih =>
    simp only [srReports, readsIn_bind, RtcpRrPacket.parse_readsIn, ih, readsIn_pure, and_true,
      sizeofRtcpReceiverReport]
    omega

theorem RtcpSrPacket.parse_readsIn {p : ℕ} (ht : m (p + 1) = rtcpTypeSr) :
    (RtcpSrPacket.parse recvFrom recvtime p).ReadsIn (· < len) m ↔ SrInside m len p := by
  simp only [RtcpSrPacket.parse, readsIn_bind, readsIn_byte, eval_byte, ht, ne_eq,
    not_true_eq_false, if_false, readsIn_u32, srReports_readsIn, readsIn_pure, and_true, SrInside]
  omega

theorem processSrPacket_readsIn {p : ℕ} (ht : m (p + 1) = rtcpTypeSr) (subflowId : UInt16) :
    (processSrPacket recvFrom recvtime p subflowId).ReadsIn (· < len) m ↔ SrInside m len p := by
  rw [processSrPacket, readsIn_bind, RtcpSrPacket.parse_readsIn recvFrom recvtime ht]
  refine and_iff_left ?_
  split <;> simp

theorem rrReports_readsIn (p : ℕ) (subflowId : UInt16) (n : ℕ) :
    (rrReports recvFrom recvtime p subflowId n).ReadsIn (· < len) m ↔
      (n ≠ 0 → p + 32 ≤ len) := by
  induction n with
  | zero => simp [rrReports]
  | succ n ih =>
    simp only [rrReports, readsIn_bind, RtcpRrPacket.parse_readsIn, readsIn_u32, ih, readsIn_pure, and_true]
    omega

theorem processRrPacket_readsIn (p : ℕ) (subflowId : UInt16) :
    (processRrPacket recvFrom recvtime p subflowId).ReadsIn (· < len) m ↔ RrInside m len p := by
  simp only [processRrPacket, readsIn_bind, readsIn_byte, eval_byte, rrReports_readsIn, RrInside]

/-- One pass of the inner loop: the body and the block length. -/
theorem mprtcpBlock_readsIn (q : ℕ) :
    ((mprtcpBlock recvFrom recvtime q).ReadsIn (· < len) m ∧ q + 1 < len) ↔
      BlockInside m len q := by
  unfold mprtcpBlock BlockInside
  by_cases ht : m q = mprtcpTypeSubflow
  · by_cases hsr : m (q + 5) = rtcpTypeSr
    · simp only [readsIn_bind, readsIn_byte, eval_byte, ht, hsr, ne_eq, not_true_eq_false, if_false,
        if_true, readsIn_u16, processSrPacket_readsIn recvFrom recvtime (show m (q + 4 + 1) = _ from hsr),
        show rtcpTypeSr ≠ rtcpTypeRr by decide, true_imp_iff, false_imp_iff, and_true, SrInside]
      omega
    · by_cases hrr : m (q + 5) = rtcpTypeRr
      · simp only [readsIn_bind, readsIn_byte, eval_byte, ht, hrr, ne_eq, not_true_eq_false,
          if_false, if_true, readsIn_u16, processRrPacket_readsIn,
          show rtcpTypeRr ≠ rtcpTypeSr by decide, true_imp_iff, false_imp_iff, true_and, RrInside]
        omega
      · simp only [readsIn_bind, readsIn_byte, eval_byte, ht, hsr, hrr, ne_eq, not_true_eq_false,
          if_false, readsIn_pure, true_imp_iff, false_imp_iff, and_true]
        omega
  · simp only [readsIn_bind, readsIn_byte, eval_byte, ht, ne_eq, not_false_eq_true, if_true,
      readsIn_pure, false_imp_iff, and_true]
    omega

theorem mprtcpLoop_readsIn_succ (stop fuel data : ℕ) :
    (mprtcpLoop recvFrom recvtime stop (fuel + 1) data).ReadsIn (· < len) m ↔
      (data < stop → BlockInside m len data ∧
        (mprtcpLoop recvFrom recvtime stop fuel (data + blockBytes m data)).ReadsIn
          (· < len) m) := by
  rw [← mprtcpBlock_readsIn recvFrom recvtime]
  by_cases h : data < stop
  · simp only [mprtcpLoop, h, if_true, readsIn_bind, readsIn_byte, eval_byte, readsIn_pure,
      and_true, true_imp_iff, and_assoc, blockBytes]
  · simp [mprtcpLoop, h]

theorem mprtcpLoop_readsIn_iff (stop data : ℕ) :
    (∀ fuel, (mprtcpLoop recvFrom recvtime stop fuel data).ReadsIn (· < len) m) ↔
      ∀ q, BlockFrom m stop data q → BlockInside m len q := by
  constructor
  · intro h q hq
    -- with any fuel left at `q`: the loop reaches every block on its way
    have hall : ∀ fuel, (mprtcpLoop recvFrom recvtime stop fuel q).ReadsIn (· < len) m := by
      induction hq with
      | first _ => exact h
      | @next q hq _ ih =>
        intro fuel
        exact ((mprtcpLoop_readsIn_succ recvFrom recvtime stop fuel q).mp (ih (fuel + 1))
          hq.lt_stop).2
    exact ((mprtcpLoop_readsIn_succ recvFrom recvtime stop 0 q).mp (hall 1) hq.lt_stop).1
  · intro h fuel
    induction fuel generalizing data with
    | zero => simp [mprtcpLoop]
    | succ fuel ih =>
      rw [mprtcpLoop_readsIn_succ]
      intro hlt
      exact ⟨h data (.first hlt), ih _ fun q hq => h q (hq.cons hlt)⟩

/-- One pass of the outer loop, with any amount of fuel for the inner one. -/
theorem dispatchPacket_readsIn_iff (p : ℕ) :
    ((∀ fuel, (dispatchPacket recvFrom recvtime fuel p).ReadsIn (· < len) m) ∧ p + 3 < len) ↔
      PacketInside m len p := by
  unfold PacketInside
  by_cases hsr : m (p + 1) = rtcpTypeSr
  · simp only [dispatchPacket, readsIn_bind, readsIn_byte, eval_byte, hsr, if_true, readsIn_pure,
      processSrPacket_readsIn recvFrom recvtime hsr, forall_const, and_true, SrInside,
      show rtcpTypeSr ≠ rtcpTypeRr by decide, show rtcpTypeSr ≠ rtcpTypeMprtp by decide,
      false_imp_iff]
    omega
  by_cases hrr : m (p + 1) = rtcpTypeRr
  · simp only [dispatchPacket, readsIn_bind, readsIn_byte, eval_byte, hrr, if_true, if_false,
      readsIn_pure, processRrPacket_readsIn, forall_const, true_and, and_true, RrInside,
      show rtcpTypeRr ≠ rtcpTypeSr by decide, show rtcpTypeRr ≠ rtcpTypeMprtp by decide,
      false_imp_iff]
    omega
  by_cases hmp : m (p + 1) = rtcpTypeMprtp
  · have hloop := @mprtcpLoop_readsIn_iff recvFrom recvtime m len (p + packetBytes m p) (p + 12)
    simp only [dispatchPacket, processMprtcpPacket, readsIn_bind, readsIn_byte, eval_byte,
      readsIn_u16, eval_u16, hmp, if_true, if_false, true_and,
      show rtcpTypeMprtp ≠ rtcpTypeSr by decide, show rtcpTypeMprtp ≠ rtcpTypeRr by decide,
      false_imp_iff, forall_and, forall_const]
    rw [show (∀ q, BlockOf m p q → BlockInside m len q) ↔ _ from hloop.symm]
    constructor
    · intro h'
      obtain ⟨⟨_, _, hr⟩, h⟩ := h'
      exact ⟨by omega, hr⟩
    · intro h'
      obtain ⟨h, hr⟩ := h'
      exact ⟨⟨by omega, by omega, hr⟩, by omega⟩
  · simp only [dispatchPacket, readsIn_bind, readsIn_byte, eval_byte, hsr, hrr, hmp, if_false,
      readsIn_pure, forall_const, false_imp_iff, and_true]
    omega

theorem rtcpLoop_readsIn_succ (blockFuel fuel p : ℕ) :
    (rtcpLoop recvFrom recvtime len blockFuel (fuel + 1) p).ReadsIn (· < len) m ↔
      (p < len → (dispatchPacket recvFrom recvtime blockFuel p).ReadsIn (· < len) m ∧
        (((dispatchPacket recvFrom recvtime blockFuel p).eval m).2 = true → p + 3 < len ∧
          (rtcpLoop recvFrom recvtime len blockFuel fuel (p + packetBytes m p)).ReadsIn
            (· < len) m)) := by
  by_cases h : p < len
  · cases hd : ((dispatchPacket recvFrom recvtime blockFuel p).eval m).2
    · simp [rtcpLoop, h, hd]
    · simp only [rtcpLoop, h, hd, if_true, readsIn_bind, readsIn_pure, readsIn_u16,
        eval_u16, Bool.not_true, Bool.false_eq_true, if_false, and_true, true_imp_iff,
        packetBytes]
      exact and_congr_right fun _ => and_congr_left fun _ => ⟨fun h => h.2, fun h => ⟨by omega, h⟩⟩
  · simp [rtcpLoop, h]

/-- Fewer passes read no more. -/
theorem mprtcpLoop_readsIn_mono {stop fuel fuel' data : ℕ} (hf : fuel ≤ fuel')
    (h : (mprtcpLoop recvFrom recvtime stop fuel' data).ReadsIn (· < len) m) :
    (mprtcpLoop recvFrom recvtime stop fuel data).ReadsIn (· < len) m := by
  induction fuel generalizing fuel' data with
  | zero => simp [mprtcpLoop]
  | succ fuel ih =>
    obtain ⟨fuel', rfl⟩ : ∃ k, fuel' = k + 1 := ⟨fuel' - 1, by omega⟩
    rw [mprtcpLoop_readsIn_succ] at h ⊢
    intro hlt
    exact ⟨(h hlt).1, ih (by omega) (h hlt).2⟩

theorem dispatchPacket_readsIn_mono {fuel fuel' p : ℕ} (hf : fuel ≤ fuel')
    (h : (dispatchPacket recvFrom recvtime fuel' p).ReadsIn (· < len) m) :
    (dispatchPacket recvFrom recvtime fuel p).ReadsIn (· < len) m := by
  simp only [dispatchPacket, processMprtcpPacket, readsIn_bind, readsIn_ite] at h ⊢
  refine ⟨h.1, ?_⟩
  have hrest := h.2
  split_ifs at hrest ⊢ with hsr hrr hmp
  · exact hrest
  · exact hrest
  · exact ⟨hrest.1, mprtcpLoop_readsIn_mono recvFrom recvtime hf hrest.2⟩
  · exact hrest

theorem rtcpLoop_readsIn_mono {blockFuel blockFuel' fuel fuel' p : ℕ}
    (hb : blockFuel ≤ blockFuel') (hf : fuel ≤ fuel')
    (h : (rtcpLoop recvFrom recvtime len blockFuel' fuel' p).ReadsIn (· < len) m) :
    (rtcpLoop recvFrom recvtime len blockFuel fuel p).ReadsIn (· < len) m := by
  induction fuel generalizing fuel' p with
  | zero => simp [rtcpLoop]
  | succ fuel ih =>
    obtain ⟨fuel', rfl⟩ : ∃ k, fuel' = k + 1 := ⟨fuel' - 1, by omega⟩
    rw [rtcpLoop_readsIn_succ] at h ⊢
    intro hlt
    obtain ⟨hd, hrest⟩ := h hlt
    refine ⟨dispatchPacket_readsIn_mono recvFrom recvtime hb hd, fun hdone => ?_⟩
    rw [dispatchPacket_eval_mono recvFrom recvtime hb hdone] at hrest
    exact ⟨(hrest hdone).1, ih (by omega) (hrest hdone).2⟩

/-- The length field of an MPRTCP packet is read even when its inner loop never ends. -/
theorem mprtcp_length_read {fuel p : ℕ} (ht : m (p + 1) = rtcpTypeMprtp)
    (h : (dispatchPacket recvFrom recvtime fuel p).ReadsIn (· < len) m) : p + 3 < len := by
  simp only [dispatchPacket, processMprtcpPacket, readsIn_bind, readsIn_u16, eval_byte, ht,
    show rtcpTypeMprtp ≠ rtcpTypeSr by decide, show rtcpTypeMprtp ≠ rtcpTypeRr by decide,
    if_true, if_false] at h
  omega

theorem rtcpLoop_readsIn_iff (p : ℕ) :
    (∀ blockFuel fuel, (rtcpLoop recvFrom recvtime len blockFuel fuel p).ReadsIn (· < len) m) ↔
      ∀ q, PacketFrom m len p q → PacketInside m len q := by
  constructor
  · intro h q hq
    -- with any fuel left at `q`: the packets in front of it have no empty block
    have hall : ∀ blockFuel fuel,
        (rtcpLoop recvFrom recvtime len blockFuel fuel q).ReadsIn (· < len) m := by
      induction hq with
      | first _ => exact h
      | @next q hq hs _ ih =>
        intro blockFuel fuel
        obtain ⟨bf, hbf⟩ := (dispatchPacket_ends_iff recvFrom recvtime q).mpr hs
        have hle := le_max_left bf blockFuel
        have hdone := dispatchPacket_eval_mono recvFrom recvtime hle hbf
        have hstep := (rtcpLoop_readsIn_succ recvFrom recvtime (max bf blockFuel) fuel q).mp
          (ih (max bf blockFuel) (fuel + 1)) hq.lt_len
        rw [hdone] at hstep
        exact rtcpLoop_readsIn_mono recvFrom recvtime (le_max_right bf blockFuel) le_rfl
          (hstep.2 hbf).2
    have hd : ∀ blockFuel, (dispatchPacket recvFrom recvtime blockFuel q).ReadsIn (· < len) m :=
      fun blockFuel => ((rtcpLoop_readsIn_succ recvFrom recvtime blockFuel 0 q).mp
        (hall blockFuel 1) hq.lt_len).1
    refine (dispatchPacket_readsIn_iff recvFrom recvtime q).mp ⟨hd, ?_⟩
    by_cases hs : HasEmptyBlock m q
    · exact mprtcp_length_read recvFrom recvtime hs.1 (hd 0)
    · obtain ⟨bf, hbf⟩ := (dispatchPacket_ends_iff recvFrom recvtime q).mpr hs
      exact (((rtcpLoop_readsIn_succ recvFrom recvtime bf 0 q).mp (hall bf 1) hq.lt_len).2 hbf).1
  · intro h blockFuel fuel
    induction fuel generalizing p with
    | zero => simp [rtcpLoop]
    | succ fuel ih =>
      rw [rtcpLoop_readsIn_succ]
      intro hlt
      obtain ⟨hd, hp⟩ := (dispatchPacket_readsIn_iff recvFrom recvtime p).mpr (h p (.first hlt))
      refine ⟨hd blockFuel, fun hdone => ⟨hp, ih _ fun q hq => h q (hq.cons hlt ?_)⟩⟩
      exact (dispatchPacket_ends_iff recvFrom recvtime p).mp ⟨blockFuel, hdone⟩

end

/-- Every byte that `process_rtcp_packet` and its handlers read lies inside the datagram
exactly when every packet that the walk reaches does: its header, the sender report with the
report blocks it counts, the first block of a receiver report that counts any, and each MPRTCP
block that begins inside its packet, with the report nested in it. -/
theorem processRtcpPacket_readsIn_iff (pkt : RawPacket) :
    (∀ fuel, (processRtcpPacket fuel pkt).ReadsIn (· < pkt.dataLen) pkt.mem) ↔
      ∀ p, PacketFrom pkt.mem pkt.dataLen 0 p → PacketInside pkt.mem pkt.dataLen p := by
  rw [← rtcpLoop_readsIn_iff pkt.fromAddr pkt.recvtime]
  constructor
  · intro h blockFuel fuel
    exact rtcpLoop_readsIn_mono pkt.fromAddr pkt.recvtime (le_max_left blockFuel fuel)
      (le_max_right blockFuel fuel) (h (max blockFuel fuel))
  · intro h fuel
    exact h fuel fuel

/-- A single byte on the RTCP port. -/
def oneBytePacket : RawPacket where
  data := [0x80]
  beyond := fun _ => 0
  fromAddr := ⟨0x0A000001, 23001⟩
  isrtcp := true
  recvtime := 1

theorem processRtcpPacket_reads_behind_datagram :
    ¬ ∀ pkt : RawPacket, 1 ≤ pkt.dataLen →
      ∀ fuel, (processRtcpPacket fuel pkt).ReadsIn (· < pkt.dataLen) pkt.mem := by
  intro h
  exact absurd (h oneBytePacket (by decide) 1) (by decide)

end Mprtp
