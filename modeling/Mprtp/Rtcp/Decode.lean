import Mprtp.Rtcp.Walk

/-! What the walk over a compound makes of a packet, in terms of the bytes in memory. -/
namespace Mprtp

open ByteReader

section

variable (m : ℕ → UInt8) (recvFrom : Endpoint) (recvtime : RtpTime)

/-- The report block at `p`. -/
def rrAt (p : ℕ) : RtcpRrPacket where
  recvTime := recvtime
  recvFrom := recvFrom
  ssrc := be32 m p
  fractionlost := m (p + 4)
  packetslost :=
    (m (p + 7)).toUInt32 ||| (m (p + 6)).toUInt32 <<< 8 ||| (m (p + 5)).toUInt32 <<< 16
  exthighseqnr := be32 m (p + 8)
  jitter := be32 m (p + 12)
  lsr := be32 m (p + 16)
  dlsr := be32 m (p + 20)

theorem RtcpRrPacket.parse_eval (p : ℕ) :
    (RtcpRrPacket.parse recvFrom recvtime p).eval m = rrAt m recvFrom recvtime p := by
  simp only [RtcpRrPacket.parse, eval_bind, eval_byte, eval_u32, eval_pure, rrAt]

/-- The sender report at `p`. -/
def srAt (p : ℕ) : RtcpSrPacket where
  recvTime := recvtime
  recvFrom := recvFrom
  senderSsrc := be32 m (p + 4)
  ntpTime := ⟨be32 m (p + 8), be32 m (p + 12)⟩
  rtpTimestamp := be32 m (p + 16)
  packetCount := be32 m (p + 20)
  octetCount := be32 m (p + 24)
  rrReports := (List.range (countOf (m p))).map fun i =>
    rrAt m recvFrom recvtime (p + 28 + i * sizeofRtcpReceiverReport)

theorem srReports_eval (n p : ℕ) : (srReports recvFrom recvtime n p).eval m =
    (List.range n).map fun i => rrAt m recvFrom recvtime (p + i * sizeofRtcpReceiverReport) := by
  induction n generalizing p with
  | zero => simp only [srReports, eval_pure, List.range_zero, List.map_nil]
  | succ n ih =>
    simp only [srReports, eval_bind, eval_pure, RtcpRrPacket.parse_eval, ih]
    rw [List.range_succ_eq_map, List.map_cons, List.map_map, Nat.zero_mul, Nat.add_zero]
    refine List.cons_eq_cons.mpr ⟨rfl, List.map_congr_left ?_⟩
    intro i _
    have hoff : p + sizeofRtcpReceiverReport + i * sizeofRtcpReceiverReport =
        p + (i + 1) * sizeofRtcpReceiverReport := by
      rw [Nat.succ_mul]
      omega
    rw [hoff]
    rfl

theorem RtcpSrPacket.parse_eval {p : ℕ} (h : m (p + 1) = rtcpTypeSr) :
    (RtcpSrPacket.parse recvFrom recvtime p).eval m = some (srAt m recvFrom recvtime p) := by
  unfold RtcpSrPacket.parse
  simp only [eval_bind, eval_byte, eval_ite, eval_pure, eval_u32, srReports_eval, h]
  rw [if_neg (by decide)]
  rfl

theorem processSrPacket_eval {p : ℕ} (id : UInt16) (h : m (p + 1) = rtcpTypeSr) :
    (processSrPacket recvFrom recvtime p id).eval m = [.sr (srAt m recvFrom recvtime p) id] := by
  unfold processSrPacket
  simp only [eval_bind, RtcpSrPacket.parse_eval m recvFrom recvtime h, eval_pure]

theorem rrReports_eval (p : ℕ) (id : UInt16) (n : ℕ) :
    (rrReports recvFrom recvtime p id n).eval m =
      List.replicate n (.rr (rrAt m recvFrom recvtime (p + 8)) id (be32 m (p + 4))) := by
  induction n with
  | zero => simp only [rrReports, eval_pure, List.replicate_zero]
  | succ n ih =>
    simp only [rrReports, eval_bind, eval_pure, eval_u32, RtcpRrPacket.parse_eval, ih,
      List.replicate_succ]

theorem processRrPacket_eval (p : ℕ) (id : UInt16) :
    (processRrPacket recvFrom recvtime p id).eval m =
      List.replicate (countOf (m p))
        (.rr (rrAt m recvFrom recvtime (p + 8)) id (be32 m (p + 4))) := by
  unfold processRrPacket
  rw [eval_bind, eval_byte, rrReports_eval]

theorem processSrPacket_eval_of_ne {p : ℕ} (id : UInt16) (h : m (p + 1) ≠ rtcpTypeSr) :
    (processSrPacket recvFrom recvtime p id).eval m = [] := by
  unfold processSrPacket RtcpSrPacket.parse
  simp only [eval_bind, eval_byte, eval_pure, h, ne_eq, not_false_eq_true, if_true]

/-- What a walk over the memory can call: reports read somewhere in it. -/
inductive CallFrom : RtcpCall → Prop
  | sr (p : ℕ) (id : UInt16) : CallFrom (.sr (srAt m recvFrom recvtime p) id)
  | rr (p : ℕ) (id : UInt16) :
      CallFrom (.rr (rrAt m recvFrom recvtime (p + 8)) id (be32 m (p + 4)))

variable {m recvFrom recvtime}

theorem processSrPacket_callFrom {p : ℕ} {id : UInt16} {c : RtcpCall}
    (hc : c ∈ (processSrPacket recvFrom recvtime p id).eval m) : CallFrom m recvFrom recvtime c := by
  by_cases ht : m (p + 1) = rtcpTypeSr
  · rw [processSrPacket_eval m recvFrom recvtime id ht] at hc
    rw [List.mem_singleton.mp hc]
    exact .sr p id
  · rw [processSrPacket_eval_of_ne m recvFrom recvtime id ht] at hc
    cases hc

theorem processRrPacket_callFrom {p : ℕ} {id : UInt16} {c : RtcpCall}
    (hc : c ∈ (processRrPacket recvFrom recvtime p id).eval m) : CallFrom m recvFrom recvtime c := by
  rw [processRrPacket_eval] at hc
  rw [(List.mem_replicate.mp hc).2]
  exact .rr p id

theorem mprtcpBlock_callFrom {data : ℕ} {c : RtcpCall}
    (hc : c ∈ (mprtcpBlock recvFrom recvtime data).eval m) : CallFrom m recvFrom recvtime c := by
  unfold mprtcpBlock at hc
  simp only [eval_bind, eval_byte, eval_ite, eval_pure, eval_u16] at hc
  split at hc
  · cases hc
  · split at hc
    · exact processSrPacket_callFrom hc
    · split at hc
      · exact processRrPacket_callFrom hc
      · cases hc

theorem mprtcpLoop_callFrom {stop fuel data : ℕ} {c : RtcpCall}
    (hc : c ∈ ((mprtcpLoop recvFrom recvtime stop fuel data).eval m).1) :
    CallFrom m recvFrom recvtime c := by
  induction fuel generalizing data with
  | zero =>
    simp only [mprtcpLoop, eval_pure, List.not_mem_nil] at hc
  | succ fuel ih =>
    rw [mprtcpLoop_eval_succ] at hc
    split at hc
    · rcases List.mem_append.mp hc with hc | hc
      · exact mprtcpBlock_callFrom hc
      · exact ih hc
    · cases hc

theorem dispatchPacket_callFrom {fuel p : ℕ} {c : RtcpCall}
    (hc : c ∈ ((dispatchPacket recvFrom recvtime fuel p).eval m).1) :
    CallFrom m recvFrom recvtime c := by
  unfold dispatchPacket at hc
  simp only [eval_bind, eval_byte, eval_ite] at hc
  split at hc
  · rw [eval_pure] at hc
    exact processSrPacket_callFrom hc
  · split at hc
    · rw [eval_pure] at hc
      exact processRrPacket_callFrom hc
    · split at hc
      · unfold processMprtcpPacket at hc
        simp only [eval_bind, eval_u16] at hc
        exact mprtcpLoop_callFrom hc
      · rw [eval_pure] at hc
        cases hc

theorem rtcpLoop_callFrom {len blockFuel fuel p : ℕ} {c : RtcpCall}
    (hc : c ∈ ((rtcpLoop recvFrom recvtime len blockFuel fuel p).eval m).1) :
    CallFrom m recvFrom recvtime c := by
  induction fuel generalizing p with
  | zero =>
    simp only [rtcpLoop, eval_pure, List.not_mem_nil] at hc
  | succ fuel ih =>
    rw [rtcpLoop_eval_succ] at hc
    dsimp only at hc
    split at hc
    · split at hc
      · rcases List.mem_append.mp hc with hc | hc
        · exact dispatchPacket_callFrom hc
        · exact ih hc
      · exact dispatchPacket_callFrom hc
    · cases hc

end

theorem rtcpCalls_callFrom {raw : RawPacket} {fuel : ℕ} {c : RtcpCall}
    (hc : c ∈ (raw.rtcpCalls fuel).1) : CallFrom raw.mem raw.fromAddr raw.recvtime c :=
  rtcpLoop_callFrom hc

/-- A report bears the time its datagram was received. -/
theorem rtcpCalls_recvTime {raw : RawPacket} {fuel : ℕ} {pkt : RtcpRrPacket} {id : UInt16}
    {ssrc : UInt32} (hc : .rr pkt id ssrc ∈ (raw.rtcpCalls fuel).1) :
    pkt.recvTime = raw.recvtime := by
  cases rtcpCalls_callFrom hc
  rfl

/-- A datagram that is a sender report without report blocks or with whole ones. -/
theorem rtcpCalls_sr {raw : RawPacket} {fuel : ℕ} (ht : raw.mem 1 = rtcpTypeSr)
    (hpos : 0 < raw.dataLen) (hlen : raw.dataLen ≤ packetBytes raw.mem 0) :
    raw.rtcpCalls (fuel + 2) = ([.sr (srAt raw.mem raw.fromAddr raw.recvtime 0) 0], true) := by
  have hdispatch : (dispatchPacket raw.fromAddr raw.recvtime (fuel + 2) 0).eval raw.mem =
      ([.sr (srAt raw.mem raw.fromAddr raw.recvtime 0) 0], true) := by
    unfold dispatchPacket
    simp only [eval_bind, eval_byte, Nat.zero_add, ht, if_true, eval_pure]
    rw [processSrPacket_eval _ _ _ _ ht]
  unfold RawPacket.rtcpCalls processRtcpPacket
  rw [rtcpLoop_eval_succ, if_pos hpos]
  simp only [hdispatch, if_true, Nat.zero_add]
  rw [rtcpLoop_eval_succ, if_neg (not_lt.mpr hlen)]
  rfl

end Mprtp
