import Mprtp.Rtcp
import Mathlib.Tactic.Tauto

/-! The cursor positions of the two loops of `process_rtcp_packet`, and when the loops end. -/
namespace Mprtp

open ByteReader

/-- The bytes that the packet at `p` takes, by its length field. -/
def packetBytes (m : ℕ → UInt8) (p : ℕ) : ℕ := ((be16 m (p + 2)).toNat + 1) * 4

/-- The bytes that the MPRTCP block at `q` takes, by its block length. -/
def blockBytes (m : ℕ → UInt8) (q : ℕ) : ℕ := (m (q + 1)).toNat * 4

/-- The blocks that the inner loop reaches from the cursor `start`, before `stop`. -/
inductive BlockFrom (m : ℕ → UInt8) (stop start : ℕ) : ℕ → Prop
  | first : start < stop → BlockFrom m stop start start
  | next {q : ℕ} : BlockFrom m stop start q → q + blockBytes m q < stop →
      BlockFrom m stop start (q + blockBytes m q)

/-- The blocks of the MPRTCP packet at `p` that the inner loop reaches. -/
def BlockOf (m : ℕ → UInt8) (p : ℕ) : ℕ → Prop := BlockFrom m (p + packetBytes m p) (p + 12)

/-- The packet at `p` is an MPRTCP packet in which the inner loop reaches a block of length 0. -/
def HasEmptyBlock (m : ℕ → UInt8) (p : ℕ) : Prop :=
  m (p + 1) = rtcpTypeMprtp ∧ ∃ q, BlockOf m p q ∧ blockBytes m q = 0

/-- The packets that the outer loop reaches from the cursor `start` in `len` bytes. -/
inductive PacketFrom (m : ℕ → UInt8) (len start : ℕ) : ℕ → Prop
  | first : start < len → PacketFrom m len start start
  | next {p : ℕ} : PacketFrom m len start p → ¬ HasEmptyBlock m p → p + packetBytes m p < len →
      PacketFrom m len start (p + packetBytes m p)

theorem packetBytes_pos (m : ℕ → UInt8) (p : ℕ) : 0 < packetBytes m p := by
  unfold packetBytes
  omega

theorem BlockFrom.lt_stop {m : ℕ → UInt8} {stop start q : ℕ} (hq : BlockFrom m stop start q) :
    q < stop := by
  cases hq with
  | first h => exact h
  | next _ h => exact h

theorem PacketFrom.lt_len {m : ℕ → UInt8} {len start p : ℕ} (hp : PacketFrom m len start p) :
    p < len := by
  cases hp with
  | first h => exact h
  | next _ _ h => exact h

theorem BlockFrom.cons {m : ℕ → UInt8} {stop start q : ℕ} (h : start < stop)
    (hq : BlockFrom m stop (start + blockBytes m start) q) : BlockFrom m stop start q := by
  induction hq with
  | first hlt => exact .next (.first h) hlt
  | next _ hlt ih => exact .next ih hlt

theorem BlockFrom.cases_head {m : ℕ → UInt8} {stop start q : ℕ} (hq : BlockFrom m stop start q) :
    start < stop ∧ (q = start ∨ BlockFrom m stop (start + blockBytes m start) q) := by
  induction hq with
  | first h => exact ⟨h, .inl rfl⟩
  | @next q _ hlt ih =>
    refine ⟨ih.1, .inr ?_⟩
    rcases ih.2 with rfl | h
    · exact .first hlt
    · exact .next h hlt

theorem PacketFrom.cons {m : ℕ → UInt8} {len start p : ℕ} (h : start < len)
    (hs : ¬ HasEmptyBlock m start) (hp : PacketFrom m len (start + packetBytes m start) p) :
    PacketFrom m len start p := by
  induction hp with
  | first hlt => exact .next (.first h) hs hlt
  | next _ hs' hlt ih => exact .next ih hs' hlt

theorem PacketFrom.cases_head {m : ℕ → UInt8} {len start p : ℕ} (hp : PacketFrom m len start p) :
    start < len ∧ (p = start ∨
      (¬ HasEmptyBlock m start ∧ PacketFrom m len (start + packetBytes m start) p)) := by
  induction hp with
  | first h => exact ⟨h, .inl rfl⟩
  | @next q _ hs hlt ih =>
    refine ⟨ih.1, .inr ?_⟩
    rcases ih.2 with rfl | ⟨h₁, h₂⟩
    · exact ⟨hs, .first hlt⟩
    · exact ⟨h₁, .next h₂ hs hlt⟩

section

variable (recvFrom : Endpoint) (recvtime : RtpTime) {m : ℕ → UInt8}

theorem mprtcpLoop_eval_succ (stop fuel data : ℕ) :
    (mprtcpLoop recvFrom recvtime stop (fuel + 1) data).eval m =
      if data < stop then
        let rest := (mprtcpLoop recvFrom recvtime stop fuel (data + blockBytes m data)).eval m
        ((mprtcpBlock recvFrom recvtime data).eval m ++ rest.1, rest.2)
      else ([], true) := by
  simp [mprtcpLoop, blockBytes]

/-- More fuel changes nothing once the inner loop was left. -/
theorem mprtcpLoop_eval_mono {stop fuel fuel' data : ℕ} (hf : fuel ≤ fuel')
    (h : ((mprtcpLoop recvFrom recvtime stop fuel data).eval m).2 = true) :
    (mprtcpLoop recvFrom recvtime stop fuel' data).eval m =
      (mprtcpLoop recvFrom recvtime stop fuel data).eval m := by
  induction fuel generalizing fuel' data with
  | zero => simp [mprtcpLoop] at h
  | succ fuel ih =>
    obtain ⟨fuel', rfl⟩ : ∃ k, fuel' = k + 1 := ⟨fuel' - 1, by omega⟩
    rw [mprtcpLoop_eval_succ] at h ⊢
    rw [mprtcpLoop_eval_succ]
    split at h
    · rename_i hlt
      rw [if_pos hlt, if_pos hlt, ih (by omega) h]
    · rename_i hlt
      rw [if_neg hlt, if_neg hlt]

/-- The inner loop ends exactly when no block that it reaches has length 0. -/
theorem mprtcpLoop_ends_iff (stop data : ℕ) :
    (∃ fuel, ((mprtcpLoop recvFrom recvtime stop fuel data).eval m).2 = true) ↔
      ∀ q, BlockFrom m stop data q → blockBytes m q ≠ 0 := by
  constructor
  · intro h'
    obtain ⟨fuel, h⟩ := h'
    induction fuel generalizing data with
    | zero => simp [mprtcpLoop] at h
    | succ fuel ih =>
      intro q hq hz
      obtain ⟨hlt, hq⟩ := hq.cases_head
      rw [mprtcpLoop_eval_succ, if_pos hlt] at h
      have hrest := ih _ h
      rcases hq with rfl | hq
      · -- with block length 0 the cursor has not moved
        rw [hz, Nat.add_zero] at hrest
        exact hrest q (.first hlt) hz
      · exact hrest q hq hz
  · intro h
    induction hn : stop - data using Nat.strong_induction_on generalizing data with
    | _ n ih =>
      by_cases hlt : data < stop
      · have hpos := h data (.first hlt)
        obtain ⟨fuel, hf⟩ := ih (stop - (data + blockBytes m data)) (by omega) _
          (fun q hq => h q (hq.cons hlt)) rfl
        exact ⟨fuel + 1, by rw [mprtcpLoop_eval_succ, if_pos hlt]; exact hf⟩
      · exact ⟨1, by rw [mprtcpLoop_eval_succ, if_neg hlt]⟩

/-- The handling of one packet ends exactly when the packet has no empty block. -/
theorem dispatchPacket_ends_iff (pkt : ℕ) :
    (∃ fuel, ((dispatchPacket recvFrom recvtime fuel pkt).eval m).2 = true) ↔
      ¬ HasEmptyBlock m pkt := by
  by_cases hsr : m (pkt + 1) = rtcpTypeSr
  · simp [dispatchPacket, HasEmptyBlock, hsr, show rtcpTypeSr ≠ rtcpTypeMprtp by decide]
  by_cases hrr : m (pkt + 1) = rtcpTypeRr
  · simp [dispatchPacket, HasEmptyBlock, hrr, show rtcpTypeRr ≠ rtcpTypeMprtp by decide,
      show rtcpTypeRr ≠ rtcpTypeSr by decide]
  by_cases hmp : m (pkt + 1) = rtcpTypeMprtp
  · have hloop := @mprtcpLoop_ends_iff recvFrom recvtime m (pkt + packetBytes m pkt) (pkt + 12)
    simp only [dispatchPacket, processMprtcpPacket, HasEmptyBlock, BlockOf, eval_bind, eval_byte,
      eval_u16, hmp, show rtcpTypeMprtp ≠ rtcpTypeSr by decide,
      show rtcpTypeMprtp ≠ rtcpTypeRr by decide, if_false, if_true, true_and]
    exact hloop.trans ⟨fun h ⟨q, hq, hz⟩ => h q hq hz, fun h q hq hz => h ⟨q, hq, hz⟩⟩
  · simp [dispatchPacket, HasEmptyBlock, hsr, hrr, hmp]

theorem dispatchPacket_eval_mono {fuel fuel' pkt : ℕ} (hf : fuel ≤ fuel')
    (h : ((dispatchPacket recvFrom recvtime fuel pkt).eval m).2 = true) :
    (dispatchPacket recvFrom recvtime fuel' pkt).eval m =
      (dispatchPacket recvFrom recvtime fuel pkt).eval m := by
  simp only [dispatchPacket, processMprtcpPacket, eval_bind, eval_byte, eval_ite, eval_u16,
    eval_pure] at h ⊢
  split_ifs at h ⊢ with hsr hrr hmp
  · rfl
  · rfl
  · exact mprtcpLoop_eval_mono recvFrom recvtime hf h
  · rfl

theorem rtcpLoop_eval_succ (len blockFuel fuel pkt : ℕ) :
    (rtcpLoop recvFrom recvtime len blockFuel (fuel + 1) pkt).eval m =
      if pkt < len then
        let here := (dispatchPacket recvFrom recvtime blockFuel pkt).eval m
        if here.2 then
          let rest := (rtcpLoop recvFrom recvtime len blockFuel fuel
            (pkt + packetBytes m pkt)).eval m
          (here.1 ++ rest.1, rest.2)
        else here
      else ([], true) := by
  simp only [rtcpLoop, eval_ite, eval_bind, eval_pure, eval_u16, packetBytes]
  split
  · cases ((dispatchPacket recvFrom recvtime blockFuel pkt).eval m).2 <;> simp
  · rfl

theorem rtcpLoop_eval_mono {len blockFuel blockFuel' fuel fuel' pkt : ℕ}
    (hb : blockFuel ≤ blockFuel') (hf : fuel ≤ fuel')
    (h : ((rtcpLoop recvFrom recvtime len blockFuel fuel pkt).eval m).2 = true) :
    (rtcpLoop recvFrom recvtime len blockFuel' fuel' pkt).eval m =
      (rtcpLoop recvFrom recvtime len blockFuel fuel pkt).eval m := by
  induction fuel generalizing fuel' pkt with
  | zero => simp [rtcpLoop] at h
  | succ fuel ih =>
    obtain ⟨fuel', rfl⟩ : ∃ k, fuel' = k + 1 := ⟨fuel' - 1, by omega⟩
    rw [rtcpLoop_eval_succ] at h ⊢
    rw [rtcpLoop_eval_succ]
    by_cases hlt : pkt < len
    · rw [if_pos hlt] at h ⊢
      rw [if_pos hlt]
      by_cases hd : ((dispatchPacket recvFrom recvtime blockFuel pkt).eval m).2 = true
      · rw [dispatchPacket_eval_mono recvFrom recvtime hb hd]
        simp only [hd, if_true] at h ⊢
        rw [ih (by omega) h]
      · simp only [hd] at h
        simp [hd] at h
    · rw [if_neg hlt, if_neg hlt]

/-- With more fuel the inner loop goes on behind the same calls. -/
theorem mprtcpLoop_calls_mono {stop fuel fuel' data : ℕ} (hf : fuel ≤ fuel') :
    ((mprtcpLoop recvFrom recvtime stop fuel data).eval m).1 <+:
      ((mprtcpLoop recvFrom recvtime stop fuel' data).eval m).1 := by
  induction fuel generalizing fuel' data with
  | zero => exact List.nil_prefix
  | succ fuel ih =>
    obtain ⟨fuel', rfl⟩ : ∃ k, fuel' = k + 1 := ⟨fuel' - 1, by omega⟩
    rw [mprtcpLoop_eval_succ, mprtcpLoop_eval_succ]
    split
    · exact (List.prefix_append_right_inj _).mpr (ih (by omega))
    · exact List.prefix_rfl

theorem dispatchPacket_calls_mono {fuel fuel' pkt : ℕ} (hf : fuel ≤ fuel') :
    ((dispatchPacket recvFrom recvtime fuel pkt).eval m).1 <+:
      ((dispatchPacket recvFrom recvtime fuel' pkt).eval m).1 := by
  simp only [dispatchPacket, processMprtcpPacket, eval_bind, eval_byte, eval_ite, eval_u16, eval_pure]
  split_ifs with hsr hrr hmp
  · exact List.prefix_rfl
  · exact List.prefix_rfl
  · exact mprtcpLoop_calls_mono recvFrom recvtime hf
  · exact List.prefix_rfl

/-- With more fuel the outer loop goes on behind the same calls. -/
theorem rtcpLoop_calls_mono {len blockFuel blockFuel' fuel fuel' pkt : ℕ} (hb : blockFuel ≤ blockFuel')
    (hf : fuel ≤ fuel') : ((rtcpLoop recvFrom recvtime len blockFuel fuel pkt).eval m).1 <+:
      ((rtcpLoop recvFrom recvtime len blockFuel' fuel' pkt).eval m).1 := by
  induction fuel generalizing fuel' pkt with
  | zero => exact List.nil_prefix
  | succ fuel ih =>
    obtain ⟨fuel', rfl⟩ : ∃ k, fuel' = k + 1 := ⟨fuel' - 1, by omega⟩
    rw [rtcpLoop_eval_succ, rtcpLoop_eval_succ]
    by_cases hlt : pkt < len
    · rw [if_pos hlt, if_pos hlt]
      by_cases hd : ((dispatchPacket recvFrom recvtime blockFuel pkt).eval m).2 = true
      · rw [dispatchPacket_eval_mono recvFrom recvtime hb hd]
        simp only [hd, if_true]
        exact (List.prefix_append_right_inj _).mpr (ih (by omega))
      · dsimp only
        rw [if_neg hd]
        split
        · exact (dispatchPacket_calls_mono recvFrom recvtime hb).trans (List.prefix_append _ _)
        · exact dispatchPacket_calls_mono recvFrom recvtime hb
    · simp only [if_neg hlt]
      exact List.prefix_rfl

/-- The outer loop, whose cursor always moves, ends exactly when no packet that it reaches has
an empty block. -/
theorem rtcpLoop_ends_iff (len pkt : ℕ) :
    (∃ blockFuel fuel,
      ((rtcpLoop recvFrom recvtime len blockFuel fuel pkt).eval m).2 = true) ↔
        ∀ p, PacketFrom m len pkt p → ¬ HasEmptyBlock m p := by
  constructor
  · intro h'
    obtain ⟨blockFuel, fuel, h⟩ := h'
    induction fuel generalizing pkt with
    | zero => simp [rtcpLoop] at h
    | succ fuel ih =>
      intro p hp
      obtain ⟨hlt, hp⟩ := hp.cases_head
      rw [rtcpLoop_eval_succ, if_pos hlt] at h
      by_cases hd : ((dispatchPacket recvFrom recvtime blockFuel pkt).eval m).2 = true
      · rcases hp with rfl | ⟨-, hp⟩
        · exact (dispatchPacket_ends_iff recvFrom recvtime p).mp ⟨blockFuel, hd⟩
        · simp only [hd, if_true] at h
          exact ih _ h p hp
      · simp [hd] at h
  · intro h
    induction hn : len - pkt using Nat.strong_induction_on generalizing pkt with
    | _ n ih =>
      by_cases hlt : pkt < len
      · have hs := h pkt (.first hlt)
        have hpos := packetBytes_pos m pkt
        obtain ⟨bf₁, h₁⟩ := (dispatchPacket_ends_iff recvFrom recvtime pkt).mpr hs
        obtain ⟨bf₂, fuel, h₂⟩ := ih (len - (pkt + packetBytes m pkt)) (by omega) _
          (fun p hp => h p (hp.cons hlt hs)) rfl
        refine ⟨max bf₁ bf₂, fuel + 1, ?_⟩
        have hd := dispatchPacket_eval_mono recvFrom recvtime (le_max_left bf₁ bf₂) h₁
        have hr := rtcpLoop_eval_mono recvFrom recvtime (le_max_right bf₁ bf₂) le_rfl h₂
        rw [rtcpLoop_eval_succ, if_pos hlt, hd]
        simp only [h₁, if_true, hr]
        exact h₂
      · exact ⟨0, 1, by rw [rtcpLoop_eval_succ, if_neg hlt]⟩

end

theorem rtcpCalls_mono {fuel fuel' : ℕ} (hf : fuel ≤ fuel') (pkt : RawPacket) :
    (pkt.rtcpCalls fuel).1 <+: (pkt.rtcpCalls fuel').1 :=
  rtcpLoop_calls_mono pkt.fromAddr pkt.recvtime hf hf

/-- `process_rtcp_packet` returns exactly when no MPRTCP packet that its outer loop reaches
contains a block of length 0 that the inner loop reaches. -/
theorem processRtcpPacket_ends_iff (pkt : RawPacket) :
    (∃ fuel, (pkt.rtcpCalls fuel).2 = true) ↔
      ∀ p, PacketFrom pkt.mem pkt.dataLen 0 p → ¬ HasEmptyBlock pkt.mem p := by
  rw [← rtcpLoop_ends_iff pkt.fromAddr pkt.recvtime]
  constructor
  · intro h'
    obtain ⟨fuel, h⟩ := h'
    exact ⟨fuel, fuel, h⟩
  · intro h'
    obtain ⟨blockFuel, fuel, h⟩ := h'
    refine ⟨max blockFuel fuel, ?_⟩
    have hmono := rtcpLoop_eval_mono pkt.fromAddr pkt.recvtime
      (le_max_left blockFuel fuel) (le_max_right blockFuel fuel) h
    rw [RawPacket.rtcpCalls, processRtcpPacket, hmono]
    exact h

/-- An MPRTCP packet of 16 bytes whose only block, an interface advertisement, has length 0. -/
def emptyBlockPacket : RawPacket where
  data := [0x80, 211, 0, 3, 0, 0, 0, 1, 0, 0, 0, 2, 1, 0, 0, 0]
  beyond := fun _ => 0
  fromAddr := ⟨0x0A000001, 23001⟩
  isrtcp := true
  recvtime := 1

theorem processRtcpPacket_hangs :
    ¬ ∀ pkt : RawPacket, ∃ fuel, (pkt.rtcpCalls fuel).2 = true := by
  intro h
  obtain ⟨fuel, hends⟩ := h emptyBlockPacket
  have hempty := (rtcpLoop_ends_iff _ _ _ _).mp ⟨fuel, fuel, hends⟩
  exact hempty 0 (.first (by decide)) ⟨by decide, 12, .first (by decide), by decide⟩

end Mprtp
