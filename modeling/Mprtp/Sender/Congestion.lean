import Mprtp.Lib.Exec
import Mprtp.Lib.Smoothing
import Mprtp.Sender.Bitrates

/-! Runs of one subflow of a sender: its congestion indicator and its bitrates. -/
namespace Mprtp

open ExtRat

/-- What happens to a subflow of a sender: datagrams are sent on it, with what the socket returns, and
reports on it come in. -/
inductive SubflowStep where
  | send (data : List UInt8) (payloadLength : UInt32) (rtcp : Bool) (ret : ℤ)
  | report (pkt : RtcpRrPacket) (w : World)

namespace Subflow

/-- The next report computes a bitrate. -/
def measures (sf : Subflow) : Bool := sf.lastReceiverReport.isSome && sf.packetCountTt > 0

/-- The log holds the instantaneous bitrates that are computed. -/
def step (sf : Subflow) : SubflowStep → Exec ExtRat Subflow
  | .send data payloadLength rtcp ret => ⟨[], some (sf.sendto data payloadLength rtcp ret).2⟩
  | .report pkt w =>
    let sf' := (sf.processRrPacket pkt w).1
    ⟨if sf.measures then [sf'.instantBitrate] else [], some sf'⟩

/-- A report that computes a bitrate comes later than the one before it. -/
def Later (_ : List ExtRat) (sf : Subflow) : SubflowStep → Prop
  | .send _ _ _ _ => True
  | .report pkt _ => ∀ last, sf.lastReceiverReport = some last → sf.packetCountTt > 0 →
      last.recvTime < pkt.recvTime

/-- The largest of finite bitrates that are not negative; 0 when there are none. -/
def largest (H : List ExtRat) : ℚ := (H.map toRat).foldl max 0

/-- Finite, not negative and no more than `h`. -/
def Within (x : ExtRat) (h : ℚ) : Prop := ∃ q, x = .fin q ∧ 0 ≤ q ∧ q ≤ h

/-- The state of the estimates, when `h` is the largest bitrate so far. -/
structure Bounded (sf : Subflow) (h : ℚ) : Prop where
  indicator : 0 ≤ sf.congestionIndicator ∧ sf.congestionIndicator ≤ ciMax
  cbInitialized : 0 < sf.congestionIndicator → sf.cbInitialized = true
  tbInitialized : sf.readyForDistribution = true → sf.tbInitialized = true
  instant : ∃ q, sf.instantBitrate = .fin q ∧ 0 ≤ q
  tested : Within sf.testedBitrate h
  congested : Within sf.congestedBitrate h

variable {sf : Subflow} {h b q : ℚ} {x : ExtRat}

theorem largest_concat (H : List ExtRat) : largest (H ++ [.fin b]) = max (largest H) b := by
  unfold largest
  rw [List.map_append, List.foldl_append]
  rfl

theorem Within.mono (hx : Within x h) (hle : h ≤ q) : Within x q := by
  obtain ⟨p, hp, h₀, h₁⟩ := hx
  exact ⟨p, hp, h₀, h₁.trans hle⟩

theorem Bounded.mono (hb : sf.Bounded h) (hle : h ≤ q) : sf.Bounded q :=
  { hb with
    tested := hb.tested.mono hle
    congested := hb.congested.mono hle }

theorem bounded_new (id : UInt16) (iface : ℕ) (remote : Endpoint) (w : World) :
    (Subflow.new id iface remote w).1.Bounded 0 where
  indicator := by
    change (0 : ℤ) ≤ 0 ∧ (0 : ℤ) ≤ ciMax
    decide
  cbInitialized := fun hpos => absurd hpos (lt_irrefl (0 : ℤ))
  tbInitialized := fun hready => by cases hready
  instant := ⟨0, rfl, le_refl 0⟩
  tested := ⟨0, rfl, le_refl 0, le_refl 0⟩
  congested := ⟨0, rfl, le_refl 0, le_refl 0⟩

/-- A fresh start lies below the bitrate itself. -/
theorem within_alpha (hb₀ : 0 ≤ b) (hbh : b ≤ h) : Within (.fin b * alpha) h := by
  refine ⟨b * (99 / 100), rfl, by positivity, ?_⟩
  linarith

/-- Following moves by a hundredth of the way. -/
theorem follow_within (initialized : Bool) (hx : Within x h) (hb₀ : 0 ≤ b) (hbh : b ≤ h) :
    Within (follow initialized x (.fin b)) h := by
  obtain ⟨t, rfl, ht₀, hth⟩ := hx
  unfold follow
  cases initialized with
  | false => exact within_alpha hb₀ hbh
  | true =>
    rw [if_neg (by decide)]
    split
    · refine ⟨smooth (1 / 100) t b, ?_, smooth_nonneg (by norm_num) (by norm_num) ht₀ hb₀,
        smooth_le (by norm_num) (by norm_num) hth hbh⟩
      have hone : (1 : ExtRat) = .fin 1 := rfl
      unfold alpha
      rw [hone, fin_mul_fin, fin_sub_fin, fin_mul_fin, fin_add_fin, smooth_eq]
      congr 1
      ring
    · exact ⟨t, rfl, ht₀, hth⟩

theorem Bounded.sendto (hb : sf.Bounded h) (data : List UInt8) (payloadLength : UInt32) (rtcp : Bool)
    (ret : ℤ) : (sf.sendto data payloadLength rtcp ret).2.Bounded h := by
  unfold Subflow.sendto
  dsimp only
  split
  · exact hb
  · split
    all_goals exact { hb with }

theorem Bounded.store (hb : sf.Bounded h) (pkt : RtcpRrPacket) : (sf.store pkt).Bounded h := { hb with }

/-- The indicator only goes down when it is positive. -/
theorem Bounded.relax (hb : sf.Bounded h) (hpos : 0 < sf.congestionIndicator) (w : World) :
    (sf.relax w).1.Bounded h := by
  unfold Subflow.relax
  split
  · obtain ⟨h₀, h₁⟩ := hb.indicator
    exact
      { hb with
        indicator := ⟨by dsimp only; omega, by dsimp only; omega⟩
        cbInitialized := fun _ => hb.cbInitialized hpos }
  · exact hb

theorem relax_fields (sf : Subflow) (w : World) : ∃ congestionIndicator congestionTime,
    (sf.relax w).1 = { sf with congestionIndicator, congestionTime } := by
  unfold relax
  split <;> exact ⟨_, _, rfl⟩

theorem Bounded.withoutLoss (hb : sf.Bounded h) (hb₀ : 0 ≤ b) (hbh : b ≤ h) (w : World) :
    (sf.withoutLoss (.fin b) w).1.Bounded h ∧ (sf.withoutLoss (.fin b) w).1.tbInitialized = true := by
  have htested := follow_within sf.tbInitialized hb.tested hb₀ hbh
  unfold Subflow.withoutLoss
  dsimp only
  split
  · rename_i hpos
    have hbounded : Bounded
        { sf with
          instantBitrate := .fin b
          testedBitrate := follow sf.tbInitialized sf.testedBitrate (.fin b)
          tbInitialized := true
          congestedBitrate := follow sf.cbInitialized sf.congestedBitrate (.fin b)
          cbInitialized := true } h :=
      { indicator := hb.indicator
        cbInitialized := fun _ => rfl
        tbInitialized := fun _ => rfl
        instant := ⟨b, rfl, hb₀⟩
        tested := htested
        congested := follow_within sf.cbInitialized hb.congested hb₀ hbh }
    refine ⟨hbounded.relax hpos w, ?_⟩
    obtain ⟨congestionIndicator, congestionTime, hfields⟩ := relax_fields _ w
    rw [hfields]
  · have hbounded : Bounded
        { sf with
          instantBitrate := .fin b
          testedBitrate := follow sf.tbInitialized sf.testedBitrate (.fin b)
          tbInitialized := true } h :=
      { hb with
        tbInitialized := fun _ => rfl
        instant := ⟨b, rfl, hb₀⟩
        tested := htested }
    exact ⟨hbounded, rfl⟩

theorem Bounded.withLoss (hb : sf.Bounded h) (hb₀ : 0 ≤ b) (hbh : b ≤ h) (w : World) :
    (sf.withLoss (.fin b) w).1.Bounded h := by
  obtain ⟨h₀, h₁⟩ := hb.indicator
  constructor
  · unfold Subflow.withLoss ciMax at *
    dsimp only
    split <;> omega
  · exact fun _ => rfl
  · exact fun _ => rfl
  · exact ⟨b, rfl, hb₀⟩
  · exact within_alpha hb₀ hbh
  · exact within_alpha hb₀ hbh

theorem measure_instantBitrate (sf : Subflow) (last pkt : RtcpRrPacket) (w : World) :
    (sf.measure last pkt w).1.instantBitrate = sf.bitrate last pkt := by
  unfold measure
  dsimp only
  split
  · unfold Subflow.withoutLoss
    dsimp only
    split
    · obtain ⟨congestionIndicator, congestionTime, hfields⟩ := relax_fields _ w
      rw [hfields]
    · rfl
  · rfl

theorem Bounded.measure (hb : sf.Bounded h) {last pkt : RtcpRrPacket} (hbit : sf.bitrate last pkt = .fin b)
    (hb₀ : 0 ≤ b) (hbh : b ≤ h) (w : World) : (sf.measure last pkt w).1.Bounded h := by
  unfold Subflow.measure
  dsimp only
  rw [hbit]
  split
  · obtain ⟨hbounded, htb⟩ := hb.withoutLoss hb₀ hbh w
    exact { hbounded with tbInitialized := fun _ => htb }
  · have hbounded := hb.withLoss hb₀ hbh w
    exact { hbounded with tbInitialized := fun _ => rfl }

/-- What is known of each bitrate that is computed. -/
def Computed (_ : List ExtRat) (x : ExtRat) : Prop := ∃ q, x = .fin q ∧ 0 ≤ q

theorem Bounded.report {H : List ExtRat} (hb : sf.Bounded (largest H)) {pkt : RtcpRrPacket} {w : World}
    (hlater : Later H sf (.report pkt w)) :
    (sf.step (.report pkt w)).Sat Computed H fun H' sf' => sf'.Bounded (largest H') := by
  unfold Subflow.step Subflow.measures Subflow.processRrPacket
  cases hlast : sf.lastReceiverReport with
  | none => exact Exec.sat_pure (hb.store pkt)
  | some last =>
    by_cases htt : sf.packetCountTt > 0
    · obtain ⟨b, hbit, hb₀, -⟩ := bitrate_fin (UInt32.pos_iff_ne_zero.mp htt) (hlater last hlast htt)
      have hinstant : ((sf.measure last pkt w).1.store pkt).instantBitrate = .fin b :=
        (sf.measure_instantBitrate last pkt w).trans hbit
      have hmax := (hb.mono (le_max_left _ b)).measure hbit hb₀ (le_max_right _ _) w
      simp only [Option.isSome_some, Bool.true_and, htt, decide_true, if_true]
      rw [hinstant]
      refine Exec.sat_single ⟨b, rfl, hb₀⟩ ?_
      rw [largest_concat]
      exact hmax.store pkt
    · simp only [Option.isSome_some, Bool.true_and, htt, decide_false, if_false]
      exact Exec.sat_pure (hb.store pkt)

theorem Bounded.step {H : List ExtRat} {e : SubflowStep} (hb : sf.Bounded (largest H))
    (hlater : Later H sf e) :
    (sf.step e).Sat Computed H fun H' sf' => sf'.Bounded (largest H') := by
  cases e with
  | send data payloadLength rtcp ret => exact Exec.sat_pure (hb.sendto data payloadLength rtcp ret)
  | report pkt w => exact hb.report hlater

/-- The indicator and the bitrates stay in their ranges in every run. -/
theorem run_bounded {id : UInt16} {iface : ℕ} {remote : Endpoint} {w : World} {H : List ExtRat}
    (hrun : Run Subflow.step Later (Subflow.new id iface remote w).1 H (some sf)) :
    (∀ x ∈ H, ∃ q, x = .fin q ∧ 0 ≤ q) ∧ sf.Bounded (largest H) := by
  have hstep : ∀ H sf e, Bounded sf (largest H) → Later H sf e →
      (sf.step e).Sat Computed H fun H' sf' => sf'.Bounded (largest H') :=
    fun _ _ _ hb hlater => hb.step hlater
  obtain ⟨hgood, hinv⟩ := Run.sat (bounded_new id iface remote w) hstep hrun
  refine ⟨?_, hinv sf rfl⟩
  intro x hx
  obtain ⟨pre, post, rfl⟩ := List.append_of_mem hx
  exact hgood pre x post rfl

/-- A report at `time` seconds with the highest number `high`. -/
def lossReport (time : ℚ) (high : UInt32) (fractionlost : UInt8) : RtcpRrPacket :=
  ⟨time, ⟨0x0A000001, 23001⟩, 0xDEAD, fractionlost, 0, high, 0, 0, 0⟩

/-- A report, a datagram of ten bytes, and a report of loss a second after the first one. -/
def lossySteps : List SubflowStep :=
  [.report (lossReport 1 10 0) (.ticking 1), .send [0x80] 10 false 1,
    .report (lossReport 2 14 64) (.ticking 2)]

def pathStart : Subflow := (Subflow.new 1 0 ⟨0x0B000001, 23000⟩ (.ticking 0)).1

def lossyPath : Exec ExtRat Subflow := lossySteps.foldlM Subflow.step pathStart

theorem lossyPath_bounded : ∃ sf, lossyPath.res = some sf ∧ sf.congestionIndicator = 1 ∧
    (∀ x ∈ lossyPath.log, ∃ q, x = .fin q ∧ 0 ≤ q) ∧ sf.Bounded (largest lossyPath.log) := by
  have hrun : Run Subflow.step Later pathStart lossyPath.log lossyPath.res := by
    apply Run.foldlM_of _ lossySteps
    intro n e st he hst
    match n, he with
    | 0, he => cases he; cases hst; intro last hlast; cases hlast
    | 1, he => cases he; trivial
    | 2, he => cases he; cases hst; intro last hlast _; cases hlast; exact one_lt_two
  exact ⟨_, rfl, rfl, run_bounded hrun⟩

end Subflow

end Mprtp
