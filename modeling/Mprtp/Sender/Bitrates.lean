import Mprtp.Subflow
import Mathlib.Tactic.Linarith
import Mathlib.Tactic.NormNum
import Mathlib.Tactic.Positivity

/-! What one receiver report does to the bitrates of a subflow. -/
namespace Mprtp

open ExtRat

theorem toNat_ne_zero_iff {a : UInt32} : a.toNat ≠ 0 ↔ a ≠ 0 := by
  rw [ne_eq, ne_eq, ← UInt32.toNat_inj]
  rfl

namespace Subflow

/-- A report that shows progress since the last one: a higher sequence number, and payload was
sent. -/
def Progress (sf : Subflow) (last pkt : RtcpRrPacket) : Prop :=
  hsnDiff last pkt ≠ 0 ∧ sf.octetCountTt ≠ 0

/-- The instantaneous bitrate is finite and not negative, and positive exactly with progress. -/
theorem bitrate_fin {sf : Subflow} {last pkt : RtcpRrPacket} (htt : sf.packetCountTt ≠ 0)
    (htime : last.recvTime < pkt.recvTime) :
    ∃ b, sf.bitrate last pkt = .fin b ∧ 0 ≤ b ∧ (0 < b ↔ sf.Progress last pkt) := by
  have htt' : (sf.packetCountTt.toNat : ℚ) ≠ 0 := by
    exact_mod_cast toNat_ne_zero_iff.mpr htt
  have hdiff : 0 < pkt.recvTime - last.recvTime := sub_pos.mpr htime
  have hloss : (0 : ℚ) < 1 - pkt.fractionlost.toNat / 256 := by
    have hlt : (pkt.fractionlost.toNat : ℚ) < 256 := by
      exact_mod_cast pkt.fractionlost.toNat_lt
    linarith
  unfold bitrate
  dsimp only
  rw [fin_div_fin htt', fin_mul_fin, fin_mul_fin, fin_div_fin hdiff.ne']
  refine ⟨_, rfl, ?_, ?_⟩
  · positivity
  · rw [div_pos_iff_of_pos_right hdiff]
    unfold Progress
    constructor
    · intro h
      constructor
      · intro h0
        rw [h0] at h
        simp at h
      · intro h0
        rw [h0] at h
        simp at h
    · intro h'
      obtain ⟨hh, ho⟩ := h'
      have hh' : (0 : ℚ) < (hsnDiff last pkt).toNat := by
        exact_mod_cast Nat.pos_of_ne_zero (toNat_ne_zero_iff.mpr hh)
      have ho' : (0 : ℚ) < sf.octetCountTt.toNat := by
        exact_mod_cast Nat.pos_of_ne_zero (toNat_ne_zero_iff.mpr ho)
      have htt₀ : (0 : ℚ) < sf.packetCountTt.toNat := by
        exact_mod_cast Nat.pos_of_ne_zero (toNat_ne_zero_iff.mpr htt)
      positivity

/-- Following a bitrate keeps a finite value that is not negative. -/
theorem follow_fin {initialized : Bool} {t b : ℚ} (ht : 0 ≤ t) (hb : 0 ≤ b)
    (hinit : initialized = false → t = 0) :
    ∃ t', follow initialized (.fin t) (.fin b) = .fin t' ∧ 0 ≤ t' ∧ (0 < t' ↔ 0 < b ∨ 0 < t) := by
  unfold follow alpha
  cases initialized with
  | false =>
    have ht0 : t = 0 := hinit rfl
    refine ⟨b * (99 / 100), rfl, by positivity, ?_⟩
    rw [ht0]
    constructor
    · intro h
      exact Or.inl (by linarith)
    · intro h'
      rcases h' with h | h
      · linarith
      · exact absurd h (lt_irrefl 0)
  | true =>
    by_cases hlt : t < b
    · refine ⟨t * (99 / 100) + (1 - 99 / 100) * b, ?_, by linarith, ?_⟩
      · have hlt' : (ExtRat.fin t) < .fin b := fin_lt_fin.mpr hlt
        have hone : (1 : ExtRat) = .fin 1 := rfl
        rw [if_neg (by decide), if_pos hlt', hone, fin_mul_fin, fin_sub_fin, fin_mul_fin,
          fin_add_fin]
      · constructor
        · exact fun _ => Or.inl (lt_of_le_of_lt ht hlt)
        · intro _
          linarith
    · have hlt' : ¬ (ExtRat.fin t) < .fin b := mt fin_lt_fin.mp hlt
      refine ⟨t, ?_, ht, ?_⟩
      · rw [if_neg (by decide), if_neg hlt']
      · constructor
        · exact Or.inr
        · intro h'
          rcases h' with h | h
          · linarith
          · exact h

/-- The bitrates of a subflow are in order; `live` says whether the tested one is positive. -/
structure Tracked (sf : Subflow) (live : Prop) : Prop where
  tested : ∃ t, sf.testedBitrate = .fin t ∧ 0 ≤ t ∧ (0 < t ↔ live)
  uninitialized : sf.tbInitialized = false → sf.testedBitrate = 0
  indicator : 0 ≤ sf.congestionIndicator ∧ sf.congestionIndicator ≤ ciMax
  congested : 0 < sf.congestionIndicator →
    sf.congestedBitrate = sf.testedBitrate ∧ sf.tbInitialized = true ∧ sf.cbInitialized = true

theorem tracked_new (id : UInt16) (iface : ℕ) (remote : Endpoint) (w : World) :
    (Subflow.new id iface remote w).1.Tracked False where
  tested := ⟨0, rfl, le_refl 0, by simp⟩
  uninitialized _ := rfl
  indicator := by
    change (0 : ℤ) ≤ 0 ∧ (0 : ℤ) ≤ ciMax
    decide
  congested h := absurd h (lt_irrefl (0 : ℤ))

/-- The last report and what it has made of the bitrates are the same. -/
structure Kept (sf sf' : Subflow) : Prop where
  report : sf'.lastReceiverReport = sf.lastReceiverReport
  tested : sf'.testedBitrate = sf.testedBitrate
  tbInit : sf'.tbInitialized = sf.tbInitialized
  congested : sf'.congestedBitrate = sf.congestedBitrate
  cbInit : sf'.cbInitialized = sf.cbInitialized
  indicator : sf'.congestionIndicator = sf.congestionIndicator

theorem Kept.refl (sf : Subflow) : sf.Kept sf := ⟨rfl, rfl, rfl, rfl, rfl, rfl⟩

theorem Kept.trans {sf₁ sf₂ sf₃ : Subflow} (h : sf₁.Kept sf₂) (h' : sf₂.Kept sf₃) : sf₁.Kept sf₃ where
  report := h'.report.trans h.report
  tested := h'.tested.trans h.tested
  tbInit := h'.tbInit.trans h.tbInit
  congested := h'.congested.trans h.congested
  cbInit := h'.cbInit.trans h.cbInit
  indicator := h'.indicator.trans h.indicator

theorem Tracked.congr {sf sf' : Subflow} {live live' : Prop} (h : sf.Tracked live)
    (hlive : live ↔ live') (ht : sf'.testedBitrate = sf.testedBitrate)
    (hti : sf'.tbInitialized = sf.tbInitialized) (hc : sf'.congestedBitrate = sf.congestedBitrate)
    (hci : sf'.cbInitialized = sf.cbInitialized)
    (hi : sf'.congestionIndicator = sf.congestionIndicator) : sf'.Tracked live' where
  tested := by
    rw [ht, ← hlive]
    exact h.tested
  uninitialized := by
    rw [ht, hti]
    exact h.uninitialized
  indicator := by
    rw [hi]
    exact h.indicator
  congested := by
    rw [ht, hti, hc, hci, hi]
    exact h.congested

theorem Kept.tracked {sf sf' : Subflow} (hk : sf.Kept sf') {live : Prop} (h : sf.Tracked live) :
    sf'.Tracked live :=
  h.congr Iff.rfl hk.tested hk.tbInit hk.congested hk.cbInit hk.indicator

/-- The indicator goes down by at most one, and only when it is positive. -/
theorem relax_spec (sf : Subflow) (w : World) (hpos : 0 < sf.congestionIndicator) :
    let sf' := (sf.relax w).1
    sf'.testedBitrate = sf.testedBitrate ∧ sf'.tbInitialized = sf.tbInitialized ∧
      sf'.congestedBitrate = sf.congestedBitrate ∧ sf'.cbInitialized = sf.cbInitialized ∧
      0 ≤ sf'.congestionIndicator ∧ sf'.congestionIndicator ≤ sf.congestionIndicator := by
  unfold relax
  split
  · dsimp only
    refine ⟨rfl, rfl, rfl, rfl, ?_, ?_⟩ <;> omega
  · exact ⟨rfl, rfl, rfl, rfl, hpos.le, le_refl _⟩

theorem Tracked.withoutLoss {sf : Subflow} {live : Prop} (h : sf.Tracked live) {b : ℚ}
    (hb : 0 ≤ b) (w : World) : (sf.withoutLoss (.fin b) w).1.Tracked (0 < b ∨ live) := by
  obtain ⟨t, htb, ht, hlive⟩ := h.tested
  have hinit : sf.tbInitialized = false → t = 0 := by
    intro hi
    have h0 := h.uninitialized hi
    rwa [htb, fin_eq_zero] at h0
  obtain ⟨t', hfollow, ht', hpos⟩ := follow_fin ht hb hinit
  rw [hlive] at hpos
  unfold Subflow.withoutLoss
  dsimp only
  rw [htb, hfollow]
  by_cases hci : sf.congestionIndicator > 0
  · obtain ⟨hcb, hti, hcbi⟩ := h.congested hci
    have hcfollow : follow sf.cbInitialized sf.congestedBitrate (.fin b) = .fin t' := by
      rw [hcb, hcbi, ← hti, htb, hfollow]
    rw [if_pos hci, hcfollow]
    obtain ⟨h₁, h₂, h₃, h₄, h₅, h₆⟩ := relax_spec
      { sf with
        instantBitrate := .fin b
        testedBitrate := .fin t'
        tbInitialized := true
        congestedBitrate := .fin t'
        cbInitialized := true } w hci
    refine ⟨⟨t', h₁, ht', hpos⟩, ?_, ⟨h₅, h₆.trans h.indicator.2⟩, ?_⟩
    · intro hi
      rw [h₂] at hi
      cases hi
    · intro _
      exact ⟨h₃.trans h₁.symm, h₂, h₄⟩
  · rw [if_neg hci]
    refine ⟨⟨t', rfl, ht', hpos⟩, ?_, h.indicator, ?_⟩
    · intro hi
      cases hi
    · exact fun hi => absurd hi hci

theorem Tracked.withLoss {sf : Subflow} {live : Prop} (h : sf.Tracked live) {b : ℚ}
    (hb : 0 ≤ b) (w : World) : (sf.withLoss (.fin b) w).1.Tracked (0 < b) := by
  unfold Subflow.withLoss alpha
  refine ⟨⟨b * (99 / 100), rfl, by positivity, ?_⟩, ?_, ?_, ?_⟩
  · constructor
    · intro hpos
      linarith
    · intro hpos
      positivity
  · intro hi
    cases hi
  · obtain ⟨h₀, h₁⟩ := h.indicator
    dsimp only
    unfold ciMax at *
    split <;> omega
  · exact fun _ => ⟨rfl, rfl, rfl⟩

/-- A report that computes the bitrates. -/
theorem Tracked.measure {sf : Subflow} {live : Prop} (h : sf.Tracked live)
    {last pkt : RtcpRrPacket} (htt : sf.packetCountTt ≠ 0) (htime : last.recvTime < pkt.recvTime)
    (w : World) : (sf.measure last pkt w).1.Tracked
      (sf.Progress last pkt ∨ pkt.fractionlost = 0 ∧ live) := by
  obtain ⟨b, hbit, hb, hpos⟩ := bitrate_fin htt htime
  unfold Subflow.measure
  dsimp only
  rw [hbit]
  by_cases hl : pkt.fractionlost = 0
  · rw [if_pos hl]
    have ht := h.withoutLoss hb w
    exact ht.congr (by rw [hpos]; simp [hl]) rfl rfl rfl rfl rfl
  · rw [if_neg hl]
    have ht := h.withLoss hb w
    exact ht.congr (by rw [hpos]; simp [hl]) rfl rfl rfl rfl rfl

end Subflow

end Mprtp
