import Mprtp.Sender.Shares
import Mprtp.Lib.Sums
import Mathlib.Algebra.Order.BigOperators.Group.List
import Mathlib.Tactic.FieldSimp
import Mathlib.Tactic.Linarith

/-! What the percentages of a distribution are, and what they add up to, in exact arithmetic. -/
namespace Mprtp

open ExtRat

namespace SenderData

variable {d : SenderData}

theorem sumOf_fin {f : Subflow → ExtRat} {q : Subflow → ℚ} {sfs : List Subflow}
    (h : ∀ sf ∈ sfs, f sf = fin (q sf)) : sumOf f sfs = fin (sfs.map q).sum := by
  have hsum := foldl_add_fin h 0
  rw [zero_add] at hsum
  exact hsum

theorem recalcSubflowPercentage_res (hready : ∀ sf ∈ d.subflows, sf.readyForDistribution = true) :
    d.recalcSubflowPercentage.res =
      some (d.subflows.map fun sf => sf.setPercentage (d.percentageOf sf)) := by
  obtain ⟨l, hl, -⟩ := recalcSubflowPercentage_eq hready
  rw [hl]

/-- The tested bitrate as a rational number. -/
def testedRate (sf : Subflow) : ℚ := sf.testedBitrate.toRat

/-- The sum of all tested bitrates. -/
def wholeRate (d : SenderData) : ℚ := (d.subflows.map testedRate).sum

/-- The part of the subflows that are neither congested nor lossy. -/
def restRate (d : SenderData) : ℚ := ((d.subflows.filter fun sf => !sf.limited).map testedRate).sum

theorem sumTB_split (htested : ∀ sf ∈ d.subflows, ∃ q, sf.testedBitrate = fin q) :
    d.sumTB = fin d.wholeRate ∧ d.unassignedTB = fin d.restRate ∧
    ((d.subflows.filter Subflow.limited).map testedRate).sum + d.restRate = d.wholeRate := by
  have hfin : ∀ sf ∈ d.subflows, sf.testedBitrate = fin (testedRate sf) := by
    intro sf hsf
    obtain ⟨q, hq⟩ := htested sf hsf
    unfold testedRate
    rw [hq, toRat_fin]
  refine ⟨sumOf_fin hfin, ?_, sum_map_filter_not _ _ _⟩
  exact sumOf_fin fun sf hsf => hfin sf (List.mem_of_mem_filter hsf)

theorem testedBitrate_div (htested : ∀ sf ∈ d.subflows, ∃ q, sf.testedBitrate = fin q)
    (hpos : 0 < d.wholeRate) {sf : Subflow} (hsf : sf ∈ d.subflows) :
    sf.testedBitrate / d.sumTB = fin (testedRate sf / d.wholeRate) := by
  obtain ⟨q, hq⟩ := htested sf hsf
  unfold testedRate
  rw [(sumTB_split htested).1, hq, fin_div_fin hpos.ne', toRat_fin]

/-- When the subflows with a limit get their shares in full, the rest is the shares of the others. -/
theorem rest_of_full_shares (htested : ∀ sf ∈ d.subflows, ∃ q, sf.testedBitrate = fin q)
    (hpos : 0 < d.wholeRate) (hfull : ∀ sf ∈ d.subflows, sf.limited = true →
      sf.limitedShare d.streamBitrate d.sumTB = sf.testedBitrate / d.sumTB)
    (h0 : d.unassignedTB ≠ 0) {sf : Subflow} (hsf : sf ∈ d.subflows) :
    sf.testedBitrate / d.unassignedTB * (1 - d.assigned) = sf.testedBitrate / d.sumTB := by
  obtain ⟨hS, hU, hsplit⟩ := sumTB_split htested
  have hassigned : d.assigned =
      fin (((d.subflows.filter Subflow.limited).map testedRate).sum / d.wholeRate) := by
    unfold assigned
    rw [← sum_map_div]
    apply sumOf_fin
    intro sf' h'
    obtain ⟨hmem, hlim⟩ := List.mem_filter.mp h'
    rw [hfull sf' hmem hlim, testedBitrate_div htested hpos hmem]
  have hU0 : d.restRate ≠ 0 := by
    rwa [hU, ne_eq, fin_eq_zero] at h0
  have hone : (1 : ExtRat) = fin 1 := rfl
  obtain ⟨q, hq⟩ := htested sf hsf
  rw [hassigned, hS, hU, hq, hone, fin_div_fin hU0, fin_div_fin hpos.ne', fin_sub_fin, fin_mul_fin, ← hsplit]
  rw [← hsplit] at hpos
  congr 1
  field_simp
  ring

/-- While no subflow is congested, each one has its share of the tested bitrates afterwards exactly
when no limit of a lossy one is below its share. -/
theorem testedShares_iff (hready : ∀ sf ∈ d.subflows, sf.readyForDistribution = true)
    (hclear : ∀ sf ∈ d.subflows, sf.congestionIndicator < ciMax)
    (htested : ∀ sf ∈ d.subflows, ∃ q, sf.testedBitrate = fin q) (hsum : 0 < d.sumTB) :
    d.recalcSubflowPercentage.res =
        some (d.subflows.map fun sf => sf.setPercentage (sf.testedBitrate / d.sumTB)) ↔
      ∀ sf ∈ d.subflows, sf.isLossy = true →
        ¬ gamma * sf.congestedBitrate / d.streamBitrate < sf.testedBitrate / d.sumTB := by
  have hpos : 0 < d.wholeRate := by
    rw [(sumTB_split htested).1] at hsum
    exact fin_lt_fin.mp hsum
  have hnone : ∀ sf ∈ d.subflows, sf.isCongested = false := by
    intro sf hsf
    have hlt := hclear sf hsf
    unfold Subflow.isCongested
    exact decide_eq_false hlt.ne
  have hnall : ¬ ∀ sf ∈ d.subflows, sf.isCongested = true := by
    intro hall
    have hnil : d.subflows = [] := by
      rw [List.eq_nil_iff_forall_not_mem]
      intro sf hsf
      exact absurd (hall sf hsf) (by simp [hnone sf hsf])
    unfold wholeRate at hpos
    rw [hnil] at hpos
    exact lt_irrefl 0 hpos
  have hnex : ¬ ∃ sf ∈ d.subflows, sf.isCongested = true := by
    rintro ⟨sf, hsf, hcong⟩
    rw [hnone sf hsf] at hcong
    cases hcong
  have hlossy : ∀ sf ∈ d.subflows, (sf.isLossy = true ↔ sf.limited = true) := by
    intro sf hsf
    unfold Subflow.limited
    rw [hnone sf hsf, Bool.false_or]
  have hfull : ∀ sf ∈ d.subflows, (sf.limitedShare d.streamBitrate d.sumTB = sf.testedBitrate / d.sumTB ↔
      ¬ gamma * sf.congestedBitrate / d.streamBitrate < sf.testedBitrate / d.sumTB) := by
    intro sf hsf
    have hlimit : sf.limit d.streamBitrate = gamma * sf.congestedBitrate / d.streamBitrate := by
      unfold Subflow.limit
      rw [hnone sf hsf]
      rfl
    unfold Subflow.limitedShare
    rw [hlimit, testedBitrate_div htested hpos hsf, stdMin_eq_left_iff]
  rw [recalcSubflowPercentage_res hready, Option.some.injEq, List.map_inj_left]
  constructor
  · intro h sf hsf hl
    have hlim := (hlossy sf hsf).mp hl
    have heq : d.percentageOf sf = sf.testedBitrate / d.sumTB := congrArg Subflow.percentage (h sf hsf)
    unfold percentageOf at heq
    rw [if_neg hnall, if_pos hlim] at heq
    exact (hfull sf hsf).mp heq
  · intro h sf hsf
    have hfull' : ∀ sf ∈ d.subflows, sf.limited = true →
        sf.limitedShare d.streamBitrate d.sumTB = sf.testedBitrate / d.sumTB := by
      intro sf hsf hlim
      exact (hfull sf hsf).mpr (h sf hsf ((hlossy sf hsf).mpr hlim))
    congr 1
    unfold percentageOf
    rw [if_neg hnall]
    by_cases hlim : sf.limited = true
    · rw [if_pos hlim]
      exact hfull' sf hsf hlim
    · rw [if_neg hlim, if_neg hnex]
      by_cases h0 : d.unassignedTB = 0
      · rw [if_neg (not_not.mpr h0)]
      · rw [if_pos h0]
        exact rest_of_full_shares htested hpos hfull' h0 hsf

/-- A subflow that is ready, with its congestion indicator and its rates. -/
def readyPath (id : UInt16) (congestionIndicator : ℤ) (tb cb : ℚ) : Subflow where
  sequesnceNumber := 0
  subflowId := id
  remote := ⟨0x0A000002, 23000⟩
  iface := 0
  testedBitrate := fin tb
  tbInitialized := true
  congestedBitrate := fin cb
  cbInitialized := true
  congestionIndicator
  readyForDistribution := true

def readyPaths (subflows : List Subflow) (streamBitrate : ℚ) : SenderData where
  sequesnceNumber := 1
  timestampUnit := 1
  subflows
  streamBitrate := fin streamBitrate

/-- A lossy path, and one that is not, at a stream bitrate of 200. -/
def lossyAndClean (cb : ℚ) : SenderData := readyPaths [readyPath 1 1 99 cb, readyPath 2 0 99 0] 200

theorem lossyAndClean_testedShares :
    (lossyAndClean 400).recalcSubflowPercentage.res = some ((lossyAndClean 400).subflows.map fun sf =>
      sf.setPercentage (sf.testedBitrate / (lossyAndClean 400).sumTB)) := by
  have htested : ∀ sf ∈ (lossyAndClean 400).subflows, ∃ q, sf.testedBitrate = fin q := by
    intro sf hsf
    refine ⟨99, ?_⟩
    revert sf
    decide
  exact (testedShares_iff (by decide) (by decide) htested (by decide +kernel)).mpr (by decide +kernel)

theorem lossyAndClean_limited :
    ¬ ∀ d : SenderData, (∀ sf ∈ d.subflows, sf.readyForDistribution = true) →
      (∀ sf ∈ d.subflows, sf.congestionIndicator < ciMax) →
      (∀ sf ∈ d.subflows, ∃ q, sf.testedBitrate = fin q) → 0 < d.sumTB →
      (∀ sf ∈ d.subflows, ∃ q, sf.congestedBitrate = fin q) → (∃ q ≠ 0, d.streamBitrate = fin q) →
      d.recalcSubflowPercentage.res =
        some (d.subflows.map fun sf => sf.setPercentage (sf.testedBitrate / d.sumTB)) := by
  intro h
  have htested : ∀ sf ∈ (lossyAndClean 99).subflows, ∃ q, sf.testedBitrate = fin q := by
    intro sf hsf
    refine ⟨99, ?_⟩
    revert sf
    decide
  have hcongested : ∀ sf ∈ (lossyAndClean 99).subflows, ∃ q, sf.congestedBitrate = fin q := by
    unfold lossyAndClean readyPaths
    rw [List.forall_mem_cons, List.forall_mem_singleton]
    exact ⟨⟨99, rfl⟩, ⟨0, rfl⟩⟩
  have hres := h (lossyAndClean 99) (by decide) (by decide) htested (by decide +kernel) hcongested
    ⟨200, by decide, rfl⟩
  have hpercentages := congrArg (Option.map (List.map Subflow.percentage)) hres
  -- three quarters of 99 of 200 are less than a half
  exact absurd hpercentages (by decide +kernel)

/-- Every percentage is at least zero, and they add up to one. -/
def FullyShared (sfs : List Subflow) : Prop :=
  (∀ sf ∈ sfs, ∃ q, sf.percentage = fin q ∧ 0 ≤ q) ∧ sumOf Subflow.percentage sfs = 1

/-- The rates and the percentages are rational numbers, and the rates of the subflows not negative. -/
structure Exact (d : SenderData) : Prop where
  stream : ∃ q, d.streamBitrate = fin q
  tested : ∀ sf ∈ d.subflows, ∃ q, sf.testedBitrate = fin q ∧ 0 ≤ q
  congested : ∀ sf ∈ d.subflows, ∃ q, sf.congestedBitrate = fin q ∧ 0 ≤ q
  percentage : ∀ sf ∈ d.subflows, ∃ q, sf.percentage = fin q

section

variable (d : SenderData)

/-- The share that the tested bitrate of a subflow makes of the sum. -/
def shareOf (sf : Subflow) : ℚ := testedRate sf / d.wholeRate

def limitOf (sf : Subflow) : ℚ := (sf.limit d.streamBitrate).toRat

/-- What the limits take from the shares of the subflows that are congested or lossy. -/
def released : ℚ :=
  ((d.subflows.filter Subflow.limited).map fun sf => max 0 (d.shareOf sf - d.limitOf sf)).sum

/-- What a subflow that is neither has from before, as far as it is kept. -/
def held (sf : Subflow) : ℚ :=
  if ∃ sf ∈ d.subflows, sf.isCongested = true then sf.percentage.toRat else 0

/-- What is taken from some subflows goes to others: all are congested, or no limit is negative and
those that are neither congested nor lossy have tested bitrates to share the rest by, or hold it. -/
def Balanced : Prop :=
  (∀ sf ∈ d.subflows, sf.isCongested = true) ∨
    (∀ sf ∈ d.subflows, sf.limited = true → 0 ≤ d.limitOf sf) ∧
      (d.unassignedTB ≠ 0 ∨
        (∀ sf ∈ d.subflows, sf.limited = false → 0 ≤ d.held sf) ∧
          ((d.subflows.filter fun sf => !sf.limited).map d.held).sum = d.released)

end

/-- The percentages of all subflows once they are known to be rational numbers. -/
theorem fullyShared_iff {q : Subflow → ℚ} (hq : ∀ sf ∈ d.subflows, d.percentageOf sf = fin (q sf)) :
    FullyShared (d.subflows.map fun sf => sf.setPercentage (d.percentageOf sf)) ↔
      (∀ sf ∈ d.subflows, 0 ≤ q sf) ∧ (d.subflows.map q).sum = 1 := by
  have hsum : sumOf Subflow.percentage (d.subflows.map fun sf => sf.setPercentage (d.percentageOf sf)) =
      fin (d.subflows.map q).sum := by
    unfold sumOf
    rw [List.foldl_map]
    exact sumOf_fin hq
  have hone : (1 : ExtRat) = fin 1 := rfl
  unfold FullyShared
  rw [hsum, hone, fin.injEq]
  apply and_congr_left'
  rw [List.forall_mem_map]
  apply forall₂_congr
  intro sf hsf
  change (∃ r, d.percentageOf sf = fin r ∧ 0 ≤ r) ↔ 0 ≤ q sf
  rw [hq sf hsf]
  constructor
  · intro h
    obtain ⟨r, hr, hr0⟩ := h
    cases hr
    exact hr0
  · exact fun h => ⟨_, rfl, h⟩

/-- What the limits leave of the shares of the subflows that are congested or lossy. -/
def assignedShare (d : SenderData) : ℚ :=
  ((d.subflows.filter Subflow.limited).map fun sf => min (d.shareOf sf) (d.limitOf sf)).sum

namespace Exact

variable {sf : Subflow}

theorem tested_nonneg (h : d.Exact) (hsf : sf ∈ d.subflows) : 0 ≤ testedRate sf := by
  obtain ⟨q, hq, hq0⟩ := h.tested sf hsf
  unfold testedRate
  rwa [hq, toRat_fin]

theorem testedBitrate (h : d.Exact) (hsf : sf ∈ d.subflows) : sf.testedBitrate = fin (testedRate sf) := by
  obtain ⟨q, hq, -⟩ := h.tested sf hsf
  unfold testedRate
  rw [hq, toRat_fin]

theorem sums (h : d.Exact) : d.sumTB = fin d.wholeRate ∧
    d.unassignedTB = fin d.restRate ∧
    ((d.subflows.filter Subflow.limited).map testedRate).sum +
      d.restRate =
        d.wholeRate := by
  apply sumTB_split
  intro sf hsf
  exact ⟨_, h.testedBitrate hsf⟩

theorem sum_nonneg (h : d.Exact) (p : Subflow → Bool) :
    0 ≤ ((d.subflows.filter p).map testedRate).sum := by
  apply List.sum_nonneg
  rw [List.forall_mem_map]
  exact fun sf hsf => h.tested_nonneg (List.mem_of_mem_filter hsf)

theorem limit (h : d.Exact) (hsb : d.streamBitrate ≠ 0) (hsf : sf ∈ d.subflows) :
    sf.limit d.streamBitrate = fin (d.limitOf sf) := by
  obtain ⟨sb, hstream⟩ := h.stream
  obtain ⟨cb, hcb, -⟩ := h.congested sf hsf
  have hne : sb ≠ 0 := by
    intro h0
    rw [hstream, h0] at hsb
    exact hsb rfl
  obtain ⟨k, hk⟩ : ∃ k, (if sf.isCongested then beta else gamma) = fin k := by
    split
    · exact ⟨_, rfl⟩
    · exact ⟨_, rfl⟩
  unfold limitOf Subflow.limit
  rw [hk, hcb, hstream, fin_mul_fin, fin_div_fin hne, toRat_fin]

theorem limitedShare (h : d.Exact) (hS : d.wholeRate ≠ 0)
    (hsb : d.streamBitrate ≠ 0) (hsf : sf ∈ d.subflows) :
    sf.limitedShare d.streamBitrate d.sumTB = fin (min (d.shareOf sf) (d.limitOf sf)) := by
  unfold Subflow.limitedShare shareOf
  rw [h.limit hsb hsf, h.testedBitrate hsf, h.sums.1, fin_div_fin hS, stdMin_fin]

theorem assigned (h : d.Exact) (hS : d.wholeRate ≠ 0)
    (hsb : (∃ sf ∈ d.subflows, sf.limited = true) → d.streamBitrate ≠ 0) :
    d.assigned = fin d.assignedShare := by
  apply sumOf_fin
  intro sf hsf
  obtain ⟨hmem, hlim⟩ := List.mem_filter.mp hsf
  exact h.limitedShare hS (hsb ⟨sf, hmem, hlim⟩) hmem

/-- The percentages unless all subflows are congested; the others have the percentages `o`. -/
theorem fullyShared_iff_limits (h : d.Exact) (hnall : ¬ ∀ sf ∈ d.subflows, sf.isCongested = true)
    (hS : 0 < d.wholeRate)
    (hsb : (∃ sf ∈ d.subflows, sf.limited = true) → d.streamBitrate ≠ 0) {o : Subflow → ℚ}
    (ho : ∀ sf ∈ d.subflows, sf.limited = false → d.percentageOf sf = fin (o sf)) :
    FullyShared (d.subflows.map fun sf => sf.setPercentage (d.percentageOf sf)) ↔
      (∀ sf ∈ d.subflows, sf.limited = true → 0 ≤ d.limitOf sf) ∧
      (∀ sf ∈ d.subflows, sf.limited = false → 0 ≤ o sf) ∧
      d.assignedShare + ((d.subflows.filter fun sf => !sf.limited).map o).sum = 1 := by
  have hq : ∀ sf ∈ d.subflows, d.percentageOf sf =
      fin (if sf.limited then min (d.shareOf sf) (d.limitOf sf) else o sf) := by
    intro sf hsf
    by_cases hlim : sf.limited = true
    · rw [if_pos hlim, ← h.limitedShare hS.ne' (hsb ⟨sf, hsf, hlim⟩) hsf]
      unfold percentageOf
      rw [if_neg hnall, if_pos hlim]
    · rw [if_neg hlim]
      exact ho sf hsf (Bool.not_eq_true _ ▸ hlim)
  rw [fullyShared_iff hq, sum_map_cond, ← and_assoc]
  apply and_congr_left'
  constructor
  · intro hall
    constructor
    · intro sf hsf hlim
      have hmin := hall sf hsf
      rw [if_pos hlim] at hmin
      exact hmin.trans (min_le_right _ _)
    · intro sf hsf hlim
      have hother := hall sf hsf
      rwa [if_neg (by simp [hlim])] at hother
  · intro h' sf hsf
    obtain ⟨hlimits, hothers⟩ := h'
    by_cases hlim : sf.limited = true
    · have hshare : 0 ≤ d.shareOf sf := div_nonneg (h.tested_nonneg hsf) hS.le
      rw [if_pos hlim]
      exact le_min hshare (hlimits sf hsf hlim)
    · rw [if_neg hlim]
      exact hothers sf hsf (Bool.not_eq_true _ ▸ hlim)

theorem assignedShare_le_one (h : d.Exact) (hS : 0 < d.wholeRate) :
    d.assignedShare ≤ 1 := by
  have hU : 0 ≤ d.restRate := h.sum_nonneg _
  have hle : d.assignedShare ≤ ((d.subflows.filter Subflow.limited).map d.shareOf).sum := by
    apply List.sum_le_sum
    exact fun sf _ => min_le_left _ _
  have hsum : ((d.subflows.filter Subflow.limited).map d.shareOf).sum =
      ((d.subflows.filter Subflow.limited).map testedRate).sum /
        d.wholeRate := sum_map_div _ _ _
  rw [hsum, ← h.sums.2.2] at hle
  rw [← h.sums.2.2] at hS
  have hfrac : ((d.subflows.filter Subflow.limited).map testedRate).sum /
      (((d.subflows.filter Subflow.limited).map testedRate).sum +
        d.restRate) ≤ 1 := by
    rw [div_le_one hS]
    linarith
  exact hle.trans hfrac

/-- Without tested bitrates to share the rest by, the limited subflows have all shares, and the limits
take from these. -/
theorem assignedShare_add_released (h : d.Exact) (hS : 0 < d.wholeRate)
    (hU : d.restRate = 0) :
    d.assignedShare + d.released = 1 := by
  have hsum : ((d.subflows.filter Subflow.limited).map d.shareOf).sum =
      ((d.subflows.filter Subflow.limited).map testedRate).sum /
        d.wholeRate := sum_map_div _ _ _
  have hboth : d.assignedShare + d.released =
      ((d.subflows.filter Subflow.limited).map d.shareOf).sum := sum_min_add_sum_max _ _ _
  have hsplit := h.sums.2.2
  rw [hU, add_zero] at hsplit
  rw [hboth, hsum, hsplit]
  exact div_self hS.ne'

/-- All subflows are congested: the congested bitrates are shared. -/
theorem fullyShared_of_congested (h : d.Exact) (hall : ∀ sf ∈ d.subflows, sf.isCongested = true)
    (hCB : sumOf Subflow.congestedBitrate d.subflows ≠ 0) :
    FullyShared (d.subflows.map fun sf => sf.setPercentage (d.percentageOf sf)) := by
  have hcong : ∀ sf ∈ d.subflows, sf.congestedBitrate = fin sf.congestedBitrate.toRat ∧
      0 ≤ sf.congestedBitrate.toRat := by
    intro sf hsf
    obtain ⟨q, hq, hq0⟩ := h.congested sf hsf
    rw [hq]
    exact ⟨rfl, hq0⟩
  have hsum := sumOf_fin fun sf hsf => (hcong sf hsf).1
  have hne : (d.subflows.map fun sf => sf.congestedBitrate.toRat).sum ≠ 0 := by
    rwa [hsum, ne_eq, fin_eq_zero] at hCB
  have hq : ∀ sf ∈ d.subflows, d.percentageOf sf = fin (sf.congestedBitrate.toRat /
      (d.subflows.map fun sf => sf.congestedBitrate.toRat).sum) := by
    intro sf hsf
    unfold percentageOf
    rw [if_pos hall, hsum, (hcong sf hsf).1, fin_div_fin hne, toRat_fin]
  have hnonneg : 0 ≤ (d.subflows.map fun sf => sf.congestedBitrate.toRat).sum := by
    apply List.sum_nonneg
    rw [List.forall_mem_map]
    exact fun sf hsf => (hcong sf hsf).2
  rw [fullyShared_iff hq, sum_shares hne]
  exact ⟨fun sf hsf => div_nonneg (hcong sf hsf).2 hnonneg, rfl⟩

/-- The subflows that are neither congested nor lossy cannot share the rest. -/
theorem fullyShared_iff_held (h : d.Exact) (hnall : ¬ ∀ sf ∈ d.subflows, sf.isCongested = true)
    (hS : 0 < d.wholeRate) (hsb : (∃ sf ∈ d.subflows, sf.limited = true) → d.streamBitrate ≠ 0)
    (hU : d.restRate = 0) :
    FullyShared (d.subflows.map fun sf => sf.setPercentage (d.percentageOf sf)) ↔
      (∀ sf ∈ d.subflows, sf.limited = true → 0 ≤ d.limitOf sf) ∧
      (∀ sf ∈ d.subflows, sf.limited = false → 0 ≤ d.held sf) ∧
      ((d.subflows.filter fun sf => !sf.limited).map d.held).sum = d.released := by
  obtain ⟨hsum, hrest, -⟩ := h.sums
  have hunassigned : ¬ d.unassignedTB ≠ 0 := by
    rw [hrest, hU]
    exact not_not.mpr rfl
  have ho : ∀ sf ∈ d.subflows, sf.limited = false → d.percentageOf sf = fin (d.held sf) := by
    intro sf hsf hlim
    have hzero : testedRate sf = 0 := by
      refine List.all_zero_of_le_zero_le_of_sum_eq_zero ?_ hU
        (List.mem_map_of_mem (List.mem_filter.mpr ⟨hsf, by simp [hlim]⟩))
      rw [List.forall_mem_map]
      exact fun sf hsf => h.tested_nonneg (List.mem_of_mem_filter hsf)
    obtain ⟨p, hp⟩ := h.percentage sf hsf
    unfold percentageOf held
    rw [if_neg hnall, if_neg (by simp [hlim]), if_neg hunassigned]
    by_cases hex : ∃ sf ∈ d.subflows, sf.isCongested = true
    · rw [if_pos hex, if_pos hex, hp, toRat_fin]
    · rw [if_neg hex, if_neg hex, h.testedBitrate hsf, hzero, hsum, fin_div_fin hS.ne', zero_div]
  have hwhole := h.assignedShare_add_released hS hU
  rw [h.fullyShared_iff_limits hnall hS hsb ho, ← hwhole, add_right_inj]

/-- They share it. -/
theorem fullyShared_iff_rest (h : d.Exact) (hnall : ¬ ∀ sf ∈ d.subflows, sf.isCongested = true)
    (hS : 0 < d.wholeRate) (hsb : (∃ sf ∈ d.subflows, sf.limited = true) → d.streamBitrate ≠ 0)
    (hU : d.restRate ≠ 0) :
    FullyShared (d.subflows.map fun sf => sf.setPercentage (d.percentageOf sf)) ↔
      ∀ sf ∈ d.subflows, sf.limited = true → 0 ≤ d.limitOf sf := by
  obtain ⟨-, hrest, -⟩ := h.sums
  have hone : (1 : ExtRat) = fin 1 := rfl
  have hunassigned : d.unassignedTB ≠ 0 := by
    rwa [hrest, ne_eq, fin_eq_zero]
  have ho : ∀ sf ∈ d.subflows, sf.limited = false →
      d.percentageOf sf = fin (testedRate sf / d.restRate * (1 - d.assignedShare)) := by
    intro sf hsf hlim
    unfold percentageOf
    rw [if_neg hnall, if_neg (by simp [hlim]), if_pos hunassigned, h.testedBitrate hsf, hrest,
      h.assigned hS.ne' hsb, hone, fin_div_fin hU, fin_sub_fin, fin_mul_fin]
  have hwhole : d.assignedShare + ((d.subflows.filter fun sf => !sf.limited).map fun sf =>
      testedRate sf / d.restRate * (1 - d.assignedShare)).sum = 1 := by
    have hshares : ((d.subflows.filter fun sf => !sf.limited).map fun sf =>
        testedRate sf / d.restRate).sum = 1 := sum_shares hU
    rw [List.sum_map_mul_right, hshares, one_mul]
    exact add_sub_cancel _ _
  have hothers : ∀ sf ∈ d.subflows, sf.limited = false →
      0 ≤ testedRate sf / d.restRate * (1 - d.assignedShare) := by
    intro sf hsf _
    have hleft := sub_nonneg.mpr (h.assignedShare_le_one hS)
    have hU0 : 0 ≤ d.restRate := h.sum_nonneg _
    exact mul_nonneg (div_nonneg (h.tested_nonneg hsf) hU0) hleft
  rw [h.fullyShared_iff_limits hnall hS hsb ho]
  exact and_iff_left ⟨hothers, hwhole⟩

end Exact

/-- The percentages that a distribution sets, for any rates and any percentages from before, are at
least zero and add up to one exactly when what the limits take away goes to other subflows. -/
theorem percentages_fullyShared_iff (h : d.Exact) (hne : d.subflows ≠ [])
    (hready : ∀ sf ∈ d.subflows, sf.readyForDistribution = true)
    (hdiv : ∀ x ∈ d.recalcSubflowPercentage.log, x ≠ 0) :
    (∃ sfs, d.recalcSubflowPercentage.res = some sfs ∧ FullyShared sfs) ↔ d.Balanced := by
  obtain ⟨l, hl, hmem⟩ := recalcSubflowPercentage_eq hready
  rw [hl] at hdiv ⊢
  have hdiv' := (or_iff_right hne).mp (hmem.mp hdiv)
  have hres : (∃ sfs, some (d.subflows.map fun sf => sf.setPercentage (d.percentageOf sf)) = some sfs ∧
      FullyShared sfs) ↔ FullyShared (d.subflows.map fun sf => sf.setPercentage (d.percentageOf sf)) := by
    simp only [Option.some.injEq, exists_eq_left']
  refine hres.trans ?_
  unfold Balanced
  by_cases hall : ∀ sf ∈ d.subflows, sf.isCongested = true
  · rw [if_pos hall] at hdiv'
    exact iff_of_true (h.fullyShared_of_congested hall hdiv') (Or.inl hall)
  · rw [if_neg hall] at hdiv'
    obtain ⟨hS, hsb⟩ := hdiv'
    obtain ⟨hsum, hrest, hsplit⟩ := h.sums
    have hpos : 0 < d.wholeRate := by
      rw [hsum, ne_eq, fin_eq_zero] at hS
      have hT := h.sum_nonneg Subflow.limited
      have hU : 0 ≤ d.restRate := h.sum_nonneg _
      exact lt_of_le_of_ne (by linarith) (Ne.symm hS)
    rw [or_iff_right hall, hrest, ne_eq, fin_eq_zero]
    by_cases h0 : d.restRate = 0
    · rw [h.fullyShared_iff_held hall hpos hsb h0, or_iff_right (not_not.mpr h0)]
    · rw [h.fullyShared_iff_rest hall hpos hsb h0, and_iff_left (Or.inl h0)]

theorem exact_readyPaths {sfs : List Subflow}
    (h : ∀ sf ∈ sfs, ∃ id ci tb cb, sf = readyPath id ci tb cb ∧ 0 ≤ tb ∧ 0 ≤ cb) (streamBitrate : ℚ) :
    (readyPaths sfs streamBitrate).Exact := by
  refine ⟨⟨_, rfl⟩, ?_, ?_, ?_⟩
  · intro sf hsf
    obtain ⟨id, ci, tb, cb, rfl, htb, -⟩ := h sf hsf
    exact ⟨tb, rfl, htb⟩
  · intro sf hsf
    obtain ⟨id, ci, tb, cb, rfl, -, hcb⟩ := h sf hsf
    exact ⟨cb, rfl, hcb⟩
  · intro sf hsf
    obtain ⟨id, ci, tb, cb, rfl, -, -⟩ := h sf hsf
    exact ⟨1 / 2, rfl⟩

theorem exact_lossyAndClean : (lossyAndClean 99).Exact := by
  apply exact_readyPaths
  rw [List.forall_mem_cons, List.forall_mem_singleton]
  exact ⟨⟨1, 1, 99, 99, rfl, by decide, by decide⟩, ⟨2, 0, 99, 0, rfl, by decide, by decide⟩⟩

theorem lossyAndClean_fullyShared :
    ∃ sfs, (lossyAndClean 99).recalcSubflowPercentage.res = some sfs ∧ FullyShared sfs := by
  have hdiv : ∀ x ∈ (lossyAndClean 99).recalcSubflowPercentage.log, x ≠ 0 := by decide +kernel
  refine (percentages_fullyShared_iff exact_lossyAndClean (by decide) (by decide) hdiv).mpr (Or.inr ⟨?_, Or.inl ?_⟩)
  · decide +kernel
  · decide +kernel

/-- A single path, which is lossy, at a stream bitrate of 200. -/
def onlyLossy : SenderData := readyPaths [readyPath 1 1 99 99] 200

theorem onlyLossy_not_fullyShared :
    ¬ ∀ d : SenderData, d.Exact → d.subflows ≠ [] →
      (∀ sf ∈ d.subflows, sf.readyForDistribution = true ∧
        0 ≤ sf.congestionIndicator ∧ sf.congestionIndicator ≤ ciMax) →
      (∀ x ∈ d.recalcSubflowPercentage.log, x ≠ 0) →
      ∃ sfs, d.recalcSubflowPercentage.res = some sfs ∧ FullyShared sfs := by
  intro h
  have hexact : onlyLossy.Exact := by
    apply exact_readyPaths
    rw [List.forall_mem_singleton]
    exact ⟨1, 1, 99, 99, rfl, by decide, by decide⟩
  obtain ⟨sfs, hres, -, hsum⟩ := h onlyLossy hexact (by decide) (by decide) (by decide +kernel)
  have hsum' : (onlyLossy.recalcSubflowPercentage.res.map (sumOf Subflow.percentage)) = some 1 := by
    rw [hres, Option.map_some, hsum]
  exact absurd hsum' (by decide +kernel)

end SenderData

end Mprtp
