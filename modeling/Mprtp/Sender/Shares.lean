import Mprtp.Sender

/-! The percentages that `recalc_subflow_percentage` sets, and the divisors on its way. -/
namespace Mprtp

open ExtRat

namespace Subflow

/-- Nothing but the percentage of a subflow is set. -/
def Reweighted (sf sf' : Subflow) : Prop := ∃ percentage, sf' = { sf with percentage }

namespace Reweighted

theorem refl (sf : Subflow) : sf.Reweighted sf := ⟨sf.percentage, rfl⟩

/-- What does not depend on the percentages is the same. -/
theorem map_eq {β : Type} {f : Subflow → β} (hf : ∀ sf percentage, f { sf with percentage } = f sf)
    {sfs sfs' : List Subflow} (h : sfs.Forall₂ Reweighted sfs') : sfs'.map f = sfs.map f := by
  induction h with
  | nil => rfl
  | cons hk _ ih =>
    obtain ⟨percentage, rfl⟩ := hk
    rw [List.map_cons, List.map_cons, hf, ih]

theorem of_getElem? {sfs sfs' : List Subflow} (h : sfs.Forall₂ Reweighted sfs') {k : ℕ}
    {sf sf' : Subflow} (hk : sfs[k]? = some sf) (hk' : sfs'[k]? = some sf') : sf.Reweighted sf' := by
  obtain ⟨hlt, rfl⟩ := List.getElem?_eq_some_iff.mp hk
  obtain ⟨hlt', rfl⟩ := List.getElem?_eq_some_iff.mp hk'
  exact h.get hlt hlt'

end Reweighted

/-- `set_percentage`. -/
def setPercentage (sf : Subflow) (percentage : ExtRat) : Subflow := { sf with percentage }

/-- Congested or lossy: the stepwise approach limits the percentage. -/
def limited (sf : Subflow) : Bool := sf.isCongested || sf.isLossy

theorem limited_iff (sf : Subflow) : sf.limited = true ↔ 0 < sf.congestionIndicator := by
  unfold limited isLossy isCongested ciMax
  simp only [Bool.or_eq_true, decide_eq_true_eq, Bool.and_eq_true, Bool.not_eq_true',
    decide_eq_false_iff_not]
  omega

theorem limited_of_isCongested {sf : Subflow} (h : sf.isCongested = true) : sf.limited = true := by
  unfold limited
  rw [h, Bool.true_or]

section

variable (streamBitrate sumTB : ExtRat) (sf : Subflow)

/-- The limit of a percentage. -/
def limit : ExtRat := (if sf.isCongested then beta else gamma) * sf.congestedBitrate / streamBitrate

/-- The percentage of a subflow that is congested or lossy. -/
def limitedShare : ExtRat := stdMin (sf.testedBitrate / sumTB) (sf.limit streamBitrate)

end

end Subflow

namespace SenderData

section

variable (d : SenderData)

def sumTB : ExtRat := sumOf Subflow.testedBitrate d.subflows

/-- `AP`, what the stepwise approach assigns to the subflows that are congested or lossy. -/
def assigned : ExtRat :=
  sumOf (Subflow.limitedShare d.streamBitrate d.sumTB) (d.subflows.filter Subflow.limited)

/-- The sum of the tested bitrates of the subflows that are neither. -/
def unassignedTB : ExtRat := sumOf Subflow.testedBitrate (d.subflows.filter fun sf => !sf.limited)

/-- The percentage of a subflow after `recalc_subflow_percentage`. -/
def percentageOf (sf : Subflow) : ExtRat :=
  if ∀ sf ∈ d.subflows, sf.isCongested then
    sf.congestedBitrate / sumOf Subflow.congestedBitrate d.subflows
  else if sf.limited then sf.limitedShare d.streamBitrate d.sumTB
  else if d.unassignedTB ≠ 0 then sf.testedBitrate / d.unassignedTB * (1 - d.assigned)
  else if ∃ sf ∈ d.subflows, sf.isCongested then sf.percentage
  else sf.testedBitrate / d.sumTB

end

theorem divide_bind {α : Type} (a b : ExtRat) (f : ExtRat → Exec ExtRat α) :
    (divide a b >>= f) = ⟨b :: (f (a / b)).log, (f (a / b)).res⟩ := rfl

/-- The loop that gives every subflow its share divides by the sum each time. -/
theorem distribute_eq (f : Subflow → ExtRat) (sum : ExtRat) (sfs : List Subflow) :
    distribute f sum sfs = ⟨List.replicate sfs.length sum,
      some (sfs.map fun sf => sf.setPercentage (f sf / sum))⟩ := by
  unfold distribute
  induction sfs with
  | nil => rfl
  | cons sf sfs ih =>
    rw [List.mapM_cons, ih, bind_assoc, divide_bind, pure_bind, Exec.mk_some_bind]
    simp only [pure, List.append_nil]
    rfl

/-- The stepwise approach divides by the sum and by the stream bitrate for every subflow that is
congested or lossy. -/
theorem stepwise_eq (streamBitrate sumTB : ExtRat) (sfs : List Subflow) (ap : ExtRat) :
    ∃ l, stepwise streamBitrate sumTB sfs ap = ⟨l, some
        (sfs.map fun sf =>
          if sf.limited then sf.setPercentage (sf.limitedShare streamBitrate sumTB) else sf,
        (sfs.filter Subflow.limited).foldl
          (fun ap sf => ap + sf.limitedShare streamBitrate sumTB) ap)⟩ ∧
      ∀ x, x ∈ l ↔ (∃ sf ∈ sfs, sf.limited = true) ∧ (x = sumTB ∨ x = streamBitrate) := by
  induction sfs generalizing ap with
  | nil => exact ⟨[], rfl, by simp⟩
  | cons sf sfs ih =>
    unfold stepwise
    by_cases ht : sf.limited = true
    · obtain ⟨l, hr, hl⟩ := ih (ap + sf.limitedShare streamBitrate sumTB)
      refine ⟨sumTB :: streamBitrate :: (l ++ []), ?_, ?_⟩
      · have hcond : (sf.isCongested || sf.isLossy) = true := ht
        have hshare : stdMin (sf.testedBitrate / sumTB) ((if sf.isCongested = true then beta else gamma) *
            sf.congestedBitrate / streamBitrate) = sf.limitedShare streamBitrate sumTB := rfl
        rw [if_pos hcond, divide_bind, divide_bind]
        dsimp only
        rw [hshare, hr, Exec.mk_some_bind, List.map_cons, if_pos ht, List.filter_cons_of_pos ht,
          List.foldl_cons]
        rfl
      · intro x
        rw [List.mem_cons, List.mem_cons, List.append_nil, hl]
        constructor
        · intro h'
          rcases h' with h | h | ⟨-, h⟩
          · exact ⟨⟨sf, by simp, ht⟩, Or.inl h⟩
          · exact ⟨⟨sf, by simp, ht⟩, Or.inr h⟩
          · exact ⟨⟨sf, by simp, ht⟩, h⟩
        · intro h'
          obtain ⟨-, h | h⟩ := h'
          · exact Or.inl h
          · exact Or.inr (Or.inl h)
    · obtain ⟨l, hr, hl⟩ := ih ap
      refine ⟨l ++ [], ?_, ?_⟩
      · have hcond : ¬ (sf.isCongested || sf.isLossy) = true := ht
        rw [if_neg hcond, hr, Exec.mk_some_bind, List.map_cons, if_neg ht, List.filter_cons_of_neg ht]
        rfl
      · intro x
        rw [List.append_nil, hl, List.exists_mem_cons_iff, or_iff_right ht]

/-- The subflows that share the rest divide by a sum that is not zero. -/
theorem shareRest_eq (ap : ExtRat) (sfs : List Subflow) :
    let sum := sumOf Subflow.testedBitrate (sfs.filter fun sf => !sf.limited)
    ∃ l, shareRest ap sfs = ⟨l, some (sfs.map fun sf =>
        if sum = 0 then sf else if sf.limited then sf
        else sf.setPercentage (sf.testedBitrate / sum * (1 - ap)))⟩ ∧
      ∀ x ∈ l, x ≠ 0 := by
  intro sum
  unfold shareRest
  by_cases hsum : sum = 0
  · refine ⟨[], ?_, by simp⟩
    simp only [hsum, if_true, List.map_id']
    exact if_pos hsum
  · simp only [hsum, if_false]
    have hpass := Exec.mapM_eq (P := (· ≠ 0)) (l := sfs)
      (f := fun sf => if sf.isCongested || sf.isLossy then pure sf
        else divide sf.testedBitrate sum >>= fun share =>
          pure (sf.setPercentage (share * (1 - ap))))
      (g := fun sf => if sf.limited then sf
        else sf.setPercentage (sf.testedBitrate / sum * (1 - ap))) ?_
    · obtain ⟨l, hl, hne⟩ := hpass
      refine ⟨l, ?_, hne⟩
      rw [← hl]
      exact if_neg hsum
    · intro sf _
      by_cases ht : sf.limited = true
      · exact ⟨[], by rw [if_pos ht]; exact if_pos ht, by simp⟩
      · refine ⟨[sum], ?_, by simpa using hsum⟩
        rw [if_neg ht]
        exact if_neg ht

/-- A pass over the subflows that does not touch what is summed, nor what selects the summands. -/
theorem sumOf_filter_map {f : Subflow → ExtRat} {g : Subflow → Subflow} {q : Subflow → Bool}
    (hf : ∀ sf, f (g sf) = f sf) (hq : ∀ sf, q (g sf) = q sf) (sfs : List Subflow) :
    sumOf f ((sfs.map g).filter q) = sumOf f (sfs.filter q) := by
  have hcomp : q ∘ g = q := funext hq
  unfold sumOf
  rw [List.filter_map, List.foldl_map, hcomp]
  simp only [hf]

theorem sumOf_map {f : Subflow → ExtRat} {g : Subflow → Subflow} (hf : ∀ sf, f (g sf) = f sf)
    (sfs : List Subflow) : sumOf f (sfs.map g) = sumOf f sfs := by
  unfold sumOf
  rw [List.foldl_map]
  simp only [hf]

/-- The stepwise approach, once every subflow has the percentage `p`. -/
theorem stepwise_shareRest_eq (d : SenderData) (p : Subflow → ExtRat) :
    let sfs := d.subflows.map fun sf => sf.setPercentage (p sf)
    ∃ l, (stepwise d.streamBitrate (sumOf Subflow.testedBitrate sfs) sfs 0 >>= fun r =>
        shareRest r.2 r.1) = ⟨l, some (d.subflows.map fun sf => sf.setPercentage
          (if sf.limited then sf.limitedShare d.streamBitrate d.sumTB
          else if d.unassignedTB ≠ 0 then sf.testedBitrate / d.unassignedTB * (1 - d.assigned)
          else p sf))⟩ ∧
      ((∀ x ∈ l, x ≠ 0) ↔
        ((∃ sf ∈ d.subflows, sf.limited = true) → d.sumTB ≠ 0 ∧ d.streamBitrate ≠ 0)) := by
  intro sfs
  have hsum : sumOf Subflow.testedBitrate sfs = d.sumTB := by
    apply sumOf_map
    exact fun _ => rfl
  obtain ⟨l, hl, hmem⟩ := stepwise_eq d.streamBitrate d.sumTB sfs 0
  have hap : (sfs.filter Subflow.limited).foldl
      (fun ap sf => ap + sf.limitedShare d.streamBitrate d.sumTB) 0 = d.assigned := by
    apply sumOf_filter_map
    · exact fun _ => rfl
    · exact fun _ => rfl
  rw [hap] at hl
  obtain ⟨l', hl', hne⟩ := shareRest_eq d.assigned
    (sfs.map fun sf => if sf.limited then sf.setPercentage (sf.limitedShare d.streamBitrate d.sumTB) else sf)
  have hrest : sumOf Subflow.testedBitrate ((sfs.map fun sf =>
      if sf.limited then sf.setPercentage (sf.limitedShare d.streamBitrate d.sumTB) else sf).filter
        fun sf => !sf.limited) = d.unassignedTB := by
    rw [List.map_map]
    apply sumOf_filter_map
    · intro sf
      rw [Function.comp_apply]
      split <;> rfl
    · intro sf
      rw [Function.comp_apply]
      split <;> rfl
  have hlimited : (∃ sf ∈ sfs, sf.limited = true) ↔ ∃ sf ∈ d.subflows, sf.limited = true := by
    simp only [sfs, List.mem_map, exists_exists_and_eq_and]
    exact Iff.rfl
  rw [hrest] at hl'
  refine ⟨l ++ l', ?_, ?_⟩
  · rw [hsum, hl, Exec.mk_some_bind, hl']
    dsimp only
    rw [List.map_map, List.map_map]
    congr 2
    apply List.map_congr_left
    intro sf _
    simp only [Function.comp_apply]
    by_cases hlim : sf.limited = true
    · have hlim' : (sf.setPercentage (p sf)).limited = true := hlim
      have hset : ((sf.setPercentage (p sf)).setPercentage
        ((sf.setPercentage (p sf)).limitedShare d.streamBitrate d.sumTB)).limited = true := hlim
      rw [if_pos hlim, if_pos hlim', if_pos hset, ite_self]
      rfl
    · have hlim' : ¬ (sf.setPercentage (p sf)).limited = true := hlim
      rw [if_neg hlim, if_neg hlim', if_neg hlim']
      by_cases h0 : d.unassignedTB = 0
      · rw [if_pos h0, if_neg (not_not.mpr h0)]
      · rw [if_neg h0, if_pos h0]
        rfl
  · simp only [List.mem_append, hmem, hlimited]
    constructor
    · intro h hex
      exact ⟨h _ (Or.inl ⟨hex, Or.inl rfl⟩), h _ (Or.inl ⟨hex, Or.inr rfl⟩)⟩
    · intro h x h'
      rcases h' with ⟨hex, rfl | rfl⟩ | hx
      · exact (h hex).1
      · exact (h hex).2
      · exact hne x hx

/-- Every subflow gets the percentage that is its own. Without a limited subflow the sum of the
tested bitrates divides once for each, and so it does when some are congested. -/
theorem recalcSubflowPercentage_eq {d : SenderData}
    (hready : ∀ sf ∈ d.subflows, sf.readyForDistribution = true) :
    ∃ l, d.recalcSubflowPercentage =
        ⟨l, some (d.subflows.map fun sf => sf.setPercentage (d.percentageOf sf))⟩ ∧
      ((∀ x ∈ l, x ≠ 0) ↔ d.subflows = [] ∨
        if ∀ sf ∈ d.subflows, sf.isCongested = true then sumOf Subflow.congestedBitrate d.subflows ≠ 0
        else d.sumTB ≠ 0 ∧ ((∃ sf ∈ d.subflows, sf.limited = true) → d.streamBitrate ≠ 0)) := by
  have hready' : d.subflows.all Subflow.readyForDistribution = true := List.all_eq_true.mpr hready
  have hlog : ∀ x : ExtRat, (∀ y ∈ List.replicate d.subflows.length x, y ≠ 0) ↔
      d.subflows = [] ∨ x ≠ 0 := by
    intro x
    simp only [List.mem_replicate, ne_eq, List.length_eq_zero_iff]
    by_cases hnil : d.subflows = [] <;> simp [hnil]
  unfold recalcSubflowPercentage percentageOf
  rw [if_neg (by simp [hready'])]
  dsimp only
  simp only [List.countP_eq_zero, List.countP_eq_length]
  by_cases hall : ∀ sf ∈ d.subflows, sf.isCongested = true
  · simp only [if_pos hall]
    by_cases hnone : ∀ sf ∈ d.subflows, ¬ sf.isCongested = true
    · -- there is no subflow
      have hnil : d.subflows = [] := List.eq_nil_iff_forall_not_mem.mpr fun sf hsf => hnone sf hsf (hall sf hsf)
      rw [hnil]
      exact ⟨[], rfl, by simp⟩
    · rw [if_neg hnone, pure_bind, distribute_eq]
      exact ⟨_, rfl, hlog _⟩
  · simp only [if_neg hall]
    have hne : d.subflows ≠ [] := fun h0 => hall (by simp [h0])
    rw [or_iff_right hne]
    by_cases hnone : ∀ sf ∈ d.subflows, ¬ sf.isCongested = true
    · -- the first case runs, then the stepwise approach
      have hex : ¬ ∃ sf ∈ d.subflows, sf.isCongested = true := by
        rintro ⟨sf, hsf, hcong⟩
        exact hnone sf hsf hcong
      obtain ⟨l, hl, hmem⟩ := d.stepwise_shareRest_eq fun sf => sf.testedBitrate / d.sumTB
      simp only [if_neg hex]
      rw [if_pos hnone, distribute_eq, Exec.mk_some_bind]
      refine ⟨List.replicate d.subflows.length d.sumTB ++ l, ?_, ?_⟩
      · exact congrArg (fun x : Exec ExtRat (List Subflow) =>
          (⟨List.replicate d.subflows.length d.sumTB ++ x.log, x.res⟩ : Exec _ _)) hl
      · rw [List.forall_mem_append, hlog, hmem, or_iff_right hne]
        constructor
        · intro h'
          obtain ⟨h, hrest⟩ := h'
          exact ⟨h, fun hlimited => (hrest hlimited).2⟩
        · intro h'
          obtain ⟨h, hrest⟩ := h'
          exact ⟨h, fun hlimited => ⟨h, hrest hlimited⟩⟩
    · have hex : ∃ sf ∈ d.subflows, sf.isCongested = true := by
        simpa only [not_forall, not_not, exists_prop] using hnone
      have hlimited : ∃ sf ∈ d.subflows, sf.limited = true := by
        obtain ⟨sf, hsf, hcong⟩ := hex
        exact ⟨sf, hsf, Subflow.limited_of_isCongested hcong⟩
      obtain ⟨l, hl, hmem⟩ := d.stepwise_shareRest_eq Subflow.percentage
      have hsame : (d.subflows.map fun sf => sf.setPercentage sf.percentage) = d.subflows := List.map_id' _
      rw [hsame] at hl
      simp only [if_pos hex]
      rw [if_neg hnone, pure_bind]
      refine ⟨l, hl, ?_⟩
      rw [hmem]
      simp only [hlimited, true_implies]

/-- The distribution stops at a subflow that is not ready. -/
theorem recalcSubflowPercentage_of_not_ready {d : SenderData}
    (hready : ¬ ∀ sf ∈ d.subflows, sf.readyForDistribution = true) :
    d.recalcSubflowPercentage = ⟨[], some d.subflows⟩ := by
  have hnot : ¬ d.subflows.all Subflow.readyForDistribution = true := mt List.all_eq_true.mp hready
  unfold recalcSubflowPercentage
  rw [if_pos (by simpa using hnot)]
  rfl

/-- The distribution changes nothing but percentages. -/
theorem recalcSubflowPercentage_reweighted {d : SenderData} {sfs : List Subflow}
    (hres : d.recalcSubflowPercentage.res = some sfs) : d.subflows.Forall₂ Subflow.Reweighted sfs := by
  by_cases hready : ∀ sf ∈ d.subflows, sf.readyForDistribution = true
  · obtain ⟨l, hl, -⟩ := recalcSubflowPercentage_eq hready
    rw [hl] at hres
    cases hres
    rw [List.forall₂_map_right_iff, List.forall₂_same]
    exact fun sf _ => ⟨d.percentageOf sf, rfl⟩
  · rw [recalcSubflowPercentage_of_not_ready hready] at hres
    cases hres
    exact List.forall₂_same.mpr fun sf _ => .refl sf

end SenderData

end Mprtp
