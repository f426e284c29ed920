import Mprtp.Sender.Shares
import Mprtp.Sender.Bitrates

/-! The divisors of `recalc_subflow_percentage` while the subflows are tracked. -/
namespace Mprtp

open ExtRat

namespace SenderData

/-- While all subflows are congested the two sums are the same. -/
theorem sumOf_congestedBitrate {sfs : List Subflow} {live : ℕ → Prop}
    (h : ∀ (k : ℕ) (sf : Subflow), sfs[k]? = some sf → sf.Tracked (live k))
    (hall : ∀ sf ∈ sfs, sf.isCongested = true) :
    sumOf Subflow.congestedBitrate sfs = sumOf Subflow.testedBitrate sfs := by
  unfold sumOf
  apply List.foldl_ext
  intro s sf hsf
  obtain ⟨k, hk⟩ := List.getElem?_of_mem hsf
  have hcong := hall sf hsf
  have hpos : 0 < sf.congestionIndicator := sf.limited_iff.mp (Subflow.limited_of_isCongested hcong)
  rw [((h k sf hk).congested hpos).1]

/-- The sum of the tested bitrates is zero when no subflow is live. -/
theorem sumTB_ne_zero_iff {sfs : List Subflow} {live : ℕ → Prop}
    (h : ∀ (k : ℕ) (sf : Subflow), sfs[k]? = some sf → sf.Tracked (live k)) :
    sumOf Subflow.testedBitrate sfs ≠ 0 ↔ ∃ k < sfs.length, live k := by
  have hfin : ∀ sf ∈ sfs, ∃ t, sf.testedBitrate = .fin t ∧ 0 ≤ t := by
    intro sf hsf
    obtain ⟨k, hk⟩ := List.getElem?_of_mem hsf
    obtain ⟨t, ht, ht0, -⟩ := (h k sf hk).tested
    exact ⟨t, ht, ht0⟩
  obtain ⟨s, hs, hs0, hiff⟩ := foldl_add_nonneg hfin (le_refl 0)
  have hsum : sumOf Subflow.testedBitrate sfs = .fin s := hs
  rw [hsum, ne_eq, fin_eq_zero, hiff]
  constructor
  · intro hne
    by_contra hdead
    refine hne ⟨rfl, ?_⟩
    intro sf hsf
    obtain ⟨k, hk⟩ := List.getElem?_of_mem hsf
    obtain ⟨t, ht, ht0, hpos⟩ := (h k sf hk).tested
    have hlt : k < sfs.length := (List.getElem?_eq_some_iff.mp hk).1
    have hnot : ¬ 0 < t := fun hp => hdead ⟨k, hlt, hpos.mp hp⟩
    rw [ht, fin_eq_zero]
    exact le_antisymm (not_lt.mp hnot) ht0
  · intro hex hzero
    obtain ⟨k, hlt, hlive⟩ := hex
    obtain ⟨-, hzero⟩ := hzero
    obtain ⟨t, ht, -, hpos⟩ := (h k _ (List.getElem?_eq_getElem hlt)).tested
    have h0 := hzero _ (List.getElem_mem hlt)
    rw [ht, fin_eq_zero] at h0
    have hp := hpos.mpr hlive
    rw [h0] at hp
    exact lt_irrefl 0 hp

/-- Which divisors are zero. The sum of the tested bitrates divides for every subflow unless all
are congested, then the sum of the congested bitrates does, and the two are equal. -/
theorem recalcSubflowPercentage_divisors {d : SenderData} {live : ℕ → Prop}
    (h : ∀ (k : ℕ) (sf : Subflow), d.subflows[k]? = some sf → sf.Tracked (live k)) :
    (∀ x ∈ d.recalcSubflowPercentage.log, x ≠ 0) ↔
      ¬ (∀ sf ∈ d.subflows, sf.readyForDistribution = true) ∨ d.subflows = [] ∨
        (∃ k < d.subflows.length, live k) ∧
          ((∃ sf ∈ d.subflows, (sf.isCongested || sf.isLossy) = true) ∧
            (∃ sf ∈ d.subflows, sf.isCongested = false) → d.streamBitrate ≠ 0) := by
  by_cases hready : ∀ sf ∈ d.subflows, sf.readyForDistribution = true
  · obtain ⟨l, hl, hmem⟩ := recalcSubflowPercentage_eq hready
    rw [hl, or_iff_right (not_not.mpr hready), hmem, ← sumTB_ne_zero_iff h]
    apply or_congr_right
    by_cases hall : ∀ sf ∈ d.subflows, sf.isCongested = true
    · have hnone : ¬ ∃ sf ∈ d.subflows, sf.isCongested = false := by
        rintro ⟨sf, hsf, hclear⟩
        exact absurd (hall sf hsf) (by simp [hclear])
      rw [if_pos hall, sumOf_congestedBitrate h hall]
      simp only [hnone, and_false, false_implies, and_true]
    · have hex : ∃ sf ∈ d.subflows, sf.isCongested = false := by
        simpa only [not_forall, Bool.not_eq_true, exists_prop] using hall
      rw [if_neg hall, and_iff_left hex]
      rfl
  · rw [recalcSubflowPercentage_of_not_ready hready]
    constructor
    · exact fun _ => Or.inl hready
    · intro _ x hx
      cases hx

end SenderData

end Mprtp
