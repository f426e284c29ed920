import Mprtp.Sender.Choice

/-! The draws with which `select_subflow` returns a subflow that has a share of the distribution. -/
namespace Mprtp

namespace SenderData

variable {d : SenderData} {qs : List ℚ}

/-- Below 100, the draw is below the sum of the percentages. -/
theorem selectSubflow_of_lt (hqs : d.subflows.map Subflow.percentage = qs.map .fin)
    (hpos : ∀ q ∈ qs, 0 ≤ q) (hsum : qs.sum = 1) {w : World} (hlt : w.draw % 101 < 100) :
    ∃ k sf, (d.selectSubflow w).1 = some k ∧ d.subflows[k]? = some sf ∧ 0 < sf.percentage := by
  have hrnd : (0 : ℚ) ≤ (w.draw % 101 : ℕ) / 100 := by positivity
  have hbelow : ((w.draw % 101 : ℕ) : ℚ) / 100 < 1 := by
    rw [div_lt_one (by norm_num)]
    exact_mod_cast hlt
  obtain ⟨k, hk⟩ : ∃ k, pick (((w.draw % 101 : ℕ) : ℚ) / 100) qs 0 = some k := by
    rw [← Option.ne_none_iff_exists', ne_eq, pick_eq_none_iff hpos hrnd, hsum, not_le, zero_add]
    exact hbelow
  obtain ⟨q, hq, hq0⟩ := pos_of_pick hpos hrnd hk
  have hget : (d.subflows.map Subflow.percentage)[k]? = some (.fin q) := by
    rw [hqs, List.getElem?_map, hq]
    rfl
  rw [List.getElem?_map] at hget
  obtain ⟨sf, hsf, hpercentage⟩ := Option.map_eq_some_iff.mp hget
  refine ⟨k, sf, selectSubflow_of_some ((selectFrom_zero hqs _).trans hk), hsf, ?_⟩
  rw [hpercentage]
  exact ExtRat.fin_lt_fin.mpr hq0

/-- The draw 100 is not below any sum of percentages, and the first subflow is returned. -/
theorem selectSubflow_of_eq (hqs : d.subflows.map Subflow.percentage = qs.map .fin)
    (hpos : ∀ q ∈ qs, 0 ≤ q) (hsum : qs.sum = 1) {w : World} (heq : w.draw % 101 = 100) :
    (d.selectSubflow w).1 = some 0 := by
  have hfrom : selectFrom ((w.draw % 101 : ℕ) / 100) d.subflows 0 0 = none := by
    rw [selectFrom_zero hqs, heq, pick_eq_none_iff hpos (by norm_num), hsum]
    norm_num
  unfold selectSubflow
  dsimp only
  rw [hfrom]
  cases hd : d.subflows with
  | nil =>
    rw [hd] at hqs
    rw [List.map_eq_nil_iff.mp hqs.symm] at hsum
    cases hsum
  | cons sf sfs => rfl

/-- With percentages that sum to 1, a subflow without a share is returned exactly when the draw is
100 and the first subflow has none. -/
theorem selectSubflow_pos_iff (hqs : d.subflows.map Subflow.percentage = qs.map .fin)
    (hpos : ∀ q ∈ qs, 0 ≤ q) (hsum : qs.sum = 1) (w : World) :
    (∃ k sf, (d.selectSubflow w).1 = some k ∧ d.subflows[k]? = some sf ∧ 0 < sf.percentage) ↔
      (w.draw % 101 = 100 → ∃ sf ∈ d.subflows.head?, 0 < sf.percentage) := by
  by_cases heq : w.draw % 101 = 100
  · rw [selectSubflow_of_eq hqs hpos hsum heq, List.head?_eq_getElem?]
    constructor
    · intro h _
      obtain ⟨k, sf, hk, hsf, hshare⟩ := h
      cases hk
      exact ⟨sf, hsf, hshare⟩
    · intro h
      obtain ⟨sf, hsf, hshare⟩ := h heq
      exact ⟨0, sf, rfl, hsf, hshare⟩
  · have hlt : w.draw % 101 < 100 := by omega
    exact iff_of_true (selectSubflow_of_lt hqs hpos hsum hlt) fun h => absurd h heq

end SenderData

/-- A sender of two subflows with these percentages. -/
def sharesOf (p q : ℚ) : SenderData where
  sequesnceNumber := 0
  timestampUnit := 1
  subflows :=
    [{ sequesnceNumber := 0, subflowId := 1, remote := ⟨0x0A000002, 22000⟩, iface := 0, percentage := .fin p },
      { sequesnceNumber := 0, subflowId := 2, remote := ⟨0x0A000003, 22000⟩, iface := 0, percentage := .fin q }]

/-- A world whose draws are all `n`. -/
def World.drawing (n : ℕ) : World := ⟨fun _ => 0, fun _ => n, 0⟩

theorem sharesOf_pos : ∃ k sf, ((sharesOf (1 / 4) (3 / 4)).selectSubflow (.drawing 100)).1 = some k ∧
    (sharesOf (1 / 4) (3 / 4)).subflows[k]? = some sf ∧ 0 < sf.percentage := by
  have hpos : ∀ q ∈ ([1 / 4, 3 / 4] : List ℚ), 0 ≤ q := by norm_num
  have hqs : (sharesOf (1 / 4) (3 / 4)).subflows.map Subflow.percentage = [1 / 4, 3 / 4].map .fin := rfl
  refine (SenderData.selectSubflow_pos_iff hqs hpos (by norm_num) _).mpr ?_
  intro _
  exact ⟨_, rfl, ExtRat.fin_lt_fin.mpr (by norm_num)⟩

/-- The draw 100 returns a first subflow to which the distribution gives nothing. -/
theorem empty_share_selected :
    ¬ ∀ (d : SenderData) (qs : List ℚ) (w : World), d.subflows.map Subflow.percentage = qs.map .fin →
      (∀ q ∈ qs, 0 ≤ q) → qs.sum = 1 →
        ∃ k sf, (d.selectSubflow w).1 = some k ∧ d.subflows[k]? = some sf ∧ 0 < sf.percentage := by
  intro h
  obtain ⟨k, sf, hk, hsf, hshare⟩ := h (sharesOf 0 1) [0, 1] (.drawing 100) rfl (by norm_num) (by norm_num)
  have hfirst : ((sharesOf 0 1).selectSubflow (.drawing 100)).1 = some 0 := by decide +kernel
  rw [hfirst] at hk
  cases hk
  cases hsf
  exact lt_irrefl (0 : ℚ) (ExtRat.fin_lt_fin.mp hshare)

end Mprtp
