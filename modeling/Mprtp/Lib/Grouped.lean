import Mathlib.Data.List.Chain

/-! Lists in which equal elements stand one behind the other. -/

/-- Where an element comes again, it is also the last one before. -/
def Grouped {α : Type} (l : List α) : Prop :=
  ∀ before a after, l = before ++ a :: after → a ∈ before → before.getLast? = some a

namespace Grouped

variable {α κ : Type}

theorem mono {l l' : List α} (h : Grouped l') (hp : l <+: l') : Grouped l := by
  obtain ⟨rest, rfl⟩ := hp
  intro before a after hl
  exact h before a (after ++ rest) (by simp [hl])

/-- Elements that are all equal. -/
theorem of_forall_eq {l : List α} {c : α} (h : ∀ a ∈ l, a = c) : Grouped l := by
  intro before a after hl ha
  have hne : before ≠ [] := List.ne_nil_of_mem ha
  have ha' : a = c := h a (by simp [hl])
  have hlast : before.getLast hne = c := h _ (by simp [hl])
  rw [List.getLast?_eq_getLast_of_ne_nil hne, hlast, ha']

/-- In a chain whose keys are grouped, an element follows the last one before it with its key. -/
theorem follows [DecidableEq κ] {l : List α} {f : α → κ} {R : α → α → Prop}
    (h : Grouped (l.map f)) (hc : l.IsChain R) {before after : List α} {a last : α}
    (hl : l = before ++ a :: after) (hlast : last ∈ (before.filter fun b => f b = f a).getLast?) :
    R last a := by
  subst hl
  have hmem := List.mem_of_mem_getLast? hlast
  rw [List.mem_filter, decide_eq_true_iff] at hmem
  obtain ⟨hbefore, hkey⟩ := hmem
  have hgroup := h (before.map f) (f a) (after.map f) (by simp)
    (List.mem_map.mpr ⟨last, hbefore, hkey⟩)
  rw [List.getLast?_map, Option.map_eq_some_iff] at hgroup
  obtain ⟨b, hb, hfb⟩ := hgroup
  have hfollows := (List.isChain_append.mp hc).2.2 b hb a rfl
  obtain ⟨init, rfl⟩ := List.getLast?_eq_some_iff.mp hb
  have hlast' : b = last := by simpa [List.filter_append, List.filter_singleton, hfb] using hlast
  rw [← hlast']
  exact hfollows

end Grouped
