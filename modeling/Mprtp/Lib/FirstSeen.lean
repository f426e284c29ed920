import Mathlib.Data.List.Induction
import Mathlib.Data.List.Nodup

/-! The distinct elements of a list in the order of their first occurrence. -/
namespace List

variable {α : Type} [BEq α] [LawfulBEq α]

theorem eraseDups_concat_of_mem {l : List α} {a : α} (h : a ∈ l) :
    (l ++ [a]).eraseDups = l.eraseDups := by
  rw [eraseDups_append]
  simp [removeAll, h]

theorem eraseDups_concat_of_notMem {l : List α} {a : α} (h : a ∉ l) :
    (l ++ [a]).eraseDups = l.eraseDups ++ [a] := by
  rw [eraseDups_append]
  simp [removeAll, h, eraseDups_cons]

theorem nodup_eraseDups (l : List α) : l.eraseDups.Nodup := by
  induction l using List.reverseRecOn with
  | nil => simp
  | append_singleton l a ih =>
    by_cases h : a ∈ l
    · rwa [eraseDups_concat_of_mem h]
    · rw [eraseDups_concat_of_notMem h, nodup_append]
      refine ⟨ih, nodup_singleton a, ?_⟩
      intro b hb c hc hbc
      rw [mem_eraseDups] at hb
      rw [mem_singleton] at hc
      exact h (hc ▸ hbc ▸ hb)

omit [LawfulBEq α] in
theorem eraseDups_eq_nil_iff {l : List α} : l.eraseDups = [] ↔ l = [] := by
  cases l with
  | nil => simp
  | cons a l => simp [eraseDups_cons]

theorem eraseDups_of_nodup {l : List α} (h : l.Nodup) : l.eraseDups = l := by
  induction l using List.reverseRecOn with
  | nil => rfl
  | append_singleton l a ih =>
    have h' := nodup_append.mp h
    have ha : a ∉ l := fun hl => h'.2.2 a hl a (by simp) rfl
    rw [eraseDups_concat_of_notMem ha, ih h'.1]

end List
