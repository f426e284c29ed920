import Mathlib.Order.Lattice
import Mathlib.Data.List.Basic
import Mathlib.Data.List.Forall2

/-! Finite maps as lists ordered by a key that every value carries. -/
namespace Keyed

variable {κ α : Type} [LinearOrder κ] (key : α → κ)

/-- The value with the key `k`. -/
def find? (k : κ) (l : List α) : Option α := l.find? fun a => key a = k

/-- Put `a` in its place, instead of the value that has its key. -/
def insert (a : α) : List α → List α
  | [] => [a]
  | b :: l =>
    if key a < key b then a :: b :: l
    else if key a = key b then a :: l
    else b :: insert a l

/-- Ordered by the key, without repetition. -/
def Ordered (l : List α) : Prop := l.Pairwise fun a b => key a < key b

variable {key} {a b : α} {l : List α}

theorem mem_insert (hl : Ordered key l) :
    b ∈ insert key a l ↔ b = a ∨ b ∈ l ∧ key b ≠ key a := by
  induction l with
  | nil => simp [insert]
  | cons c l ih =>
    rw [Ordered, List.pairwise_cons] at hl
    rw [insert]
    split_ifs with h₁ h₂
    · have hne : ∀ d ∈ c :: l, key d ≠ key a := by
        intro d hd
        rcases List.mem_cons.mp hd with rfl | hd
        · exact h₁.ne'
        · exact (h₁.trans (hl.1 d hd)).ne'
      rw [List.mem_cons]
      exact or_congr_right ⟨fun h => ⟨h, hne b h⟩, fun h => h.1⟩
    · rw [List.mem_cons, List.mem_cons]
      refine or_congr_right ⟨fun h => ⟨Or.inr h, ?_⟩, ?_⟩
      · rw [h₂]
        exact (hl.1 b h).ne'
      · intro h'
        obtain ⟨rfl | h, hne⟩ := h'
        · exact absurd h₂.symm hne
        · exact h
    · rw [List.mem_cons, ih hl.2, List.mem_cons]
      constructor
      · intro h'
        rcases h' with rfl | h | ⟨h, hne⟩
        · exact Or.inr ⟨Or.inl rfl, Ne.symm h₂⟩
        · exact Or.inl h
        · exact Or.inr ⟨Or.inr h, hne⟩
      · intro h'
        rcases h' with h | ⟨rfl | h, hne⟩
        · exact Or.inr (Or.inl h)
        · exact Or.inl rfl
        · exact Or.inr (Or.inr ⟨h, hne⟩)

theorem Ordered.insert (hl : Ordered key l) (a : α) : Ordered key (insert key a l) := by
  induction l with
  | nil => simp [Keyed.insert, Ordered]
  | cons c l ih =>
    have hl' := List.pairwise_cons.mp hl
    rw [Keyed.insert]
    split_ifs with h₁ h₂
    · refine List.pairwise_cons.mpr ⟨fun d hd => ?_, hl⟩
      rcases List.mem_cons.mp hd with rfl | hd
      · exact h₁
      · exact h₁.trans (hl'.1 d hd)
    · exact List.pairwise_cons.mpr ⟨fun d hd => h₂ ▸ hl'.1 d hd, hl'.2⟩
    · refine List.pairwise_cons.mpr ⟨fun d hd => ?_, ih hl'.2⟩
      rcases (mem_insert hl'.2).mp hd with rfl | ⟨hd, -⟩
      · exact lt_of_le_of_ne (not_lt.mp h₁) (Ne.symm h₂)
      · exact hl'.1 d hd

/-- A value that is there is replaced in its place. -/
theorem Ordered.insert_replace {a b : α} {before after : List α}
    (hl : Ordered key (before ++ b :: after)) (h : key a = key b) :
    Keyed.insert key a (before ++ b :: after) = before ++ a :: after := by
  induction before with
  | nil =>
    rw [List.nil_append, List.nil_append, Keyed.insert, if_neg (by rw [h]; exact lt_irrefl _),
      if_pos h]
  | cons c before ih =>
    rw [List.cons_append, Ordered, List.pairwise_cons] at hl
    have hlt : key c < key a := by
      rw [h]
      exact hl.1 b (by simp)
    rw [List.cons_append, Keyed.insert, if_neg hlt.le.not_gt, if_neg hlt.ne', ih hl.2]
    rfl

/-- In an ordered list a key determines the value. -/
theorem Ordered.eq_of_key_eq (hl : Ordered key l) (ha : a ∈ l) (hb : b ∈ l)
    (h : key a = key b) : a = b := by
  induction l with
  | nil => simp at ha
  | cons c l ih =>
    have hl' := List.pairwise_cons.mp hl
    rcases List.mem_cons.mp ha with ha | ha <;> rcases List.mem_cons.mp hb with hb | hb
    · exact ha.trans hb.symm
    · exact absurd (ha ▸ h) (hl'.1 b hb).ne
    · exact absurd (hb ▸ h.symm) (hl'.1 a ha).ne
    · exact ih hl'.2 ha hb

theorem find?_mem {k : κ} (h : find? key k l = some a) : a ∈ l ∧ key a = k :=
  ⟨List.mem_of_find?_eq_some h, by simpa using List.find?_some h⟩

theorem find?_eq_none {k : κ} : find? key k l = none ↔ ∀ b ∈ l, key b ≠ k := by
  simp [find?]

theorem Ordered.find?_eq_some (hl : Ordered key l) (ha : a ∈ l) :
    find? key (key a) l = some a := by
  cases h : find? key (key a) l with
  | none => exact absurd rfl (find?_eq_none.mp h a ha)
  | some b =>
    obtain ⟨hb, hk⟩ := find?_mem h
    rw [hl.eq_of_key_eq hb ha hk]

theorem Ordered.find?_insert (hl : Ordered key l) (a : α) (k : κ) :
    find? key k (Keyed.insert key a l) = if k = key a then some a else find? key k l := by
  have hins := hl.insert a
  split_ifs with h
  · rw [h]
    exact hins.find?_eq_some ((mem_insert hl).mpr (Or.inl rfl))
  · cases hfind : find? key k l with
    | none =>
      refine find?_eq_none.mpr fun b hb => ?_
      rcases (mem_insert hl).mp hb with rfl | ⟨hb, -⟩
      · exact Ne.symm h
      · exact find?_eq_none.mp hfind b hb
    | some b =>
      obtain ⟨hb, rfl⟩ := find?_mem hfind
      exact hins.find?_eq_some ((mem_insert hl).mpr (Or.inr ⟨hb, h⟩))

/-- Replacing every value by a related one with its key. -/
theorem find?_forall₂ {R : α → α → Prop} (hkey : ∀ a b, R a b → key b = key a) {l' : List α}
    (h : l.Forall₂ R l') (k : κ) : Option.Rel R (find? key k l) (find? key k l') := by
  induction h with
  | nil => exact .none
  | @cons a b l l' hab _ ih =>
    unfold find?
    rw [List.find?_cons, List.find?_cons, hkey a b hab]
    split
    · exact .some hab
    · exact ih

end Keyed
