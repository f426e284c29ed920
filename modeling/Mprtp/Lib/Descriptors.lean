import Mathlib.Data.List.Nodup
import Mathlib.Data.List.Pairwise

/-! The open descriptors of a process and the addresses that they are bound to: no number is open twice,
and no two bound addresses clash. -/

/-- A table of open descriptors. -/
structure Descriptors {α : Type} (clash : α → α → Prop) where
  entries : List (ℕ × Option α)
  nodup : (entries.map Prod.fst).Nodup
  unclashed : entries.Pairwise fun e e' => ∀ a ∈ e.2, ∀ a' ∈ e'.2, ¬ clash a a'

namespace Descriptors

variable {α : Type} {clash : α → α → Prop} {t : Descriptors clash} {n : ℕ} {a : α} {e : ℕ × Option α}
  {new : List (ℕ × Option α)}

theorem ext {t t' : Descriptors clash} (h : t.entries = t'.entries) : t = t' := by
  obtain ⟨entries, _, _⟩ := t
  obtain ⟨entries', _, _⟩ := t'
  cases h
  rfl

/-- The numbers of the open descriptors. -/
def fds (t : Descriptors clash) : List ℕ := t.entries.map Prod.fst

theorem mem_fds (h : e ∈ t.entries) : e.1 ∈ t.fds := List.mem_map_of_mem h

/-- A table with nothing open. -/
def empty : Descriptors clash := ⟨[], List.nodup_nil, List.Pairwise.nil⟩

/-- Open a descriptor with the number `n`, which must be free. -/
def alloc (t : Descriptors clash) (n : ℕ) : Option (Descriptors clash) :=
  if h : n ∈ t.fds then none
  else some
    { entries := t.entries ++ [(n, none)]
      nodup := by
        rw [List.map_append, List.nodup_append]
        refine ⟨t.nodup, List.nodup_singleton _, ?_⟩
        rintro m hm _ hn rfl
        obtain rfl : m = n := List.mem_singleton.mp hn
        exact h hm
      unclashed := by
        refine List.pairwise_append.mpr ⟨t.unclashed, List.pairwise_singleton _ _, ?_⟩
        intro e _ e' he' a _ a' ha'
        rw [List.mem_singleton.mp he'] at ha'
        cases ha' }

theorem alloc_eq_some {t' : Descriptors clash} (h : t.alloc n = some t') :
    n ∉ t.fds ∧ t'.entries = t.entries ++ [(n, none)] := by
  unfold alloc at h
  split at h
  · cases h
  · rename_i hfree
    cases h
    exact ⟨hfree, rfl⟩

/-- Close the descriptor `n`; nothing happens when it is not open. -/
def close (t : Descriptors clash) (n : ℕ) : Descriptors clash where
  entries := t.entries.filter fun e => e.1 ≠ n
  nodup := t.nodup.sublist (List.filter_sublist.map _)
  unclashed := t.unclashed.filter _

theorem mem_close : e ∈ (t.close n).entries ↔ e ∈ t.entries ∧ e.1 ≠ n := by
  unfold close
  rw [List.mem_filter, decide_eq_true_eq]

theorem fds_close (t : Descriptors clash) (n : ℕ) : (t.close n).fds = t.fds.erase n := by
  have herase : t.fds.erase n = t.fds.filter fun m => m ≠ n := by
    refine (List.Nodup.erase_eq_filter t.nodup n).trans (List.filter_congr ?_)
    intro m _
    by_cases hm : m = n <;> simp [hm]
  rw [herase]
  unfold fds close
  rw [List.filter_map]
  rfl

/-- The entry of the descriptor `n` once it is bound to `a`. -/
def bound (n : ℕ) (a : α) (e : ℕ × Option α) : ℕ × Option α := if e.1 = n then (n, some a) else e

theorem map_fst_bound (n : ℕ) (a : α) (entries : List (ℕ × Option α)) :
    (entries.map (bound n a)).map Prod.fst = entries.map Prod.fst := by
  rw [List.map_map]
  refine List.map_congr_left ?_
  intro e _
  unfold bound
  rw [Function.comp_apply]
  split
  · rename_i hn
    exact hn.symm
  · rfl

section Bind

variable [DecidableRel clash] [Std.Symm clash] [DecidableEq α]

/-- Bind the descriptor `n`, which has no address yet, to an address that clashes with no other. -/
def bind (t : Descriptors clash) (n : ℕ) (a : α) : Option (Descriptors clash) :=
  if h : (n, none) ∈ t.entries ∧ ∀ e ∈ t.entries, ∀ a' ∈ e.2, ¬ clash a a' then some
    { entries := t.entries.map (bound n a)
      nodup := by
        rw [map_fst_bound]
        exact t.nodup
      unclashed := by
        rw [List.pairwise_map]
        have hnodup := List.pairwise_map.mp t.nodup
        refine (hnodup.and t.unclashed).imp_of_mem ?_
        intro e e' he he' hboth
        obtain ⟨hne, hfree⟩ := hboth
        unfold bound
        split
        · rename_i heq
          rw [if_neg (fun heq' => hne (heq.trans heq'.symm))]
          intro b hb b' hb'
          cases hb
          exact h.2 e' he' b' hb'
        · split
          · intro b hb b' hb' hclash
            cases hb'
            exact h.2 e he b hb (Std.Symm.symm _ _ hclash)
          · exact hfree }
  else none

theorem bind_eq_some {t' : Descriptors clash} (h : t.bind n a = some t') :
    t'.entries = t.entries.map (bound n a) := by
  unfold bind at h
  split at h
  · cases h
    rfl
  · cases h

end Bind

/-- The table has gained the entries `new` since it was `t`. -/
def Gained (t : Descriptors clash) (new : List (ℕ × Option α)) (t' : Descriptors clash) : Prop :=
  t'.entries = t.entries ++ new

variable {t' t'' : Descriptors clash}

theorem Gained.free (h : t.Gained new t') (he : e ∈ new) : e.1 ∉ t.fds := by
  have hnodup := t'.nodup
  rw [h, List.map_append, List.nodup_append] at hnodup
  exact fun hmem => hnodup.2.2 e.1 hmem e.1 (List.mem_map_of_mem he) rfl

theorem Gained.alloc (h : t.Gained new t') (halloc : t'.alloc n = some t'') :
    t.Gained (new ++ [(n, none)]) t'' := by
  unfold Gained at h ⊢
  rw [(alloc_eq_some halloc).2, h, List.append_assoc]

/-- Binding a descriptor that was opened since then changes its entry only. -/
theorem Gained.bind [DecidableRel clash] [Std.Symm clash] [DecidableEq α] (h : t.Gained new t')
    (hn : n ∈ new.map Prod.fst) (hbind : t'.bind n a = some t'') : t.Gained (new.map (bound n a)) t'' := by
  have hold : t.entries.map (bound n a) = t.entries := by
    conv_rhs => rw [← List.map_id t.entries]
    refine List.map_congr_left ?_
    intro e he
    obtain ⟨e', he', rfl⟩ := List.mem_map.mp hn
    have hne : e.1 ≠ e'.1 := fun heq => h.free he' (heq ▸ mem_fds he)
    exact if_neg hne
  unfold Gained at h ⊢
  rw [bind_eq_some hbind, h, List.map_append, hold]

theorem gained_nil : t.Gained [] t' ↔ t' = t := by
  unfold Gained
  rw [List.append_nil]
  exact ⟨ext, fun h => h ▸ rfl⟩

theorem Gained.fds (h : t.Gained new t') : t'.fds = t.fds ++ new.map Prod.fst := by
  unfold Descriptors.fds
  rw [h, List.map_append]

/-- Two bound descriptors have addresses that do not clash. -/
theorem not_clash [Std.Symm clash] {e e' : ℕ × Option α} (he : e ∈ t.entries) (he' : e' ∈ t.entries)
    (hne : e.1 ≠ e'.1) : ∀ a ∈ e.2, ∀ a' ∈ e'.2, ¬ clash a a' := by
  have hsymm : Std.Symm fun e e' : ℕ × Option α => ∀ a ∈ e.2, ∀ a' ∈ e'.2, ¬ clash a a' := by
    constructor
    intro e e' h a ha a' ha' hclash
    exact h a' ha' a ha (Std.Symm.symm _ _ hclash)
  exact t.unclashed.forall he he' fun heq => hne (heq ▸ rfl)

end Descriptors
