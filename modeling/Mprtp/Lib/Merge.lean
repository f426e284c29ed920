import Mathlib.Data.List.Nodup
import Mathlib.Data.Nat.Basic
import Mathlib.Logic.Function.Basic

/-! Items that arrive in several queues and are taken from the front of any of them, one by one, where
those that are accepted join one list. -/

/-- The item `n` that arrived in the queue `i` has the id `(i, n)`. The first `taken i` items have been
taken from the queue, and the list `out` has exactly the accepted ones of them, each with its id in
`ids`, and those from one queue in the order of their arrival. -/
structure Merged {ι α : Type} (accept : α → Bool) (arrived waiting : ι → List α) (out : List α)
    (ids : List (ι × ℕ)) (taken : ι → ℕ) : Prop where
  taken_le : ∀ i, taken i ≤ (arrived i).length
  waiting : ∀ i, waiting i = (arrived i).drop (taken i)
  out : out.map some = ids.map fun id => (arrived id.1)[id.2]?
  mem : ∀ i n, (i, n) ∈ ids ↔ n < taken i ∧ ∃ a, (arrived i)[n]? = some a ∧ accept a = true
  ordered : ids.Pairwise fun id id' => id.1 = id'.1 → id.2 < id'.2

namespace Merged

variable {ι α : Type} {accept : α → Bool} {arrived waiting : ι → List α} {out : List α}
  {ids : List (ι × ℕ)} {taken : ι → ℕ} {i : ι} {a : α} {rest : List α}

/-- Nothing has been taken yet. -/
theorem nil (accept : α → Bool) (arrived : ι → List α) : Merged accept arrived arrived [] [] fun _ => 0 where
  taken_le := fun _ => Nat.zero_le _
  waiting := fun _ => rfl
  out := rfl
  mem := by
    intro i n
    constructor
    · intro hn
      cases hn
    · intro hn
      exact absurd hn.1 (Nat.not_lt_zero n)
  ordered := .nil

/-- No item is in the list twice. -/
theorem nodup (h : Merged accept arrived waiting out ids taken) : ids.Nodup := by
  refine h.ordered.imp ?_
  intro id id' hlt heq
  rw [heq] at hlt
  exact lt_irrefl _ (hlt rfl)

theorem accept_of_mem (h : Merged accept arrived waiting out ids taken) (ha : a ∈ out) :
    accept a = true := by
  have hmem : some a ∈ ids.map fun id => (arrived id.1)[id.2]? := by
    rw [← h.out]
    exact List.mem_map_of_mem ha
  obtain ⟨id, hid, hget⟩ := List.mem_map.mp hmem
  obtain ⟨-, b, hb, hacc⟩ := (h.mem id.1 id.2).mp hid
  rw [hget] at hb
  cases hb
  exact hacc

theorem arrive (h : Merged accept arrived waiting out ids taken) {arrived' waiting' : ι → List α}
    (new : ι → List α) (ha : ∀ i, arrived' i = arrived i ++ new i)
    (hw : ∀ i, waiting' i = waiting i ++ new i) : Merged accept arrived' waiting' out ids taken where
  taken_le := by
    intro i
    rw [ha, List.length_append]
    exact Nat.le_trans (h.taken_le i) (Nat.le_add_right _ _)
  waiting := by
    intro i
    rw [hw, ha, h.waiting, List.drop_append_of_le_length (h.taken_le i)]
  out := by
    rw [h.out]
    apply List.map_congr_left
    intro id hid
    have hlt := ((h.mem id.1 id.2).mp hid).1
    rw [ha, List.getElem?_append_left (Nat.lt_of_lt_of_le hlt (h.taken_le id.1))]
  mem := by
    intro i n
    rw [h.mem]
    refine and_congr_right fun hlt => ?_
    rw [ha, List.getElem?_append_left (Nat.lt_of_lt_of_le hlt (h.taken_le i))]
  ordered := h.ordered

theorem front (h : Merged accept arrived waiting out ids taken) (hfront : waiting i = a :: rest) :
    (arrived i)[taken i]? = some a ∧ rest = (arrived i).drop (taken i + 1) := by
  have hdrop := (h.waiting i).symm.trans hfront
  constructor
  · have hhead : ((arrived i).drop (taken i)).head? = some a := by rw [hdrop, List.head?_cons]
    rwa [List.head?_drop] at hhead
  · rw [← List.drop_drop, hdrop, List.drop_one, List.tail_cons]

theorem lt_of_front (h : Merged accept arrived waiting out ids taken) (hfront : waiting i = a :: rest) :
    taken i < (arrived i).length := (List.getElem?_eq_some_iff.mp (h.front hfront).1).1

section Take

variable [DecidableEq ι]

/-- One item is taken from the front of its queue. -/
theorem take_queues (h : Merged accept arrived waiting out ids taken) (hfront : waiting i = a :: rest)
    (j : ι) : Function.update taken i (taken i + 1) j ≤ (arrived j).length ∧
      Function.update waiting i rest j = (arrived j).drop (Function.update taken i (taken i + 1) j) := by
  by_cases hj : j = i
  · subst hj
    rw [Function.update_self, Function.update_self]
    exact ⟨h.lt_of_front hfront, (h.front hfront).2⟩
  · rw [Function.update_of_ne hj, Function.update_of_ne hj]
    exact ⟨h.taken_le j, h.waiting j⟩

theorem refused (h : Merged accept arrived waiting out ids taken) (hfront : waiting i = a :: rest)
    (ha : accept a = false) : Merged accept arrived (Function.update waiting i rest) out ids
      (Function.update taken i (taken i + 1)) where
  taken_le := fun j => (h.take_queues hfront j).1
  waiting := fun j => (h.take_queues hfront j).2
  out := h.out
  mem := by
    intro j n
    rw [h.mem]
    by_cases hj : j = i
    · subst hj
      rw [Function.update_self]
      constructor
      · intro hn
        exact ⟨Nat.lt_succ_of_lt hn.1, hn.2⟩
      · intro hn
        obtain ⟨hlt, b, hb, hacc⟩ := hn
        refine ⟨lt_of_le_of_ne (Nat.le_of_lt_succ hlt) ?_, b, hb, hacc⟩
        -- the item that is taken is not accepted
        intro hnt
        rw [hnt, (h.front hfront).1] at hb
        cases hb
        rw [ha] at hacc
        cases hacc
    · rw [Function.update_of_ne hj]
  ordered := h.ordered

theorem accepted (h : Merged accept arrived waiting out ids taken) (hfront : waiting i = a :: rest)
    (ha : accept a = true) : Merged accept arrived (Function.update waiting i rest) (out ++ [a])
      (ids ++ [(i, taken i)]) (Function.update taken i (taken i + 1)) where
  taken_le := fun j => (h.take_queues hfront j).1
  waiting := fun j => (h.take_queues hfront j).2
  out := by
    rw [List.map_append, List.map_append, h.out, List.map_singleton, List.map_singleton,
      (h.front hfront).1]
  mem := by
    intro j n
    rw [List.mem_append, h.mem, List.mem_singleton, Prod.mk.injEq]
    by_cases hj : j = i
    · subst hj
      rw [Function.update_self]
      constructor
      · intro hn
        rcases hn with hn | ⟨-, rfl⟩
        · exact ⟨Nat.lt_succ_of_lt hn.1, hn.2⟩
        · exact ⟨Nat.lt_succ_self _, a, (h.front hfront).1, ha⟩
      · intro hn
        obtain ⟨hlt, hacc⟩ := hn
        rcases Nat.lt_succ_iff_lt_or_eq.mp hlt with hlt | heq
        · exact Or.inl ⟨hlt, hacc⟩
        · exact Or.inr ⟨rfl, heq⟩
    · rw [Function.update_of_ne hj]
      constructor
      · intro hn
        rcases hn with hn | hn
        · exact hn
        · exact absurd hn.1 hj
      · exact Or.inl
  ordered := by
    rw [List.pairwise_append]
    refine ⟨h.ordered, List.pairwise_singleton _ _, ?_⟩
    intro id hid id' hid' heq
    rw [List.mem_singleton] at hid'
    subst hid'
    have hlt := ((h.mem id.1 id.2).mp hid).1
    rwa [heq] at hlt

end Take

end Merged
