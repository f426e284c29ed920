import Mathlib.Data.List.Perm.Subperm
import Mathlib.Data.List.Sort
import Mathlib.Data.Option.Basic
import Mathlib.Data.Prod.Basic
import Mprtp.Lib.Merge

/-! How often an item is in the list that several queues are merged into, and in which order. -/

variable {ι α : Type} {accept : α → Bool} {arrived waiting : ι → List α} {out : List α}
  {ids : List (ι × ℕ)} {taken : ι → ℕ}

/-- The places of the accepted items among the first `m` of a list. -/
def acceptedPlaces (accept : α → Bool) (l : List α) (m : ℕ) : List ℕ :=
  (List.range m).filter fun n => l[n]?.any accept

theorem mem_acceptedPlaces {l : List α} {m n : ℕ} : n ∈ acceptedPlaces accept l m ↔
    n < m ∧ ∃ a, l[n]? = some a ∧ accept a = true := by
  unfold acceptedPlaces
  rw [List.mem_filter, List.mem_range, Option.any_eq_true]

theorem map_acceptedPlaces {l : List α} {m : ℕ} (hm : m ≤ l.length) :
    (acceptedPlaces accept l m).map (fun n => l[n]?) = ((l.take m).filter accept).map some := by
  unfold acceptedPlaces
  induction m with
  | zero => rfl
  | succ m ih =>
    have hget : l[m]? = some l[m] := List.getElem?_eq_getElem hm
    rw [List.range_succ, List.filter_append, List.map_append, ih (Nat.le_of_succ_le hm), List.take_add_one,
      hget, Option.toList_some, List.filter_append, List.map_append]
    congr 1
    rw [List.filter_singleton, List.filter_singleton, hget, Option.any_some]
    cases accept l[m] with
    | true => exact congrArg (fun a => [a]) hget
    | false => rfl

theorem filterMap_range_getElem? (l : List α) : ((List.range l.length).filterMap fun n => l[n]?) = l := by
  induction l with
  | nil => rfl
  | cons a l ih =>
    rw [List.length_cons, List.range_succ_eq_map, List.filterMap_cons, List.filterMap_map]
    exact congrArg (List.cons a) ih

namespace Merged

/-- The ids are those of the accepted items among the ones taken. -/
theorem ids_perm (h : Merged accept arrived waiting out ids taken) {is : List ι} (hnodup : is.Nodup)
    (hall : ∀ id ∈ ids, id.1 ∈ is) :
    ids.Perm (is.flatMap fun i => (acceptedPlaces accept (arrived i) (taken i)).map (Prod.mk i)) := by
  refine (List.perm_ext_iff_of_nodup h.nodup ?_).mpr ?_
  · refine List.nodup_flatMap.mpr ⟨?_, ?_⟩
    · intro i _
      exact (List.nodup_range.filter _).map (Prod.mk_right_injective i)
    · refine hnodup.imp ?_
      intro i j hij id hi hj
      obtain ⟨n, -, rfl⟩ := List.mem_map.mp hi
      obtain ⟨m, -, he⟩ := List.mem_map.mp hj
      exact hij (congrArg Prod.fst he).symm
  · intro id
    obtain ⟨i, n⟩ := id
    rw [h.mem, List.mem_flatMap]
    constructor
    · intro hn
      have hi : i ∈ is := hall (i, n) ((h.mem i n).mpr hn)
      exact ⟨i, hi, List.mem_map_of_mem (mem_acceptedPlaces.mpr hn)⟩
    · intro hn
      obtain ⟨j, -, hmem⟩ := hn
      obtain ⟨m, hm, he⟩ := List.mem_map.mp hmem
      cases he
      exact mem_acceptedPlaces.mp hm

/-- The list has the accepted items among the ones taken. -/
theorem out_perm (h : Merged accept arrived waiting out ids taken) {is : List ι} (hnodup : is.Nodup)
    (hall : ∀ id ∈ ids, id.1 ∈ is) :
    out.Perm (is.flatMap fun i => ((arrived i).take (taken i)).filter accept) := by
  have hids := (h.ids_perm hnodup hall).map fun id => (arrived id.1)[id.2]?
  have hplaces : ∀ i, ((acceptedPlaces accept (arrived i) (taken i)).map (Prod.mk i)).map
      (fun id => (arrived id.1)[id.2]?) = (((arrived i).take (taken i)).filter accept).map some := by
    intro i
    rw [List.map_map]
    exact map_acceptedPlaces (h.taken_le i)
  rw [← h.out, List.map_flatMap] at hids
  simp only [hplaces] at hids
  rw [← List.map_flatMap] at hids
  exact (List.map_perm_map_iff (Option.some_injective α)).mp hids

/-- The list and the accepted items that wait are all the accepted items that have arrived. -/
theorem perm (h : Merged accept arrived waiting out ids taken) {is : List ι} (hnodup : is.Nodup)
    (hall : ∀ id ∈ ids, id.1 ∈ is) :
    (out ++ is.flatMap fun i => (waiting i).filter accept).Perm
      (is.flatMap fun i => (arrived i).filter accept) := by
  have hsplit : ∀ i, (arrived i).filter accept =
      ((arrived i).take (taken i)).filter accept ++ (waiting i).filter accept := by
    intro i
    rw [h.waiting, ← List.filter_append, List.take_append_drop]
  simp only [hsplit]
  exact ((h.out_perm hnodup hall).append_right _).trans (List.flatMap_append_perm is _ _)

theorem eq_filterMap (h : Merged accept arrived waiting out ids taken) :
    out = ids.filterMap fun id => (arrived id.1)[id.2]? := by
  have hmap := congrArg (List.filterMap id) h.out
  rw [List.filterMap_map, List.filterMap_map] at hmap
  exact List.filterMap_some.symm.trans hmap

/-- Items from one queue are in the order of their arrival. -/
theorem ofQueue_sublist (h : Merged accept arrived waiting out ids taken) [DecidableEq ι] (i : ι) :
    ((ids.filter fun id => id.1 = i).filterMap fun id => (arrived id.1)[id.2]?).Sublist (arrived i) := by
  have hall : ∀ id ∈ ids.filter (fun id => id.1 = i), id.1 = i := by
    intro id hid
    simpa using (List.mem_filter.mp hid).2
  have hordered : ((ids.filter fun id => id.1 = i).map Prod.snd).Pairwise (· < ·) := by
    refine List.pairwise_map.mpr ((h.ordered.filter _).imp_of_mem ?_)
    intro id id' hid hid' hlt
    exact hlt ((hall id hid).trans (hall id' hid').symm)
  have hrange : ((ids.filter fun id => id.1 = i).map Prod.snd).Sublist (List.range (arrived i).length) := by
    refine List.sublist_of_subperm_of_pairwise ?_ hordered List.pairwise_lt_range
    refine List.Nodup.subperm (hordered.imp Nat.ne_of_lt) ?_
    intro n hn
    obtain ⟨id, hid, rfl⟩ := List.mem_map.mp hn
    have hlt := ((h.mem id.1 id.2).mp (List.mem_filter.mp hid).1).1
    rw [hall id hid] at hlt
    exact List.mem_range.mpr (hlt.trans_le (h.taken_le i))
  have hget : (ids.filter fun id => id.1 = i).filterMap (fun id => (arrived id.1)[id.2]?) =
      ((ids.filter fun id => id.1 = i).map Prod.snd).filterMap fun n => (arrived i)[n]? := by
    rw [List.filterMap_map]
    refine List.filterMap_congr ?_
    intro id hid
    rw [hall id hid, Function.comp_apply]
  rw [hget]
  have hsub := hrange.filterMap fun n => (arrived i)[n]?
  rwa [filterMap_range_getElem?] at hsub

/-- The items of a kind that arrives in one queue only are in the order of their arrival. -/
theorem filter_sublist (h : Merged accept arrived waiting out ids taken) {p : α → Bool} {i : ι}
    (hp : ∀ j, j ≠ i → ∀ a ∈ arrived j, p a = false) : (out.filter p).Sublist ((arrived i).filter p) := by
  classical
  have hhere : out.filter p =
      ((ids.filter fun id => id.1 = i).filterMap fun id => (arrived id.1)[id.2]?).filter p := by
    conv_lhs => rw [h.eq_filterMap]
    rw [List.filter_filterMap, List.filter_filterMap, List.filterMap_filter]
    refine List.filterMap_congr ?_
    intro id _
    by_cases hi : id.1 = i
    · rw [if_pos (by simpa using hi)]
    · rw [if_neg (by simpa using hi), Option.filter_eq_none_iff]
      intro a ha
      exact Bool.eq_false_iff.mp (hp id.1 hi a (List.mem_of_getElem? ha))
  rw [hhere]
  exact (h.ofQueue_sublist i).filter p

end Merged
