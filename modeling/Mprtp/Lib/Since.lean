import Mathlib.Data.List.Induction

/-! The past-time operator "since" over the entries of a log. -/

/-- Some entry of the log satisfies `p`, and all entries behind it satisfy `q`. -/
def Since {ω : Type} (p q : ω → Prop) (H : List ω) : Prop :=
  ∃ pre e post, H = pre ++ e :: post ∧ p e ∧ ∀ e' ∈ post, q e'

theorem not_since_nil {ω : Type} {p q : ω → Prop} : ¬ Since p q [] := by
  intro h'
  obtain ⟨pre, e, post, h, -⟩ := h'
  simp at h

theorem since_concat {ω : Type} {p q : ω → Prop} {H : List ω} {e : ω} :
    Since p q (H ++ [e]) ↔ p e ∨ q e ∧ Since p q H := by
  constructor
  · intro h'
    obtain ⟨pre, a, post, h, hp, hq⟩ := h'
    cases post using List.reverseRecOn with
    | nil =>
      obtain ⟨-, h⟩ := List.append_inj' h rfl
      cases h
      exact Or.inl hp
    | append_singleton post b =>
      rw [← List.cons_append, ← List.append_assoc] at h
      obtain ⟨rfl, hb⟩ := List.append_inj' h rfl
      cases hb
      exact Or.inr ⟨hq e (by simp), pre, a, post, rfl, hp, fun e' he => hq e' (by simp [he])⟩
  · intro h'
    rcases h' with hp | ⟨hqe, pre, a, post, rfl, hp, hq⟩
    · exact ⟨H, e, [], rfl, hp, by simp⟩
    · refine ⟨pre, a, post ++ [e], by simp, hp, ?_⟩
      intro e' he
      rcases List.mem_append.mp he with he | he
      · exact hq e' he
      · rwa [List.mem_singleton.mp he]

/-- An entry of no importance changes nothing. -/
theorem since_concat_of_neither {ω : Type} {p q : ω → Prop} {H : List ω} {e : ω} (hp : ¬ p e)
    (hq : q e) : Since p q (H ++ [e]) ↔ Since p q H := by
  rw [since_concat]
  exact ⟨fun h => (h.resolve_left hp).2, fun h => Or.inr ⟨hq, h⟩⟩

/-- The last entry of the log that satisfies `p` is `e`, and `post` is behind it. -/
structure Last {ω : Type} (p : ω → Prop) (H : List ω) (e : ω) (post : List ω) : Prop where
  entry : p e
  split : ∃ pre, H = pre ++ e :: post
  none : ∀ e' ∈ post, ¬ p e'

theorem not_last_nil {ω : Type} {p : ω → Prop} {e : ω} {post : List ω} : ¬ Last p [] e post := by
  intro h
  obtain ⟨pre, hsplit⟩ := h.split
  simp at hsplit

theorem last_concat {ω : Type} {p : ω → Prop} {H : List ω} {a e : ω} {post : List ω}
    (h : Last p (H ++ [a]) e post) :
    e = a ∧ post = [] ∨ ¬ p a ∧ ∃ post', post = post' ++ [a] ∧ Last p H e post' := by
  obtain ⟨he, ⟨pre, hsplit⟩, hnone⟩ := h
  cases post using List.reverseRecOn with
  | nil =>
    obtain ⟨-, ha⟩ := List.append_inj' hsplit rfl
    cases ha
    exact Or.inl ⟨rfl, rfl⟩
  | append_singleton post b =>
    rw [← List.cons_append, ← List.append_assoc] at hsplit
    obtain ⟨rfl, hb⟩ := List.append_inj' hsplit rfl
    cases hb
    refine Or.inr ⟨hnone a (by simp), post, rfl, he, ⟨pre, rfl⟩, ?_⟩
    intro e' he'
    exact hnone e' (by simp [he'])
