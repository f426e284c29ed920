import Mathlib.Data.List.Forall2
import Mathlib.Data.List.Induction

/-! Computations that log what they do and may get stuck, a Hoare logic whose
assertions see the whole log, and runs of a system that takes one event after another. -/

/-- A log, and a result unless the computation got stuck. -/
structure Exec (ω α : Type) where
  log : List ω
  res : Option α

namespace Exec

variable {ω α β : Type}

protected def bind (x : Exec ω α) (f : α → Exec ω β) : Exec ω β :=
  match x.res with
  | none => ⟨x.log, none⟩
  | some a => ⟨x.log ++ (f a).log, (f a).res⟩

instance : Monad (Exec ω) where
  pure a := ⟨[], some a⟩
  bind := Exec.bind

instance : LawfulMonad (Exec ω) := by
  refine LawfulMonad.mk' _ ?_ ?_ ?_
  · intro α x
    obtain ⟨log, res⟩ := x
    cases res <;> simp [Functor.map, Exec.bind]
  · intro α β a f
    simp [pure, bind, Exec.bind]
  · intro α β γ x f g
    obtain ⟨log, res⟩ := x
    cases res with
    | none => rfl
    | some a =>
      simp only [bind, Exec.bind]
      cases (f a).res <;> simp [List.append_assoc]

theorem mk_some_bind (l : List ω) (a : α) (f : α → Exec ω β) :
    ((⟨l, some a⟩ : Exec ω α) >>= f) = ⟨l ++ (f a).log, (f a).res⟩ := rfl

theorem log_prefix_bind (x : Exec ω α) (f : α → Exec ω β) : x.log <+: (x >>= f).log := by
  change x.log <+: (x.bind f).log
  unfold Exec.bind
  cases x.res with
  | none => exact List.prefix_rfl
  | some a => exact List.prefix_append _ _

theorem log_map (f : α → β) (x : Exec ω α) : (f <$> x).log = x.log := by
  change (x.bind fun a => ⟨[], some (f a)⟩).log = x.log
  unfold Exec.bind
  cases x.res <;> simp

theorem res_map (f : α → β) (x : Exec ω α) : (f <$> x).res = x.res.map f := by
  change (x.bind fun a => ⟨[], some (f a)⟩).res = x.res.map f
  unfold Exec.bind
  cases x.res <;> rfl

theorem res_bind (x : Exec ω α) (f : α → Exec ω β) : (x >>= f).res = x.res.bind fun a => (f a).res := by
  change (x.bind f).res = _
  unfold Exec.bind
  cases x.res <;> rfl

/-- Log one entry. -/
def tell (e : ω) : Exec ω Unit := ⟨[e], some ()⟩

/-- Log entries and stop. -/
def stuck (l : List ω) : Exec ω α := ⟨l, none⟩

/-- The same computation in another log. -/
def mapLog {ω' : Type} (f : ω → ω') (x : Exec ω α) : Exec ω' α := ⟨x.log.map f, x.res⟩

/-- Starting from the log `H`, every entry `e` that `x` adds satisfies `good` at the log in
front of it, and a result satisfies `Q` at the log so far. -/
def Sat (good : List ω → ω → Prop) (H : List ω) (x : Exec ω α) (Q : List ω → α → Prop) : Prop :=
  (∀ pre e post, x.log = pre ++ e :: post → good (H ++ pre) e) ∧
    ∀ a, x.res = some a → Q (H ++ x.log) a

variable {good : List ω → ω → Prop} {H : List ω}

theorem sat_trivial {x : Exec ω α} : x.Sat (fun _ _ => True) H fun _ _ => True :=
  ⟨fun _ _ _ _ => trivial, fun _ _ => trivial⟩

theorem sat_pure {Q : List ω → α → Prop} {a : α} (h : Q H a) :
    (pure a : Exec ω α).Sat good H Q := by
  constructor
  · intro pre e post he
    exact absurd he (by simp [pure])
  · intro b h'
    cases h'
    simpa [pure] using h

theorem sat_single {Q : List ω → α → Prop} {e : ω} {a : α} (hg : good H e) (h : Q (H ++ [e]) a) :
    (⟨[e], some a⟩ : Exec ω α).Sat good H Q := by
  constructor
  · intro pre e' post he
    obtain ⟨rfl, rfl, -⟩ : pre = [] ∧ e = e' ∧ post = [] := by
      cases pre with
      | nil => simpa using he
      | cons c cs => simp at he
    simpa using hg
  · intro _ h'
    cases h'
    exact h

theorem sat_tell {Q : List ω → Unit → Prop} {e : ω} (hg : good H e) (h : Q (H ++ [e]) ()) :
    (tell e).Sat good H Q := sat_single hg h

theorem sat_stuck_nil {Q : List ω → α → Prop} : (stuck [] : Exec ω α).Sat good H Q :=
  ⟨fun pre e post he => absurd he (by simp [stuck]), fun a ha => by simp [stuck] at ha⟩

theorem sat_bind {Q : List ω → α → Prop} {R : List ω → β → Prop} {x : Exec ω α}
    {f : α → Exec ω β} (hx : x.Sat good H Q) (hf : ∀ H' a, Q H' a → (f a).Sat good H' R) :
    (x >>= f).Sat good H R := by
  change (x.bind f).Sat good H R
  unfold Exec.bind
  cases hr : x.res with
  | none => exact ⟨hx.1, fun a ha => by simp at ha⟩
  | some a =>
    obtain ⟨hg, hq⟩ := hf _ a (hx.2 a hr)
    constructor
    · intro pre e post he
      rcases List.append_eq_append_iff.mp he with ⟨mid, rfl, hm⟩ | ⟨mid, hm, hp⟩
      · rw [← List.append_assoc]
        exact hg mid e post hm
      · cases mid with
        | nil =>
          have := hg [] e post (by simpa using hp.symm)
          simpa [hm] using this
        | cons c cs =>
          simp only [List.cons_append, List.cons.injEq] at hp
          obtain ⟨rfl, -⟩ := hp
          exact hx.1 pre e cs hm
    · intro b hb
      simpa [List.append_assoc] using hq b hb

theorem Sat.mono {good' : List ω → ω → Prop} {Q Q' : List ω → α → Prop} {x : Exec ω α}
    (h : x.Sat good H Q) (hg : ∀ H e, good H e → good' H e) (hq : ∀ H a, Q H a → Q' H a) :
    x.Sat good' H Q' :=
  ⟨fun pre e post he => hg _ _ (h.1 pre e post he), fun a ha => hq _ _ (h.2 a ha)⟩

/-- A result is the one the computation comes to. -/
theorem Sat.res {Q : List ω → α → Prop} {x : Exec ω α} (h : x.Sat good H Q) :
    x.Sat good H fun L a => Q L a ∧ x.res = some a :=
  ⟨h.1, fun a ha => ⟨h.2 a ha, ha⟩⟩

/-- The loop rule for an assertion that knows what is left to do. -/
theorem sat_foldlM_rest {γ : Type} {I : List γ → List ω → α → Prop} {f : α → γ → Exec ω α}
    {l : List γ} (hf : ∀ c cs H a, c :: cs <:+ l → I (c :: cs) H a → (f a c).Sat good H (I cs))
    {a : α} (h : I l H a) : (l.foldlM f a).Sat good H (I []) := by
  induction l generalizing H a with
  | nil => exact sat_pure h
  | cons c cs ih =>
    rw [List.foldlM_cons]
    apply sat_bind (hf c cs H a List.suffix_rfl h)
    intro H' a' h'
    exact ih (fun d ds H a hd => hf d ds H a (hd.trans (List.suffix_cons c cs))) h'

/-- The loop rule: an assertion kept by every pass through the body holds after the loop. -/
theorem sat_foldlM {γ : Type} {I : List ω → α → Prop} {f : α → γ → Exec ω α} {l : List γ}
    (hf : ∀ H a c, c ∈ l → I H a → (f a c).Sat good H I) {a : α} (h : I H a) :
    (l.foldlM f a).Sat good H I := by
  refine sat_foldlM_rest (I := fun _ => I) ?_ h
  intro c cs H a hc hI
  exact hf H a c (hc.subset (List.mem_cons_self ..)) hI

/-- The loop rule for an assertion that knows how many passes were made. -/
theorem sat_foldlM_range {I : ℕ → List ω → α → Prop} {f : α → ℕ → Exec ω α}
    (hf : ∀ n H a, I n H a → (f a n).Sat good H (I (n + 1))) {a : α} (h : I 0 H a) (n : ℕ) :
    ((List.range n).foldlM f a).Sat good H (I n) := by
  induction n with
  | zero => exact sat_pure h
  | succ n ih =>
    rw [List.range_succ, List.foldlM_append]
    apply sat_bind ih
    intro H' a' h'
    rw [List.foldlM_cons]
    apply sat_bind (hf n H' a' h')
    exact fun H'' a'' h'' => sat_pure h''

/-- A pass that treats every element of a list on its own, when none gets stuck. -/
theorem mapM_eq {P : ω → Prop} {f : α → Exec ω β} {g : α → β} {l : List α}
    (h : ∀ a ∈ l, ∃ L, f a = ⟨L, some (g a)⟩ ∧ ∀ x ∈ L, P x) :
    ∃ L, l.mapM f = ⟨L, some (l.map g)⟩ ∧ ∀ x ∈ L, P x := by
  induction l with
  | nil => exact ⟨[], rfl, by simp⟩
  | cons a l ih =>
    obtain ⟨L, hf, hL⟩ := h a (by simp)
    obtain ⟨L', hrest, hL'⟩ := ih fun b hb => h b (by simp [hb])
    refine ⟨L ++ (L' ++ []), ?_, ?_⟩
    · rw [List.mapM_cons, hf, mk_some_bind, hrest, mk_some_bind]
      rfl
    · rw [List.append_nil, List.forall_mem_append]
      exact ⟨hL, hL'⟩

theorem sat_ite {Q : List ω → α → Prop} {c : Prop} [Decidable c] {x y : Exec ω α}
    (hx : c → x.Sat good H Q) (hy : ¬ c → y.Sat good H Q) :
    (if c then x else y).Sat good H Q := by
  split
  · exact hx ‹_›
  · exact hy ‹_›

/-- A computation in a log of its own, seen in a log that goes on from `H`. -/
theorem sat_mapLog {ω' : Type} {f : ω → ω'} {good : List ω' → ω' → Prop} {H : List ω'}
    {Q : List ω' → α → Prop} {x : Exec ω α}
    (h : x.Sat (fun L e => good (H ++ L.map f) (f e)) [] fun L a => Q (H ++ L.map f) a) :
    (x.mapLog f).Sat good H Q := by
  constructor
  · intro pre e post he
    obtain ⟨pre', rest, hlog, rfl, hrest⟩ := List.map_eq_append_iff.mp he
    obtain ⟨e', post', rfl, rfl, rfl⟩ := List.map_eq_cons_iff.mp hrest
    exact h.1 pre' e' post' hlog
  · intro a ha
    exact h.2 a ha

/-- The same for what is known of the computation in a log of its own kind that goes on from `L₀`. -/
theorem sat_mapLog_of {ω' : Type} {f : ω → ω'} {good : List ω → ω → Prop}
    {good' : List ω' → ω' → Prop} {L₀ : List ω} {H : List ω'} {Q : List ω → α → Prop}
    {Q' : List ω' → α → Prop} {x : Exec ω α} (h : x.Sat good L₀ Q)
    (hg : ∀ L e, good (L₀ ++ L) e → good' (H ++ L.map f) (f e))
    (hq : ∀ L a, Q (L₀ ++ L) a → Q' (H ++ L.map f) a) : (x.mapLog f).Sat good' H Q' := by
  apply sat_mapLog
  constructor
  · intro pre e post he
    exact hg pre e (h.1 pre e post he)
  · intro a ha
    exact hq x.log a (h.2 a ha)

theorem Sat.and {good' : List ω → ω → Prop} {Q Q' : List ω → α → Prop} {x : Exec ω α}
    (h : x.Sat good H Q) (h' : x.Sat good' H Q') :
    x.Sat (fun L e => good L e ∧ good' L e) H fun L a => Q L a ∧ Q' L a :=
  ⟨fun pre e post he => ⟨h.1 pre e post he, h'.1 pre e post he⟩, fun a ha => ⟨h.2 a ha, h'.2 a ha⟩⟩

/-- The computation comes to a result. -/
def Ends (x : Exec ω α) : Prop := ∃ a, x.res = some a

theorem ends_pure (a : α) : (pure a : Exec ω α).Ends := ⟨a, rfl⟩

theorem not_ends_stuck (l : List ω) : ¬ (stuck l : Exec ω α).Ends := by
  intro h
  obtain ⟨a, ha⟩ := h
  cases ha

theorem ends_bind_iff {x : Exec ω α} {f : α → Exec ω β} : (x >>= f).Ends ↔ ∃ a, x.res = some a ∧ (f a).Ends := by
  unfold Ends
  rw [res_bind]
  constructor
  · intro h
    obtain ⟨b, hb⟩ := h
    obtain ⟨a, ha, hfa⟩ := Option.bind_eq_some_iff.mp hb
    exact ⟨a, ha, b, hfa⟩
  · intro h
    obtain ⟨a, ha, b, hfa⟩ := h
    exact ⟨b, Option.bind_eq_some_iff.mpr ⟨a, ha, hfa⟩⟩

/-- What follows a computation that ends decides. -/
theorem ends_bind_iff_of_ends {P : Prop} {x : Exec ω α} {f : α → Exec ω β} (hx : x.Ends)
    (hf : ∀ a, x.res = some a → ((f a).Ends ↔ P)) : (x >>= f).Ends ↔ P := by
  obtain ⟨a, ha⟩ := hx
  rw [ends_bind_iff, ← hf a ha]
  constructor
  · intro h
    obtain ⟨b, hb, hends⟩ := h
    rw [ha] at hb
    cases hb
    exact hends
  · exact fun h => ⟨a, ha, h⟩

/-- A loop ends when its body does for every element, whatever the state. -/
theorem ends_foldlM_iff {γ : Type} {P : γ → Prop} {f : α → γ → Exec ω α} {l : List γ}
    (h : ∀ a c, (f a c).Ends ↔ P c) (a : α) : (l.foldlM f a).Ends ↔ ∀ c ∈ l, P c := by
  induction l generalizing a with
  | nil => exact iff_of_true (ends_pure a) fun c hc => by cases hc
  | cons c l ih =>
    rw [List.foldlM_cons, ends_bind_iff, List.forall_mem_cons, ← h a c]
    constructor
    · intro hbind
      obtain ⟨a', ha', hl⟩ := hbind
      exact ⟨⟨a', ha'⟩, (ih a').mp hl⟩
    · intro hboth
      obtain ⟨⟨a', ha'⟩, hl⟩ := hboth
      exact ⟨a', ha', (ih a').mpr hl⟩

/-- What follows a computation matters for its result only. -/
theorem bind_congr_of_res {x : Exec ω α} {f f' : α → Exec ω β} (h : ∀ a, x.res = some a → f' a = f a) :
    (x >>= f') = (x >>= f) := by
  change x.bind f' = x.bind f
  unfold Exec.bind
  cases hres : x.res with
  | none => rfl
  | some a =>
    dsimp only
    rw [h a hres]

/-- A loop that ends is the same for any body that does the same where the first one ends. -/
theorem foldlM_eq_of_ends {γ : Type} {f f' : α → γ → Exec ω α} (h : ∀ a c, (f a c).Ends → f' a c = f a c)
    {l : List γ} {a : α} (hends : (l.foldlM f a).Ends) : l.foldlM f' a = l.foldlM f a := by
  induction l generalizing a with
  | nil => rfl
  | cons c l ih =>
    rw [List.foldlM_cons] at hends
    obtain ⟨a', ha', hl⟩ := ends_bind_iff.mp hends
    rw [List.foldlM_cons, List.foldlM_cons, h a c ⟨a', ha'⟩]
    refine bind_congr_of_res ?_
    intro b hb
    rw [ha'] at hb
    cases hb
    exact ih hl

end Exec

section Run

variable {ω σ ε : Type}

/-- Runs from `s₀` in which every event satisfies `ok` at the log and state it meets: the log
so far, and the state reached unless the last event got stuck. -/
inductive Run (step : σ → ε → Exec ω σ) (ok : List ω → σ → ε → Prop) (s₀ : σ) :
    List ω → Option σ → Prop
  | nil : Run step ok s₀ [] (some s₀)
  | snoc {H : List ω} {s : σ} (e : ε) : Run step ok s₀ H (some s) → ok H s e →
      Run step ok s₀ (H ++ (step s e).log) (step s e).res

variable {step : σ → ε → Exec ω σ} {ok : List ω → σ → ε → Prop} {s₀ : σ}

theorem Run.mono {ok' : List ω → σ → ε → Prop} {H : List ω} {r : Option σ} (hrun : Run step ok s₀ H r)
    (h : ∀ H s e, ok H s e → ok' H s e) : Run step ok' s₀ H r := by
  induction hrun with
  | nil => exact .nil
  | snoc e _ hok ih => exact ih.snoc e (h _ _ _ hok)

/-- A run goes on where another one has ended. -/
theorem Run.append {H H' : List ω} {s₁ : σ} {r : Option σ} (hrun : Run step ok s₀ H (some s₁))
    (hrun' : Run step (fun L s e => ok (H ++ L) s e) s₁ H' r) : Run step ok s₀ (H ++ H') r := by
  induction hrun' with
  | nil => rwa [List.append_nil]
  | snoc e _ hok ih =>
    rw [← List.append_assoc]
    exact ih.snoc e hok

/-- The run rule for steps that know of the run that led to them. -/
theorem Run.sat_run {good : List ω → ω → Prop} {I : List ω → σ → Prop} (h₀ : I [] s₀)
    (hstep : ∀ H s e, Run step ok s₀ H (some s) → I H s → ok H s e → (step s e).Sat good H I)
    {H : List ω} {r : Option σ} (hrun : Run step ok s₀ H r) :
    (∀ pre e post, H = pre ++ e :: post → good pre e) ∧ ∀ s, r = some s → I H s := by
  induction hrun with
  | nil => exact ⟨fun pre e post he => absurd he (by simp), fun s hs => by cases hs; exact h₀⟩
  | @snoc H s e hrun hok ih =>
    obtain ⟨hgood, hinv⟩ := ih
    obtain ⟨hg, hq⟩ := hstep H s e hrun (hinv s rfl) hok
    refine ⟨fun pre a post he => ?_, fun s' hs' => hq s' hs'⟩
    rcases List.append_eq_append_iff.mp he with ⟨mid, rfl, hm⟩ | ⟨mid, hm, hp⟩
    · exact hg mid a post hm
    · cases mid with
      | nil =>
        have := hg [] a post (by simpa using hp.symm)
        simpa [hm] using this
      | cons c cs =>
        simp only [List.cons_append, List.cons.injEq] at hp
        obtain ⟨rfl, -⟩ := hp
        exact hgood pre a cs hm

/-- The run rule: what every step keeps holds after every run, and what every step guarantees
of the entries it logs holds of every entry of the log. -/
theorem Run.sat {good : List ω → ω → Prop} {I : List ω → σ → Prop} (h₀ : I [] s₀)
    (hstep : ∀ H s e, I H s → ok H s e → (step s e).Sat good H I)
    {H : List ω} {r : Option σ} (hrun : Run step ok s₀ H r) :
    (∀ pre e post, H = pre ++ e :: post → good pre e) ∧ ∀ s, r = some s → I H s :=
  Run.sat_run h₀ (fun H s e _ => hstep H s e) hrun

/-- The run rule, for the entry at a given place of the log. -/
theorem Run.sat_getElem {good : List ω → ω → Prop} {I : List ω → σ → Prop} (h₀ : I [] s₀)
    (hstep : ∀ H s e, I H s → ok H s e → (step s e).Sat good H I)
    {H : List ω} {r : Option σ} (hrun : Run step ok s₀ H r) {n : ℕ} {e : ω}
    (hn : H[n]? = some e) : good (H.take n) e := by
  obtain ⟨hlt, he⟩ := List.getElem?_eq_some_iff.mp hn
  have hsplit : H = H.take n ++ e :: H.drop (n + 1) := by
    rw [← he, ← List.drop_eq_getElem_cons hlt, List.take_append_drop]
  exact (Run.sat h₀ hstep hrun).1 _ e _ hsplit

/-- A system whose states carry more than those of another one, but which does the same, has all
runs of the other one. -/
theorem Run.lift {τ : Type} {step' : τ → ε → Exec ω τ} {f : τ → σ}
    (hstep : ∀ t e, f <$> step' t e = step (f t) e) {t₀ : τ} {H : List ω} {r : Option σ}
    (hrun : Run step (fun _ _ _ => True) (f t₀) H r) :
    ∃ r', Run step' (fun _ _ _ => True) t₀ H r' ∧ r'.map f = r := by
  induction hrun with
  | nil => exact ⟨some t₀, .nil, rfl⟩
  | @snoc H s e _ _ ih =>
    obtain ⟨r', hrun', hr'⟩ := ih
    obtain ⟨t, rfl, rfl⟩ := Option.map_eq_some_iff.mp hr'
    refine ⟨(step' t e).res, ?_, ?_⟩
    · rw [← hstep, Exec.log_map]
      exact hrun'.snoc e trivial
    · rw [← hstep, Exec.res_map]

/-- The log and the state after events that are chosen one after another from the log so far. -/
def afterChoices (step : σ → ε → Exec ω σ) (s₀ : σ) (choices : List (List ω → ε)) : List ω × Option σ :=
  choices.foldl (fun p choose =>
    match p.2 with
    | none => p
    | some s => (p.1 ++ (step s (choose p.1)).log, (step s (choose p.1)).res)) ([], some s₀)

/-- Choosing events that are admitted when they are chosen is a run. -/
theorem Run.of_choices_take {choices : List (List ω → ε)}
    (hok : ∀ n choose s, choices[n]? = some choose →
      (afterChoices step s₀ (choices.take n)).2 = some s →
        ok (afterChoices step s₀ (choices.take n)).1 s
          (choose (afterChoices step s₀ (choices.take n)).1)) :
    Run step ok s₀ (afterChoices step s₀ choices).1 (afterChoices step s₀ choices).2 := by
  induction choices using List.reverseRecOn with
  | nil => exact .nil
  | append_singleton choices choose ih =>
    have hlast := hok choices.length choose
    rw [List.getElem?_concat_length, List.take_left] at hlast
    have hrun : Run step ok s₀ (afterChoices step s₀ choices).1 (afterChoices step s₀ choices).2 := by
      apply ih
      intro n choose' s hn
      have hlt := (List.getElem?_eq_some_iff.mp hn).1
      have hbefore := hok n choose' s
      rw [List.getElem?_append_left hlt, List.take_append_of_le_length (Nat.le_of_lt hlt)] at hbefore
      exact hbefore hn
    have hsnoc : afterChoices step s₀ (choices ++ [choose]) =
        match (afterChoices step s₀ choices).2 with
        | none => afterChoices step s₀ choices
        | some s => ((afterChoices step s₀ choices).1 ++
            (step s (choose (afterChoices step s₀ choices).1)).log,
          (step s (choose (afterChoices step s₀ choices).1)).res) := by
      unfold afterChoices
      rw [List.foldl_append, List.foldl_cons, List.foldl_nil]
    rw [hsnoc]
    generalize afterChoices step s₀ choices = p at hrun hlast ⊢
    obtain ⟨H, res⟩ := p
    cases res with
    | none => exact hrun
    | some s => exact hrun.snoc (choose H) (hlast s rfl rfl)

/-- Choosing events that are admitted whatever the log and the state is a run. -/
theorem Run.of_choices {choices : List (List ω → ε)}
    (hok : ∀ choose ∈ choices, ∀ H s, ok H s (choose H)) :
    Run step ok s₀ (afterChoices step s₀ choices).1 (afterChoices step s₀ choices).2 :=
  Run.of_choices_take fun _ choose s hn _ => hok choose (List.mem_of_getElem? hn) _ s

/-- Taking the events of a list one after another is a run when each is admitted in its turn. -/
theorem Run.foldlM_of (s₀ : σ) (es : List ε)
    (hok : ∀ n e s, es[n]? = some e → ((es.take n).foldlM step s₀).res = some s →
      ok ((es.take n).foldlM step s₀).log s e) :
    Run step ok s₀ (es.foldlM step s₀).log (es.foldlM step s₀).res := by
  induction es using List.reverseRecOn with
  | nil => exact .nil
  | append_singleton es e ih =>
    have hlast := hok es.length e
    rw [List.getElem?_concat_length, List.take_left] at hlast
    have hrun : Run step ok s₀ (es.foldlM step s₀).log (es.foldlM step s₀).res := by
      apply ih
      intro n e' s hn
      have hlt := (List.getElem?_eq_some_iff.mp hn).1
      have hbefore := hok n e' s
      rw [List.getElem?_append_left hlt, List.take_append_of_le_length (Nat.le_of_lt hlt)] at hbefore
      exact hbefore hn
    rw [List.foldlM_append]
    simp only [List.foldlM_cons, List.foldlM_nil, bind_pure]
    change Run _ _ _ (Exec.bind _ _).log (Exec.bind _ _).res
    unfold Exec.bind
    generalize es.foldlM step s₀ = x at hrun hlast ⊢
    obtain ⟨H, res⟩ := x
    cases res with
    | none => exact hrun
    | some s => exact hrun.snoc e (hlast s rfl rfl)

theorem Run.foldlM (s₀ : σ) (es : List ε) :
    Run step (fun _ _ _ => True) s₀ (es.foldlM step s₀).log (es.foldlM step s₀).res :=
  Run.foldlM_of s₀ es fun _ _ _ _ _ => trivial

/-- A step whose log begins with the event and the state it meets. -/
def noting (step : σ → ε → Exec ω σ) (s : σ) (e : ε) : Exec ((σ × ε) ⊕ ω) σ := do
  Exec.tell (.inl (s, e))
  (step s e).mapLog .inr

/-- The entries of the steps themselves. -/
def told (H : List ((σ × ε) ⊕ ω)) : List ω := H.filterMap Sum.getRight?

theorem mem_told {H : List ((σ × ε) ⊕ ω)} {e : ω} : e ∈ told H ↔ .inr e ∈ H := by
  unfold told
  rw [List.mem_filterMap]
  constructor
  · intro h
    obtain ⟨e', he', heq⟩ := h
    cases e' with
    | inl call => cases heq
    | inr e' =>
      cases heq
      exact he'
  · exact fun h => ⟨_, h, rfl⟩

theorem told_append (H H' : List ((σ × ε) ⊕ ω)) : told (H ++ H') = told H ++ told H' :=
  List.filterMap_append

theorem told_map_inr (L : List ω) : told (L.map (Sum.inr : ω → (σ × ε) ⊕ ω)) = L := by
  unfold told
  rw [List.filterMap_map]
  exact List.filterMap_some

theorem told_noted (H : List ((σ × ε) ⊕ ω)) (s : σ) (e : ε) (L : List ω) :
    told (H ++ [.inl (s, e)] ++ L.map .inr) = told H ++ L := by
  rw [told_append, told_append, told_map_inr]
  exact congrArg (· ++ L) (List.append_nil _)

theorem noting_log (s : σ) (e : ε) : (noting step s e).log = [.inl (s, e)] ++ (step s e).log.map .inr := rfl

/-! What is read off the calls that are noted does not depend on what they log. -/

theorem flatMap_noted {α : Type} {f : (σ × ε) ⊕ ω → List α} (hf : ∀ a, f (.inr a) = [])
    (H : List ((σ × ε) ⊕ ω)) (s : σ) (e : ε) (L : List ω) :
    (H ++ [Sum.inl (s, e)] ++ L.map Sum.inr).flatMap f = H.flatMap f ++ f (.inl (s, e)) := by
  have hnone : (L.map Sum.inr).flatMap f = [] := by
    rw [List.flatMap_map]
    exact List.flatMap_eq_nil_iff.mpr fun a _ => hf a
  rw [List.flatMap_append, List.flatMap_append, List.flatMap_singleton, hnone, List.append_nil]

theorem filterMap_noted {α : Type} {f : (σ × ε) ⊕ ω → Option α} (hf : ∀ a, f (.inr a) = none)
    (H : List ((σ × ε) ⊕ ω)) (s : σ) (e : ε) (L : List ω) :
    (H ++ [Sum.inl (s, e)] ++ L.map Sum.inr).filterMap f = H.filterMap f ++ (f (.inl (s, e))).toList := by
  rw [List.filterMap_eq_flatMap_toList, List.filterMap_eq_flatMap_toList, flatMap_noted]
  intro a
  rw [hf]
  rfl

/-- The last call that is noted. -/
def lastCall? (H : List ((σ × ε) ⊕ ω)) : Option (σ × ε) := (H.filterMap Sum.getLeft?).getLast?

theorem lastCall?_noted (H : List ((σ × ε) ⊕ ω)) (s : σ) (e : ε) (L : List ω) :
    lastCall? (H ++ [Sum.inl (s, e)] ++ L.map Sum.inr) = some (s, e) := by
  unfold lastCall?
  rw [filterMap_noted fun _ => rfl]
  exact List.getLast?_concat

theorem countP_noted {p : (σ × ε) ⊕ ω → Bool} (hp : ∀ a, p (.inr a) = false)
    (H : List ((σ × ε) ⊕ ω)) (s : σ) (e : ε) (L : List ω) :
    (H ++ [Sum.inl (s, e)] ++ L.map Sum.inr).countP p = H.countP p + if p (.inl (s, e)) then 1 else 0 := by
  have hnone : (L.map Sum.inr).countP p = 0 := by
    rw [List.countP_map, List.countP_eq_zero]
    exact fun a _ => Bool.eq_false_iff.mp (hp a)
  rw [List.countP_append, List.countP_append, List.countP_singleton, hnone, Nat.add_zero]

/-- Every run can be noted. -/
theorem Run.noted {H : List ω} {r : Option σ} (hrun : Run step ok s₀ H r) :
    ∃ H', Run (noting step) (fun H s e => ok (told H) s e) s₀ H' r ∧ told H' = H := by
  induction hrun with
  | nil => exact ⟨[], .nil, rfl⟩
  | @snoc H s e _ hok ih =>
    obtain ⟨H', hrun', rfl⟩ := ih
    refine ⟨_, hrun'.snoc e hok, ?_⟩
    rw [noting_log, ← List.append_assoc, told_noted]

/-- A noted step, from what is known of the step itself in a log of its own. -/
theorem Exec.sat_noting_own {s : σ} {e : ε} {H : List ((σ × ε) ⊕ ω)}
    {good : List ((σ × ε) ⊕ ω) → (σ × ε) ⊕ ω → Prop} {Q : List ((σ × ε) ⊕ ω) → σ → Prop}
    (hg : good H (.inl (s, e)))
    (h : (step s e).Sat (fun L a => good (H ++ [.inl (s, e)] ++ L.map .inr) (.inr a)) []
      fun L s' => Q (H ++ [.inl (s, e)] ++ L.map .inr) s') : (noting step s e).Sat good H Q := by
  refine Exec.sat_bind (Q := fun H' _ => H' = H ++ [.inl (s, e)]) (Exec.sat_tell hg rfl) ?_
  intro H' _ hH
  obtain rfl := hH
  exact Exec.sat_mapLog h

/-- A noted step, from what is known of the step itself. -/
theorem Exec.sat_noting {s : σ} {e : ε} {H : List ((σ × ε) ⊕ ω)}
    {good : List ((σ × ε) ⊕ ω) → (σ × ε) ⊕ ω → Prop} {Q : List ((σ × ε) ⊕ ω) → σ → Prop}
    {g : List ω → ω → Prop} {I : List ω → σ → Prop} (hg : good H (.inl (s, e)))
    (h : (step s e).Sat g (told H) I)
    (hgood : ∀ L a, g (told H ++ L) a → good (H ++ [.inl (s, e)] ++ L.map .inr) (.inr a))
    (hQ : ∀ L s', I (told H ++ L) s' → Q (H ++ [.inl (s, e)] ++ L.map .inr) s') :
    (noting step s e).Sat good H Q := by
  refine Exec.sat_bind (Q := fun H' _ => H' = H ++ [.inl (s, e)]) (Exec.sat_tell hg rfl) ?_
  intro H' _ hH
  obtain rfl := hH
  exact Exec.sat_mapLog_of h hgood hQ

/-- A transitive relation that every step keeps holds between any two calls of a run. -/
theorem Run.noted_rel {I : σ → Prop} {R : σ → σ → Prop}
    (htrans : ∀ s₁ s₂ s₃, R s₁ s₂ → R s₂ s₃ → R s₁ s₃) (h₀ : I s₀)
    (hstep : ∀ s e, I s → (step s e).Sat (fun _ _ => True) [] fun _ s' => I s' ∧ R s s')
    {H : List ((σ × ε) ⊕ ω)} {r : Option σ} (hrun : Run (noting step) (fun _ _ _ => True) s₀ H r) {m n : ℕ}
    {s s' : σ} {e e' : ε} (hmn : m < n) (hm : H[m]? = some (.inl (s, e))) (hn : H[n]? = some (.inl (s', e'))) :
    I s' ∧ R s s' := by
  let after : List ((σ × ε) ⊕ ω) → σ → Prop := fun H s => I s ∧ ∀ s₀ e₀, Sum.inl (s₀, e₀) ∈ H → R s₀ s
  let good : List ((σ × ε) ⊕ ω) → (σ × ε) ⊕ ω → Prop := fun H a => ∀ s e, a = .inl (s, e) → after H s
  have hnoted : ∀ H s e, after H s → True → (noting step s e).Sat good H after := by
    intro H s e hs _
    refine Exec.sat_noting_own ?_ ((hstep s e hs.1).mono ?_ ?_)
    · intro s₁ e₁ heq
      cases heq
      exact hs
    · intro L a _ s₁ e₁ heq
      cases heq
    · intro L s' hs'
      refine ⟨hs'.1, fun s₁ e₁ hmem => ?_⟩
      rcases List.mem_append.mp hmem with hmem | hmem
      · rcases List.mem_append.mp hmem with hmem | hmem
        · exact htrans _ _ _ (hs.2 s₁ e₁ hmem) hs'.2
        · cases List.mem_singleton.mp hmem
          exact hs'.2
      · obtain ⟨a, -, ha⟩ := List.mem_map.mp hmem
        cases ha
  have hnil : after [] s₀ := by
    refine ⟨h₀, fun s₁ e₁ hmem => ?_⟩
    cases hmem
  obtain ⟨hI, hrel⟩ := Run.sat_getElem hnil hnoted hrun hn s' e' rfl
  refine ⟨hI, hrel s e (List.mem_of_getElem? (i := m) ?_)⟩
  rw [List.getElem?_take_of_lt hmn]
  exact hm

end Run
