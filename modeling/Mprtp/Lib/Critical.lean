import Mathlib.Logic.Function.Basic
import Mprtp.Lib.Exec

/-! An object whose calls take many steps each, and threads that take a lock around every call: what they log,
however they interleave, is what a run of the object logs. -/

section Critical

variable {ι ω σ ε : Type}

/-- Where a thread is with the object. -/
inductive Stage (ω σ : Type) where
  | outside
  | entered
  /-- The call has read the object: what it is still to log, and what it leaves unless it gets stuck. -/
  | calling (todo : List ω) (res : Option σ)
  | left

namespace Stage

/-- What the thread is still to log. -/
def todo : Stage ω σ → List ω
  | .calling todo _ => todo
  | _ => []

/-- No call is in progress. -/
def Quiet : Stage ω σ → Prop
  | .calling _ _ => False
  | _ => True

end Stage

/-- An object with its lock, what its calls have logged, and where every thread is. -/
structure Locked (ι ω σ : Type) where
  obj : σ
  log : List ω := []
  owner : Option ι := none
  stage : ι → Stage ω σ := fun _ => .outside

namespace Locked

variable {step : σ → ε → Exec ω σ} {ok : ι → ε → Prop} {s₀ : σ} {m m' : Locked ι ω σ} {i : ι} {e : ε}

/-- The calls so far have come one after another: without a call in progress, the log is that of a run which has
led to the object; the log of a call in progress goes on from such a run. A thread `i` makes calls that satisfy
`ok i`. -/
structure Serial (step : σ → ε → Exec ω σ) (ok : ι → ε → Prop) (s₀ : σ) (m : Locked ι ω σ) : Prop where
  alone : ∀ i, m.stage i = .outside ↔ m.owner ≠ some i
  quiet : (∀ i, (m.stage i).Quiet) → Run step (fun _ _ e => ∃ i, ok i e) s₀ m.log (some m.obj)
  busy : ∀ i todo res, m.stage i = .calling todo res → ∃ H e done, ok i e ∧
    Run step (fun _ _ e => ∃ i, ok i e) s₀ H (some m.obj) ∧ m.log = H ++ done ∧ step m.obj e = ⟨done ++ todo, res⟩

theorem serial_new (step : σ → ε → Exec ω σ) (ok : ι → ε → Prop) (s₀ : σ) :
    Serial step ok s₀ ({ obj := s₀ } : Locked ι ω σ) where
  alone := fun i => ⟨fun _ => nofun, fun _ => rfl⟩
  quiet := fun _ => .nil
  busy := by
    intro i todo res h
    cases h

theorem Serial.owner_eq (h : Serial step ok s₀ m) (hi : m.stage i ≠ .outside) : m.owner = some i := by
  by_contra hne
  exact hi ((h.alone i).mpr hne)

theorem exists_calling (h : ¬ ∀ i, (m.stage i).Quiet) : ∃ i todo res, m.stage i = .calling todo res := by
  obtain ⟨i, hi⟩ := not_forall.mp h
  cases hstage : m.stage i with
  | calling todo res => exact ⟨i, todo, res, hstage⟩
  | outside =>
    rw [hstage] at hi
    exact absurd trivial hi
  | entered =>
    rw [hstage] at hi
    exact absurd trivial hi
  | left =>
    rw [hstage] at hi
    exact absurd trivial hi

/-- What has been logged so far is in front of the log of a run. -/
theorem Serial.log_prefix (h : Serial step ok s₀ m) :
    ∃ H r, Run step (fun _ _ e => ∃ i, ok i e) s₀ H r ∧ m.log <+: H := by
  by_cases hquiet : ∀ i, (m.stage i).Quiet
  · exact ⟨m.log, some m.obj, h.quiet hquiet, List.prefix_rfl⟩
  · obtain ⟨i, todo, res, hstage⟩ := exists_calling hquiet
    obtain ⟨H, e, done, hok, hrun, hlog, hstep⟩ := h.busy i todo res hstage
    have hnext := hrun.snoc e ⟨i, hok⟩
    rw [hstep] at hnext
    refine ⟨_, _, hnext, todo, ?_⟩
    rw [hlog, List.append_assoc]

/-- A run has led to the object. -/
theorem Serial.obj_run (h : Serial step ok s₀ m) :
    ∃ H, Run step (fun _ _ e => ∃ i, ok i e) s₀ H (some m.obj) := by
  by_cases hquiet : ∀ i, (m.stage i).Quiet
  · exact ⟨m.log, h.quiet hquiet⟩
  · obtain ⟨i, todo, res, hstage⟩ := exists_calling hquiet
    obtain ⟨H, e, done, -, hrun, -⟩ := h.busy i todo res hstage
    exact ⟨H, hrun⟩

/-- The lock excludes: a thread that is not outside owns the lock, so all others are outside. -/
theorem Serial.outside_of_ne (h : Serial step ok s₀ m) (hi : m.stage i ≠ .outside) {j : ι} (hj : j ≠ i) :
    m.stage j = .outside := by
  refine (h.alone j).mpr ?_
  rw [h.owner_eq hi]
  intro heq
  exact hj (Option.some.inj heq).symm

section Next

variable [DecidableEq ι]

/-- The thread `i` comes to another stage. -/
def setStage (m : Locked ι ω σ) (i : ι) (st : Stage ω σ) : Locked ι ω σ :=
  { m with stage := Function.update m.stage i st }

@[simp] theorem setStage_self (m : Locked ι ω σ) (i : ι) (st : Stage ω σ) : (m.setStage i st).stage i = st :=
  Function.update_self ..

theorem setStage_of_ne (m : Locked ι ω σ) {i j : ι} (st : Stage ω σ) (h : j ≠ i) :
    (m.setStage i st).stage j = m.stage j :=
  Function.update_of_ne h ..

/-- The next step of a thread that takes the lock, calls the object with `e` and gives the lock back;
`none` while another thread has the lock, and for good once the call is stuck. -/
def next (step : σ → ε → Exec ω σ) (m : Locked ι ω σ) (i : ι) (e : ε) : Option (Locked ι ω σ) :=
  match m.stage i with
  | .outside =>
    match m.owner with
    | none => some ({ m with owner := some i }.setStage i .entered)
    | some _ => none
  | .entered => some (m.setStage i (.calling (step m.obj e).log (step m.obj e).res))
  | .calling (a :: todo) res => some ({ m with log := m.log ++ [a] }.setStage i (.calling todo res))
  | .calling [] (some s) => some ({ m with obj := s }.setStage i .left)
  | .calling [] none => none
  | .left => some ({ m with owner := none }.setStage i .outside)

/-- What a step of a thread does. -/
inductive Next (step : σ → ε → Exec ω σ) (m : Locked ι ω σ) (i : ι) (e : ε) : Locked ι ω σ → Prop
  | lock : m.stage i = .outside → m.owner = none →
      Next step m i e ({ m with owner := some i }.setStage i .entered)
  | call : m.stage i = .entered → Next step m i e (m.setStage i (.calling (step m.obj e).log (step m.obj e).res))
  | write {a : ω} {todo : List ω} {res : Option σ} : m.stage i = .calling (a :: todo) res →
      Next step m i e ({ m with log := m.log ++ [a] }.setStage i (.calling todo res))
  | finish {s : σ} : m.stage i = .calling [] (some s) → Next step m i e ({ m with obj := s }.setStage i .left)
  | unlock : m.stage i = .left → Next step m i e ({ m with owner := none }.setStage i .outside)

theorem next_cases (h : m.next step i e = some m') : Next step m i e m' := by
  unfold next at h
  split at h
  · rename_i hstage
    split at h
    · rename_i howner
      cases h
      exact .lock hstage howner
    · cases h
  · rename_i hstage
    cases h
    exact .call hstage
  · rename_i hstage
    cases h
    exact .write hstage
  · rename_i hstage
    cases h
    exact .finish hstage
  · cases h
  · rename_i hstage
    cases h
    exact .unlock hstage

theorem Next.next_eq (h : Next step m i e m') : m.next step i e = some m' := by
  unfold next
  cases h with
  | lock hstage hfree => rw [hstage, hfree]
  | call hstage => rw [hstage]
  | write hstage => rw [hstage]
  | finish hstage => rw [hstage]
  | unlock hstage => rw [hstage]

/-- A step of one thread leaves the others where they are. -/
theorem Next.stage_of_ne (h : Next step m i e m') {j : ι} (hj : j ≠ i) : m'.stage j = m.stage j := by
  cases h with
  | lock => exact setStage_of_ne _ _ hj
  | call => exact setStage_of_ne _ _ hj
  | write => exact setStage_of_ne _ _ hj
  | finish => exact setStage_of_ne _ _ hj
  | unlock => exact setStage_of_ne _ _ hj

/-- A thread steps only when the lock is free or its own. -/
theorem Serial.owner_of_next (h : Serial step ok s₀ m) (hnext : Next step m i e m') :
    m.owner = none ∨ m.owner = some i := by
  cases hnext with
  | lock _ hfree => exact Or.inl hfree
  | call hi => exact Or.inr (h.owner_eq (hi.trans_ne nofun))
  | write hi => exact Or.inr (h.owner_eq (hi.trans_ne nofun))
  | finish hi => exact Or.inr (h.owner_eq (hi.trans_ne nofun))
  | unlock hi => exact Or.inr (h.owner_eq (hi.trans_ne nofun))

theorem not_quiet_calling (m : Locked ι ω σ) (i : ι) (todo : List ω) (res : Option σ) :
    ¬ ∀ j, ((m.setStage i (.calling todo res)).stage j).Quiet := by
  intro hquiet
  have habsurd := hquiet i
  rw [setStage_self] at habsurd
  exact habsurd

theorem Serial.alone_setStage (h : Serial step ok s₀ m) (hi : m.stage i ≠ .outside) {st : Stage ω σ}
    (hst : st ≠ .outside) (j : ι) : (m.setStage i st).stage j = .outside ↔ m.owner ≠ some j := by
  by_cases hj : j = i
  · subst hj
    rw [setStage_self, ← h.alone]
    exact iff_of_false hst hi
  · rw [setStage_of_ne _ _ hj]
    exact h.alone j

/-- Between its calls the thread that owns the lock finds the log of a run. -/
theorem Serial.quiet_of_own (h : Serial step ok s₀ m) (hi : m.stage i ≠ .outside) (hquiet : (m.stage i).Quiet) :
    Run step (fun _ _ e => ∃ i, ok i e) s₀ m.log (some m.obj) := by
  apply h.quiet
  intro j
  by_cases hj : j = i
  · rw [hj]
    exact hquiet
  · rw [h.outside_of_ne hi hj]
    trivial

/-- A thread that moves within its critical section is the only one in a call, if any is. -/
theorem Serial.calling_setStage (h : Serial step ok s₀ m) (hi : m.stage i ≠ .outside) {st : Stage ω σ} {j : ι}
    {todo : List ω} {res : Option σ} (hj : (m.setStage i st).stage j = .calling todo res) :
    j = i ∧ st = .calling todo res := by
  by_cases hji : j = i
  · subst hji
    rw [← hj, setStage_self]
    exact ⟨rfl, rfl⟩
  · rw [setStage_of_ne _ _ hji, h.outside_of_ne hi hji] at hj
    cases hj

theorem Serial.lock (h : Serial step ok s₀ m) (hfree : m.owner = none) :
    Serial step ok s₀ ({ m with owner := some i }.setStage i .entered) := by
  have hall : ∀ j, m.stage j = .outside := by
    intro j
    refine (h.alone j).mpr ?_
    rw [hfree]
    exact Option.some_ne_none j ∘ Eq.symm
  refine ⟨?_, ?_, ?_⟩
  · intro j
    by_cases hj : j = i
    · subst hj
      rw [setStage_self]
      exact iff_of_false nofun fun hne => hne rfl
    · rw [setStage_of_ne _ _ hj]
      exact ⟨fun _ heq => hj (Option.some.inj heq).symm, fun _ => hall j⟩
  · intro _
    apply h.quiet
    intro j
    rw [hall]
    trivial
  · intro j todo res hj
    by_cases hji : j = i
    · subst hji
      rw [setStage_self] at hj
      cases hj
    · rw [setStage_of_ne _ _ hji] at hj
      rw [hall] at hj
      cases hj

theorem Serial.unlock (h : Serial step ok s₀ m) (hi : m.stage i = .left) :
    Serial step ok s₀ ({ m with owner := none }.setStage i .outside) := by
  have hin : m.stage i ≠ .outside := hi.trans_ne nofun
  refine ⟨?_, ?_, ?_⟩
  · intro j
    refine iff_of_true ?_ nofun
    by_cases hj : j = i
    · subst hj
      exact setStage_self ..
    · rw [setStage_of_ne _ _ hj]
      exact h.outside_of_ne hin hj
  · intro _
    refine h.quiet_of_own hin ?_
    rw [hi]
    trivial
  · intro j todo res hj
    cases (h.calling_setStage hin hj).2

/-- Every step of every thread keeps the calls one after another. -/
theorem Serial.next (h : Serial step ok s₀ m) (hnext : Next step m i e m') (he : ok i e) :
    Serial step ok s₀ m' := by
  cases hnext with
  | lock _ hfree => exact h.lock hfree
  | call hi =>
    have hin : m.stage i ≠ .outside := hi.trans_ne nofun
    refine ⟨h.alone_setStage hin nofun, fun hquiet => absurd hquiet (not_quiet_calling m i _ _), ?_⟩
    intro j todo res hj
    obtain ⟨rfl, hcalling⟩ := h.calling_setStage hin hj
    cases hcalling
    refine ⟨m.log, e, [], he, h.quiet_of_own hin ?_, (List.append_nil _).symm, rfl⟩
    rw [hi]
    trivial
  | @write a todo res hi =>
    have hin : m.stage i ≠ .outside := hi.trans_ne nofun
    refine ⟨h.alone_setStage hin nofun, fun hquiet => absurd hquiet (not_quiet_calling m i _ _), ?_⟩
    intro j todo' res' hj
    obtain ⟨rfl, hcalling⟩ := h.calling_setStage hin hj
    cases hcalling
    obtain ⟨H, e', done, hok, hrun, hlog, hstep⟩ := h.busy _ _ _ hi
    refine ⟨H, e', done ++ [a], hok, hrun, ?_, ?_⟩
    · change m.log ++ [a] = _
      rw [hlog, List.append_assoc]
    · rw [List.append_assoc]
      exact hstep
  | @finish s hi =>
    have hin : m.stage i ≠ .outside := hi.trans_ne nofun
    refine ⟨h.alone_setStage hin nofun, ?_, ?_⟩
    · intro _
      obtain ⟨H, e', done, hok, hrun, hlog, hstep⟩ := h.busy _ _ _ hi
      have hnext := hrun.snoc e' ⟨i, hok⟩
      rw [hstep, List.append_nil] at hnext
      change Run _ _ _ m.log (some s)
      rw [hlog]
      exact hnext
    · intro j todo res hj
      cases (h.calling_setStage hin hj).2
  | unlock hi => exact h.unlock hi

end Next

end Locked

end Critical
