import Mprtp.Client.Lines

/-! How the client ends: only through the handler of SIGINT, and exactly when the thread that it joins comes to
its end. -/
namespace Mprtp

namespace Client

variable {c c' : Client} {o : Options} {opened : ℕ → Bool} {w : World} {lines : List (List UInt8)} {es : List Event}
  {s₀ : Sender}

/-- The client can still come to the `exit` of the handler. -/
def Exits (c : Client) : Prop :=
  ∃ (es : List Event) (c' : Client), es.foldlM step c = some c' ∧ c'.handler = .exited

theorem Exits.step {e : Event} (hstep : c.step e = some c') (h : Exits c') : Exits c := by
  obtain ⟨es, c'', hrun, hexit⟩ := h
  refine ⟨e :: es, c'', ?_, hexit⟩
  rw [List.foldlM_cons, hstep]
  exact hrun

/-- While `main` waits, the polling thread does not end: `main` has the lock that it needs, or its call of `poll`
is stuck, or cannot but get stuck. -/
def Hangs (c : Client) : Prop :=
  c.poll = .polling ∧ (c.cli.owner = some .main ∨ match c.cli.stage .poll with
    | .calling _ res => res = none
    | .left => False
    | _ => ∀ fuel io, (call c.cli.obj (.poll fuel io)).res = none)

/-- The flag is set by the handler, and ends the polling thread; without it `main` does not return. -/
structure Flagged (c : Client) : Prop where
  stop : c.stopClient = true ↔ c.handler ≠ .idle
  finished : c.poll = .finished → c.stopClient = true
  returned : c.main ≠ .returned

theorem flagged_start {c₀ : Client} (hstart : start o opened w lines = some c₀) : Flagged c₀ := by
  obtain ⟨s₀, -, rfl⟩ := start_eq_some hstart
  refine ⟨iff_of_false ?_ fun hne => hne rfl, ?_, ?_⟩
  · exact Bool.false_ne_true
  · intro hfinished
    cases hfinished
  · exact nofun

theorem Flagged.moves (h : Flagged c) (hmoves : Moves c c') : Flagged c' := by
  cases hmoves with
  | main hhandler hmain =>
    cases hmain with
    | eof => exact ⟨h.stop, h.finished, nofun⟩
    | empty => exact ⟨h.stop, h.finished, nofun⟩
    | read => exact ⟨h.stop, h.finished, nofun⟩
    | send => exact ⟨h.stop, h.finished, h.returned⟩
    | sent => exact ⟨h.stop, h.finished, nofun⟩
    | joined _ hpoll =>
      have hjoin := h.stop.mp (h.finished hpoll)
      exact absurd hhandler hjoin
  | poll hhandler hpoll =>
    cases hpoll with
    | stop _ hstop => exact ⟨h.stop, fun _ => hstop, h.returned⟩
    | again => exact ⟨h.stop, nofun, h.returned⟩
    | call => exact ⟨h.stop, h.finished, h.returned⟩
    | called => exact ⟨h.stop, nofun, h.returned⟩
    | slept => exact ⟨h.stop, nofun, h.returned⟩
  | interrupt => exact ⟨iff_of_true rfl nofun, fun _ => rfl, h.returned⟩
  | joinTwice => exact ⟨iff_of_true rfl nofun, fun _ => rfl, h.returned⟩
  | exit hhandler =>
    have hstop : c.stopClient = true := h.stop.mpr (by rw [hhandler]; exact nofun)
    exact ⟨iff_of_true hstop nofun, fun _ => hstop, h.returned⟩

/-- While `main` waits, nothing ends what hangs. -/
theorem Hangs.moves (h : Hangs c) (hserial : c.cli.Serial call Threaded s₀) (hhandler : c.handler = .joining)
    (hmoves : Moves c c') : c'.handler = .joining ∧ Hangs c' := by
  obtain ⟨hpolling, hcause⟩ := h
  cases hmoves with
  | main hidle =>
    rw [hhandler] at hidle
    cases hidle
  | interrupt hidle =>
    rw [hhandler] at hidle
    cases hidle
  | joinTwice hidle =>
    rw [hhandler] at hidle
    cases hidle
  | exit _ hfinished =>
    rw [hpolling] at hfinished
    cases hfinished
  | poll _ hpoll =>
    have hnext : ∀ {fuel : ℕ} {io : PollInput} {cli : Locked ClientThread Entry Sender},
        c.cli.Next call .poll (.poll fuel io) cli → cli.stage .poll ≠ .outside ∧ Hangs { c with cli } := by
      intro fuel io cli hnext
      rcases hcause with howner | hcause
      · rcases hserial.owner_of_next hnext with hfree | hown
        · rw [howner] at hfree
          cases hfree
        · rw [howner] at hown
          cases hown
      · cases hnext with
        | lock hstage =>
          rw [hstage] at hcause
          refine ⟨by rw [Locked.setStage_self]; exact nofun, hpolling, Or.inr ?_⟩
          rw [Locked.setStage_self]
          exact hcause
        | call hstage =>
          rw [hstage] at hcause
          refine ⟨by rw [Locked.setStage_self]; exact nofun, hpolling, Or.inr ?_⟩
          rw [Locked.setStage_self]
          exact hcause fuel io
        | write hstage =>
          rw [hstage] at hcause
          refine ⟨by rw [Locked.setStage_self]; exact nofun, hpolling, Or.inr ?_⟩
          rw [Locked.setStage_self]
          exact hcause
        | finish hstage =>
          rw [hstage] at hcause
          cases hcause
        | unlock hstage =>
          rw [hstage] at hcause
          exact hcause.elim
    cases hpoll with
    | stop htesting =>
      rw [hpolling] at htesting
      cases htesting
    | again htesting =>
      rw [hpolling] at htesting
      cases htesting
    | slept hsleeping =>
      rw [hpolling] at hsleeping
      cases hsleeping
    | call _ hcall => exact ⟨hhandler, (hnext hcall).2⟩
    | called _ hcall hout => exact absurd hout (hnext hcall).1

/-- The handler runs, and has set the flag. -/
structure Waits (c : Client) : Prop where
  handler : c.handler = .joining
  stop : c.stopClient = true

theorem Waits.exits_finished (h : Waits c) (hpoll : c.poll = .finished) : Exits c := by
  refine ⟨[.main 0], { c with handler := .exited }, ?_, rfl⟩
  change (c.step (.main 0)).bind _ = _
  unfold Client.step
  rw [h.handler]
  dsimp only
  rw [if_pos hpoll]
  rfl

theorem Waits.step_poll (h : Waits c) (fuel : ℕ) (io : PollInput) : c.step (.poll fuel io) = c.stepPoll fuel io := by
  unfold Client.step
  rw [h.handler]

theorem Waits.exits_testing (h : Waits c) (hpoll : c.poll = .testing) : Exits c := by
  have hstep : c.step (.poll 0 fun _ _ => {}) = some { c with poll := .finished } := by
    rw [h.step_poll]
    unfold stepPoll
    rw [hpoll]
    dsimp only
    rw [if_pos h.stop]
  exact Exits.step hstep (Waits.exits_finished ⟨h.handler, h.stop⟩ rfl)

theorem Waits.exits_sleeping (h : Waits c) (hpoll : c.poll = .sleeping) : Exits c := by
  have hstep : c.step (.poll 0 fun _ _ => {}) = some { c with poll := .testing } := by
    rw [h.step_poll]
    unfold stepPoll
    rw [hpoll]
  exact Exits.step hstep (Waits.exits_testing ⟨h.handler, h.stop⟩ rfl)

theorem stepPoll_call (hpoll : c.poll = .polling) {fuel : ℕ} {io : PollInput}
    {cli : Locked ClientThread Entry Sender} (hnext : c.cli.Next call .poll (.poll fuel io) cli)
    (hstage : cli.stage .poll ≠ .outside) : c.stepPoll fuel io = some { c with cli } := by
  unfold stepPoll
  rw [hpoll]
  dsimp only
  rw [hnext.next_eq]
  dsimp only [Option.bind_eq_bind, Option.bind_some]
  cases hst : cli.stage .poll with
  | outside => exact absurd hst hstage
  | _ => rfl

theorem stepPoll_called (hpoll : c.poll = .polling) {fuel : ℕ} {io : PollInput}
    {cli : Locked ClientThread Entry Sender} (hnext : c.cli.Next call .poll (.poll fuel io) cli)
    (hstage : cli.stage .poll = .outside) : c.stepPoll fuel io = some { c with cli, poll := .sleeping } := by
  unfold stepPoll
  rw [hpoll]
  dsimp only
  rw [hnext.next_eq]
  dsimp only [Option.bind_eq_bind, Option.bind_some]
  rw [hstage]

/-- The polling thread makes a step around or in its call. -/
theorem Waits.exits_next (h : Waits c) (hpoll : c.poll = .polling) {fuel : ℕ} {io : PollInput}
    {cli : Locked ClientThread Entry Sender} (hnext : c.cli.Next call .poll (.poll fuel io) cli)
    (hrest : cli.stage .poll ≠ .outside → Exits { c with cli }) : Exits c := by
  by_cases hstage : cli.stage .poll = .outside
  · have hstep : c.step (.poll fuel io) = some { c with cli, poll := .sleeping } :=
      (h.step_poll fuel io).trans (stepPoll_called hpoll hnext hstage)
    exact Exits.step hstep (Waits.exits_sleeping ⟨h.handler, h.stop⟩ rfl)
  · have hstep : c.step (.poll fuel io) = some { c with cli } :=
      (h.step_poll fuel io).trans (stepPoll_call hpoll hnext hstage)
    exact Exits.step hstep (hrest hstage)

theorem Waits.exits_left (h : Waits c) (hpoll : c.poll = .polling) (hstage : c.cli.stage .poll = .left) :
    Exits c := by
  have hunlock : c.cli.Next call .poll (.poll 0 fun _ _ => {}) _ := .unlock hstage
  refine h.exits_next hpoll hunlock ?_
  intro hin
  exact absurd (Locked.setStage_self ..) hin

/-- A call of `poll` that does not get stuck comes to its end. -/
theorem Waits.exits_calling (h : Waits c) (hpoll : c.poll = .polling) {todo : List Entry} {s : Sender}
    (hstage : c.cli.stage .poll = .calling todo (some s)) : Exits c := by
  induction todo generalizing c with
  | nil =>
    have hfinish : c.cli.Next call .poll (.poll 0 fun _ _ => {}) _ := .finish hstage
    refine h.exits_next hpoll hfinish ?_
    intro _
    exact Waits.exits_left ⟨h.handler, h.stop⟩ hpoll (Locked.setStage_self ..)
  | cons a todo ih =>
    have hwrite : c.cli.Next call .poll (.poll 0 fun _ _ => {}) _ := .write hstage
    refine h.exits_next hpoll hwrite ?_
    intro _
    exact ih ⟨h.handler, h.stop⟩ hpoll (Locked.setStage_self ..)

theorem Waits.exits_entered (h : Waits c) (hpoll : c.poll = .polling) (hstage : c.cli.stage .poll = .entered)
    {fuel : ℕ} {io : PollInput} {s : Sender} (hs : (call c.cli.obj (.poll fuel io)).res = some s) : Exits c := by
  have hcall : c.cli.Next call .poll (.poll fuel io) _ := .call hstage
  refine h.exits_next hpoll hcall ?_
  intro _
  rw [hs]
  exact Waits.exits_calling ⟨h.handler, h.stop⟩ hpoll (Locked.setStage_self ..)

/-- What does not hang comes to the end. -/
theorem Waits.exits (h : Waits c) (hserial : c.cli.Serial call Threaded s₀) (hgoes : ¬ Hangs c) : Exits c := by
  cases hpoll : c.poll with
  | testing => exact h.exits_testing hpoll
  | sleeping => exact h.exits_sleeping hpoll
  | finished => exact h.exits_finished hpoll
  | polling =>
    obtain ⟨hmain, hcause⟩ := not_or.mp fun hcause => hgoes ⟨hpoll, hcause⟩
    cases hstage : c.cli.stage .poll with
    | left => exact h.exits_left hpoll hstage
    | calling todo res =>
      rw [hstage] at hcause
      obtain ⟨s, rfl⟩ := Option.ne_none_iff_exists'.mp hcause
      exact h.exits_calling hpoll hstage
    | entered =>
      rw [hstage] at hcause
      obtain ⟨fuel, hcause⟩ := not_forall.mp hcause
      obtain ⟨io, hcause⟩ := not_forall.mp hcause
      obtain ⟨s, hs⟩ := Option.ne_none_iff_exists'.mp hcause
      exact h.exits_entered hpoll hstage hs
    | outside =>
      rw [hstage] at hcause
      obtain ⟨fuel, hcause⟩ := not_forall.mp hcause
      obtain ⟨io, hcause⟩ := not_forall.mp hcause
      obtain ⟨s, hs⟩ := Option.ne_none_iff_exists'.mp hcause
      have hfree : c.cli.owner = none := by
        have hother := (hserial.alone .poll).mp hstage
        cases howner : c.cli.owner with
        | none => rfl
        | some i =>
          cases i with
          | main => exact absurd howner hmain
          | poll => exact absurd howner hother
      have hlock : c.cli.Next call .poll (.poll fuel io) _ := .lock hstage hfree
      refine h.exits_next hpoll hlock ?_
      intro _
      exact Waits.exits_entered ⟨h.handler, h.stop⟩ hpoll (Locked.setStage_self ..) hs

/-- While the handler waits and the polling thread hangs, there is no way out. -/
theorem Hangs.not_exits (h : Hangs c) (hturn : InTurn s₀ lines c) (hhandler : c.handler = .joining) : ¬ Exits c := by
  intro hexits
  obtain ⟨es, c', hrun, hexit⟩ := hexits
  have hkept : ∀ c c' : Client, InTurn s₀ lines c ∧ c.handler = .joining ∧ Hangs c → Moves c c' →
      InTurn s₀ lines c' ∧ c'.handler = .joining ∧ Hangs c' :=
    fun c c' hc hmoves => ⟨hc.1.moves hmoves, hc.2.2.moves hc.1.serial hc.2.1 hmoves⟩
  obtain ⟨-, hjoining, -⟩ := run_keeps hkept ⟨hturn, hhandler, h⟩ hrun
  rw [hexit] at hjoining
  cases hjoining

theorem interrupt_eq_some {c₁ : Client} (h : c.step .interrupt = some c₁) (hmain : c.main ≠ .joining) :
    c₁ = { c with stopClient := true, handler := .joining } := by
  unfold Client.step at h
  split at h
  · rename_i heq
    cases heq
  · unfold interrupt at h
    split at h
    · cases h
    · rename_i hjoining
      exact absurd hjoining hmain
    · cases h
      rfl
  · rename_i heq
    cases heq
  · cases h
  · cases h
  · cases h
  · rename_i heq _ _
    cases heq

/-- Whatever the order in which the threads of the client have stepped: `main` never comes to its `return`, and
when a signal interrupts its loop, the program can still exit exactly when the polling thread does not hang. It
hangs when it waits for the lock, or is about to, and the handler has been called while `main` has the lock. -/
theorem interrupt_exits_iff {c₀ : Client} (hstart : start o opened w lines = some c₀)
    (hrun : es.foldlM step c₀ = some c) : c.main ≠ .returned ∧
      ∀ c₁, c.step .interrupt = some c₁ → c.main ≠ .joining → (Exits c₁ ↔ ¬ Hangs c) := by
  obtain ⟨s₀, -, hturn⟩ := inTurn_run hstart hrun
  have hflagged : Flagged c := run_keeps (fun _ _ h hmoves => h.moves hmoves) (flagged_start hstart) hrun
  refine ⟨hflagged.returned, ?_⟩
  intro c₁ hinterrupt hmain
  have hturn₁ := hturn.moves (step_moves hinterrupt)
  obtain rfl := interrupt_eq_some hinterrupt hmain
  have hhangs : Hangs { c with stopClient := true, handler := .joining } ↔ Hangs c := Iff.rfl
  rw [← hhangs]
  constructor
  · intro hexits h
    exact h.not_exits hturn₁ rfl hexits
  · intro hgoes
    exact Waits.exits ⟨rfl, rfl⟩ hturn₁.serial hgoes

/-- `main` takes the lock for a line, and the polling thread comes to wait for it. -/
def lockedOut : List Event := [.main 0, .main 0, .poll 0 fun _ _ => {}]

/-- A signal that comes now ends nothing. -/
theorem lockedOut_hangs : ∃ c₀ c c₁, start oneNet (fun _ => true) (.ticking 1000) [[104, 105]] = some c₀ ∧
    lockedOut.foldlM step c₀ = some c ∧ c.step .interrupt = some c₁ ∧ ¬ Exits c₁ := by
  have hwaits : ((start oneNet (fun _ => true) (.ticking 1000) [[104, 105]]).bind fun c₀ =>
      (lockedOut.foldlM step c₀).map fun c => (c.poll, c.cli.owner, c.main, (c.step .interrupt).isSome)) =
        some (.polling, some .main, .sending [104, 105], true) := by decide +kernel
  obtain ⟨c₀, hstart, hwaits⟩ := Option.bind_eq_some_iff.mp hwaits
  obtain ⟨c, hrun, hwaits⟩ := Option.map_eq_some_iff.mp hwaits
  obtain ⟨hpoll, howner, hmain, hinterrupt⟩ : c.poll = .polling ∧ c.cli.owner = some .main ∧
      c.main = .sending [104, 105] ∧ (c.step .interrupt).isSome = true := by
    simpa only [Prod.mk.injEq] using hwaits
  obtain ⟨c₁, hinterrupt⟩ := Option.isSome_iff_exists.mp hinterrupt
  have hreading : c.main ≠ .joining := by
    rw [hmain]
    exact nofun
  have hiff := (interrupt_exits_iff hstart hrun).2 c₁ hinterrupt hreading
  exact ⟨c₀, c, c₁, hstart, hrun, hinterrupt, fun hexits => hiff.mp hexits ⟨hpoll, Or.inl howner⟩⟩

end Client

end Mprtp
