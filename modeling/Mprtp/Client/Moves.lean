import Mprtp.Client

/-! What a step of the client can do. -/
namespace Mprtp

namespace Client

/-- The moves of `main`, while its handler does not run. -/
inductive MainMoves (c : Client) : Client → Prop
  | eof : c.main = .reading → c.input = [] → MainMoves c { c with main := .joining }
  | empty {input : List (List UInt8)} : c.main = .reading → c.input = [] :: input →
      MainMoves c { c with main := .joining, input }
  | read {buff : List UInt8} {input : List (List UInt8)} : c.main = .reading → c.input = buff :: input →
      buff ≠ [] → MainMoves c { c with main := .sending buff, input }
  | send {buff : List UInt8} {ret : ℤ} {cli : Locked ClientThread Entry Sender} : c.main = .sending buff →
      c.cli.Next call .main (.sendData buff ret) cli → cli.stage .main ≠ .outside → MainMoves c { c with cli }
  | sent {buff : List UInt8} {ret : ℤ} {cli : Locked ClientThread Entry Sender} : c.main = .sending buff →
      c.cli.Next call .main (.sendData buff ret) cli → cli.stage .main = .outside →
      MainMoves c { c with cli, main := .reading }
  | joined : c.main = .joining → c.poll = .finished → MainMoves c { c with main := .returned }

/-- The moves of the polling thread. -/
inductive PollMoves (c : Client) : Client → Prop
  | stop : c.poll = .testing → c.stopClient = true → PollMoves c { c with poll := .finished }
  | again : c.poll = .testing → c.stopClient = false → PollMoves c { c with poll := .polling }
  | call {fuel : ℕ} {io : PollInput} {cli : Locked ClientThread Entry Sender} : c.poll = .polling →
      c.cli.Next call .poll (.poll fuel io) cli → cli.stage .poll ≠ .outside → PollMoves c { c with cli }
  | called {fuel : ℕ} {io : PollInput} {cli : Locked ClientThread Entry Sender} : c.poll = .polling →
      c.cli.Next call .poll (.poll fuel io) cli → cli.stage .poll = .outside →
      PollMoves c { c with cli, poll := .sleeping }
  | slept : c.poll = .sleeping → PollMoves c { c with poll := .testing }

/-- The moves of a client. -/
inductive Moves (c : Client) : Client → Prop
  | main {c' : Client} : c.handler = .idle → MainMoves c c' → Moves c c'
  | poll {c' : Client} : c.handler = .idle ∨ c.handler = .joining → PollMoves c c' → Moves c c'
  | interrupt : c.handler = .idle → c.main ≠ .joining → c.main ≠ .returned →
      Moves c { c with stopClient := true, handler := .joining }
  | joinTwice : c.handler = .idle → c.main = .joining → Moves c { c with stopClient := true, handler := .undefined }
  | exit : c.handler = .joining → c.poll = .finished → Moves c { c with handler := .exited }

variable {c c' : Client}

theorem stepMain_moves {ret : ℤ} (h : c.stepMain ret = some c') : MainMoves c c' := by
  unfold stepMain at h
  split at h
  · rename_i hmain
    split at h
    · rename_i hinput
      cases h
      exact .eof hmain hinput
    · rename_i buff input hinput
      cases h
      split
      · rename_i hbuff
        rw [hbuff] at hinput
        exact .empty hmain hinput
      · rename_i hbuff
        exact .read hmain hinput hbuff
  · rename_i buff hmain
    obtain ⟨cli, hcli, h⟩ := Option.bind_eq_some_iff.mp h
    have hnext := Locked.next_cases hcli
    split at h
    · rename_i hstage
      cases h
      exact .sent hmain hnext hstage
    · rename_i hstage
      cases h
      exact .send hmain hnext hstage
  · rename_i hmain
    split at h
    · rename_i hpoll
      cases h
      exact .joined hmain hpoll
    · cases h
  · cases h

theorem stepPoll_moves {fuel : ℕ} {io : PollInput} (h : c.stepPoll fuel io = some c') : PollMoves c c' := by
  unfold stepPoll at h
  split at h
  · rename_i hpoll
    cases h
    split
    · rename_i hstop
      exact .stop hpoll hstop
    · rename_i hgo
      exact .again hpoll (Bool.eq_false_iff.mpr hgo)
  · rename_i hpoll
    obtain ⟨cli, hcli, h⟩ := Option.bind_eq_some_iff.mp h
    have hnext := Locked.next_cases hcli
    split at h
    · rename_i hstage
      cases h
      exact .called hpoll hnext hstage
    · rename_i hstage
      cases h
      exact .call hpoll hnext hstage
  · rename_i hpoll
    cases h
    exact .slept hpoll
  · cases h

theorem step_moves {e : Event} (h : c.step e = some c') : Moves c c' := by
  unfold step at h
  split at h
  · rename_i hhandler
    exact .main hhandler (stepMain_moves h)
  · rename_i hhandler
    unfold interrupt at h
    split at h
    · cases h
    · rename_i hmain
      cases h
      exact .joinTwice hhandler hmain
    · rename_i hreturned hjoining
      cases h
      exact .interrupt hhandler hjoining hreturned
  · rename_i hhandler
    split at h
    · rename_i hpoll
      cases h
      exact .exit hhandler hpoll
    · cases h
  · cases h
  · cases h
  · cases h
  · rename_i hexited hundefined
    refine .poll ?_ (stepPoll_moves h)
    cases hhandler : c.handler with
    | idle => exact Or.inl rfl
    | joining => exact Or.inr rfl
    | exited => exact absurd hhandler hexited
    | undefined => exact absurd hhandler hundefined

/-- What every move keeps holds after any events. -/
theorem run_keeps {I : Client → Prop} (hmoves : ∀ c c', I c → Moves c c' → I c') {es : List Event} (h : I c)
    (hrun : es.foldlM step c = some c') : I c' := by
  induction es generalizing c with
  | nil =>
    cases hrun
    exact h
  | cons e es ih =>
    obtain ⟨c₁, hstep, hrest⟩ := Option.bind_eq_some_iff.mp hrun
    exact ih (hmoves _ _ h (step_moves hstep)) hrest

end Client

end Mprtp
