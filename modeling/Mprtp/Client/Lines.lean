import Mprtp.Client.Moves
import Mprtp.Sender.Payloads

/-! The two threads of the client use its sender one after the other, and send the lines of the input. -/
namespace Mprtp

namespace Client

open Sender

/-- The calls that each thread makes. -/
def Threaded : ClientThread → Sender.Step → Prop
  | .main, .sendData _ _ => True
  | .poll, .poll _ _ => True
  | _, _ => False

/-- The lines that are handed to `send_data`. -/
def handed (L : List Entry) : List (List UInt8) := (dataCalls L).map DataCall.payload

theorem handed_append (L L' : List Entry) : handed (L ++ L') = handed L ++ handed L' := by
  unfold handed
  rw [dataCalls_append, List.map_append]

theorem handed_call (s : Sender) (e : Sender.Step) : handed (call s e).log =
    match e with
    | .sendData data _ => [data]
    | _ => [] := by
  have hcalls := dataCalls_noted (H := []) s e (Sender.step isPathValid s e).log
  unfold handed
  change (dataCalls ([] ++ [.inl (s, e)] ++ (Sender.step isPathValid s e).log.map .inr)).map _ = _
  rw [hcalls]
  cases e <;> rfl

/-- The lines in front of the first that is empty. -/
def typed (lines : List (List UInt8)) : List (List UInt8) := lines.takeWhile (· ≠ [])

/-- The lines that `main` has still to hand to `send_data`. -/
def unsent (c : Client) : List (List UInt8) :=
  match c.main with
  | .reading => typed c.input
  | .sending buff =>
    match c.cli.stage .main with
    | .outside | .entered => buff :: typed c.input
    | _ => typed c.input
  | _ => []

/-- The calls have come one after the other, and every line has been handed over or is still to come. -/
structure InTurn (s₀ : Sender) (lines : List (List UInt8)) (c : Client) : Prop where
  serial : c.cli.Serial call Threaded s₀
  outside : (∀ buff, c.main ≠ .sending buff) → c.cli.stage .main = .outside
  lines : typed lines = handed c.cli.log ++ handed (c.cli.stage .main).todo ++ c.unsent
  polls : handed (c.cli.stage .poll).todo = []

variable {s₀ : Sender} {lines : List (List UInt8)} {c c' : Client} {cli : Locked ClientThread Entry Sender}

theorem inTurn_start (s₀ : Sender) (lines : List (List UInt8)) :
    InTurn s₀ lines { cli := { obj := s₀ }, input := lines } where
  serial := Locked.serial_new ..
  outside := fun _ => rfl
  lines := rfl
  polls := rfl

/-- The thread of `main` makes a step with the lock, in the call for a line or around it. -/
theorem InTurn.next_main (h : InTurn s₀ lines c) {buff : List UInt8} {ret : ℤ} (hmain : c.main = .sending buff)
    (hnext : c.cli.Next call .main (.sendData buff ret) cli) :
    typed lines = handed cli.log ++ handed (cli.stage .main).todo ++ (match cli.stage .main with
      | .entered => buff :: typed c.input
      | _ => typed c.input) := by
  have hlines := h.lines
  unfold unsent at hlines
  rw [hmain] at hlines
  cases hnext with
  | lock hstage =>
    rw [hstage] at hlines
    rw [Locked.setStage_self]
    exact hlines
  | call hstage =>
    rw [hstage] at hlines
    rw [Locked.setStage_self]
    dsimp only [Stage.todo, Locked.setStage] at hlines ⊢
    rw [handed_call, hlines, List.append_assoc, List.append_assoc]
    rfl
  | @write a todo res hstage =>
    rw [hstage] at hlines
    rw [Locked.setStage_self]
    dsimp only [Stage.todo, Locked.setStage] at hlines ⊢
    rw [handed_append, List.append_assoc (handed c.cli.log), ← handed_append]
    exact hlines
  | finish hstage =>
    rw [hstage] at hlines
    rw [Locked.setStage_self]
    exact hlines
  | unlock hstage =>
    rw [hstage] at hlines
    rw [Locked.setStage_self]
    exact hlines

/-- The polling thread hands no line over. -/
theorem InTurn.next_poll (h : InTurn s₀ lines c) {fuel : ℕ} {io : PollInput}
    (hnext : c.cli.Next call .poll (.poll fuel io) cli) :
    handed cli.log = handed c.cli.log ∧ handed (cli.stage .poll).todo = [] := by
  have hpolls := h.polls
  cases hnext with
  | lock =>
    rw [Locked.setStage_self]
    exact ⟨rfl, rfl⟩
  | call =>
    rw [Locked.setStage_self]
    exact ⟨rfl, handed_call ..⟩
  | @write a todo res hstage =>
    rw [hstage] at hpolls
    have hboth : handed [a] ++ handed todo = [] := (handed_append [a] todo).symm.trans hpolls
    obtain ⟨ha, htodo⟩ := List.append_eq_nil_iff.mp hboth
    rw [Locked.setStage_self]
    refine ⟨?_, htodo⟩
    change handed (c.cli.log ++ [a]) = _
    rw [handed_append, ha, List.append_nil]
  | finish =>
    rw [Locked.setStage_self]
    exact ⟨rfl, rfl⟩
  | unlock =>
    rw [Locked.setStage_self]
    exact ⟨rfl, rfl⟩

/-- A step of the polling thread with the lock, wherever it comes to. -/
theorem InTurn.polled (h : InTurn s₀ lines c) {fuel : ℕ} {io : PollInput}
    (hnext : c.cli.Next call .poll (.poll fuel io) cli) (p : PollAt) :
    InTurn s₀ lines { c with cli, poll := p } := by
  have hlines := h.lines
  obtain ⟨hlog, hpolls⟩ := h.next_poll hnext
  have hmain := hnext.stage_of_ne (j := .main) nofun
  refine ⟨h.serial.next hnext trivial, ?_, ?_, hpolls⟩
  · rw [hmain]
    exact h.outside
  · unfold unsent at hlines ⊢
    dsimp only
    rw [hlog, hmain]
    exact hlines

theorem typed_cons {buff : List UInt8} (input : List (List UInt8)) (hbuff : buff ≠ []) :
    typed (buff :: input) = buff :: typed input :=
  List.takeWhile_cons_of_pos (decide_eq_true hbuff)

theorem InTurn.moves (h : InTurn s₀ lines c) (hmoves : Moves c c') : InTurn s₀ lines c' := by
  have hlines := h.lines
  cases hmoves with
  | main hhandler hmain =>
    cases hmain with
    | eof hmain hinput =>
      refine ⟨h.serial, fun _ => h.outside (by rw [hmain]; exact nofun), ?_, h.polls⟩
      unfold unsent at hlines
      rw [hmain, hinput] at hlines
      exact hlines
    | empty hmain hinput =>
      refine ⟨h.serial, fun _ => h.outside (by rw [hmain]; exact nofun), ?_, h.polls⟩
      unfold unsent at hlines
      rw [hmain, hinput] at hlines
      exact hlines
    | @read buff input hmain hinput hbuff =>
      have hout : c.cli.stage .main = .outside := h.outside (by rw [hmain]; exact nofun)
      refine ⟨h.serial, fun hne => absurd rfl (hne buff), ?_, h.polls⟩
      unfold unsent at hlines ⊢
      rw [hmain, hinput, typed_cons _ hbuff] at hlines
      dsimp only
      rw [hout] at hlines ⊢
      exact hlines
    | @send buff ret cli hmain hnext hstage =>
      have hnew := h.next_main hmain hnext
      have hpolls : cli.stage .poll = c.cli.stage .poll := hnext.stage_of_ne nofun
      refine ⟨h.serial.next hnext trivial, fun hne => absurd hmain (hne buff), ?_, ?_⟩
      · unfold unsent
        rw [hmain]
        dsimp only
        rw [hnew]
        cases hst : cli.stage .main with
        | outside => exact absurd hst hstage
        | _ => rfl
      · rw [hpolls]
        exact h.polls
    | @sent buff ret cli hmain hnext hstage =>
      have hnew := h.next_main hmain hnext
      have hpolls : cli.stage .poll = c.cli.stage .poll := hnext.stage_of_ne nofun
      refine ⟨h.serial.next hnext trivial, fun _ => hstage, ?_, ?_⟩
      · rw [hstage] at hnew
        dsimp only
        rw [hstage]
        exact hnew
      · rw [hpolls]
        exact h.polls
    | joined hmain =>
      refine ⟨h.serial, fun _ => h.outside (by rw [hmain]; exact nofun), ?_, h.polls⟩
      unfold unsent at hlines
      rw [hmain] at hlines
      exact hlines
  | poll hhandler hpoll =>
    cases hpoll with
    | stop => exact ⟨h.serial, h.outside, h.lines, h.polls⟩
    | again => exact ⟨h.serial, h.outside, h.lines, h.polls⟩
    | slept => exact ⟨h.serial, h.outside, h.lines, h.polls⟩
    | call hpoll hnext => exact h.polled hnext c.poll
    | called hpoll hnext => exact h.polled hnext .sleeping
  | interrupt => exact ⟨h.serial, h.outside, h.lines, h.polls⟩
  | joinTwice => exact ⟨h.serial, h.outside, h.lines, h.polls⟩
  | exit => exact ⟨h.serial, h.outside, h.lines, h.polls⟩

/-- A call that sends no data. -/
def Silent (e : Sender.Step) : Prop := ∀ data ret, e ≠ .sendData data ret

theorem dataCalls_silent {s : Sender} {e : Sender.Step} (he : Silent e) : dataCalls (call s e).log = [] := by
  have hpayloads := handed_call s e
  cases e with
  | sendData data ret => exact absurd rfl (he data ret)
  | _ => exact List.map_eq_nil_iff.mp hpayloads

variable {o : Options} {opened : ℕ → Bool} {w : World} {b : Bool} {es : List Event}

/-- Up to `connect`, the client makes calls of its sender that send no data. -/
theorem setUp_run (h : (setUp o opened w).res = some (b, s₀)) :
    Run call (fun _ _ e => Silent e) (Sender.new (1 / 1000) w) (setUp o opened w).log (some s₀) := by
  have hadded : Run call (fun _ _ e => Silent e) (Sender.new (1 / 1000) w) _ _ :=
    Run.foldlM_of _ ((endpoints o.localIfaces o.localPort).zipIdx.map fun p => .addInterface p.1 (opened p.2)) (by
      intro n e s he _
      obtain ⟨p, -, rfl⟩ := List.mem_map.mp (List.mem_of_getElem? he)
      exact nofun)
  unfold setUp at h ⊢
  dsimp only at h ⊢
  generalize ((endpoints o.localIfaces o.localPort).zipIdx.map fun p =>
    Sender.Step.addInterface p.1 (opened p.2)).foldlM call (Sender.new (1 / 1000) w) = x at hadded h ⊢
  obtain ⟨log, res⟩ := x
  cases res with
  | none => cases h
  | some s =>
    have hconnect := hadded.snoc (.connect 0xDEAD (endpoints o.remoteIfaces o.remotePort)) nofun
    have hs : (s.connect isPathValid 0xDEAD (endpoints o.remoteIfaces o.remotePort)).2 = s₀ :=
      congrArg Prod.snd (Option.some.inj h)
    rw [← hs]
    exact hconnect

theorem setUp_silent (h : (setUp o opened w).res = some (b, s₀)) :
    dataCalls (setUp o opened w).log = [] ∧ rtpSent (told (setUp o opened w).log) = [] := by
  have hrun := setUp_run h
  have hstep : ∀ (H : List Entry) s e, dataCalls H = [] → Silent e →
      (call s e).Sat (fun _ _ => True) H fun H _ => dataCalls H = [] := by
    intro H s e hH he
    refine ⟨fun _ _ _ _ => trivial, fun s' _ => ?_⟩
    dsimp only
    rw [dataCalls_append, hH, dataCalls_silent he]
    rfl
  have hnone : dataCalls (setUp o opened w).log = [] :=
    (Run.sat (I := fun H _ => dataCalls H = []) rfl hstep hrun).2 s₀ rfl
  have hbuilds := (run_builds (hrun.mono fun _ _ _ _ => trivial)).2 s₀ rfl
  rw [hnone] at hbuilds
  exact ⟨hnone, List.forall₂_nil_left_iff.mp hbuilds⟩

theorem start_eq_some {c₀ : Client} (h : start o opened w lines = some c₀) :
    ∃ s₀, (setUp o opened w).res = some (true, s₀) ∧ c₀ = { cli := { obj := s₀ }, input := lines } := by
  unfold start at h
  split at h
  · rename_i s₀ hres
    cases h
    exact ⟨s₀, hres, rfl⟩
  · cases h

/-- After any events the client has reached a state that is in turn. -/
theorem inTurn_run {c₀ : Client} (hstart : start o opened w lines = some c₀) (hrun : es.foldlM step c₀ = some c) :
    ∃ s₀, (setUp o opened w).res = some (true, s₀) ∧ InTurn s₀ lines c := by
  obtain ⟨s₀, hres, rfl⟩ := start_eq_some hstart
  exact ⟨s₀, hres, run_keeps (fun _ _ h hm => h.moves hm) (inTurn_start s₀ lines) hrun⟩

/-- A run of the sender that has been set up is a run of a sender. -/
theorem setUp_append {H : List Entry} {r : Option Sender} (hres : (setUp o opened w).res = some (b, s₀))
    (hrun : Run call (fun _ _ e => ∃ i, Threaded i e) s₀ H r) :
    Run call (fun _ _ _ => True) (Sender.new (1 / 1000) w) ((setUp o opened w).log ++ H) r :=
  Run.append ((setUp_run hres).mono fun _ _ _ _ => trivial) (hrun.mono fun _ _ _ _ => trivial)

theorem rtpSent_told_append (L L' : List Entry) : rtpSent (told (L ++ L')) = rtpSent (told L) ++ rtpSent (told L') := by
  rw [told_append]
  exact List.filterMap_append

/-- The RTP datagrams that have been sent are those of the first calls. -/
theorem InTurn.sent_calls (h : InTurn s₀ lines c) (hres : (setUp o opened w).res = some (b, s₀)) :
    ∃ calls, calls <+: dataCalls c.cli.log ∧ calls.Forall₂ DataCall.Builds (rtpSent (told c.cli.log)) := by
  obtain ⟨hcalls, hsent⟩ := setUp_silent hres
  obtain ⟨_, r, hrun, rest, rfl⟩ := h.serial.log_prefix
  have hbuilds := (run_builds (setUp_append hres hrun)).1
  have hlog : ∀ pre e post, (setUp o opened w).log ++ c.cli.log = pre ++ e :: post → SentByCall pre e := by
    intro pre e post hsplit
    apply hbuilds pre e (post ++ rest)
    rw [← List.append_assoc, hsplit, List.append_assoc, List.cons_append]
  have hfirst := sent_of_calls hlog
  rw [dataCalls_append, rtpSent_told_append, hcalls, hsent] at hfirst
  exact hfirst

/-- While `main` is not sending, every call has sent its datagram. -/
theorem InTurn.all_sent (h : InTurn s₀ lines c) (hres : (setUp o opened w).res = some (b, s₀))
    (hmain : ∀ buff, c.main ≠ .sending buff) :
    (dataCalls c.cli.log).length ≤ (rtpSent (told c.cli.log)).length := by
  obtain ⟨hcalls, hsent⟩ := setUp_silent hres
  have hall : ∀ {H : List Entry} {s : Sender}, Run call (fun _ _ e => ∃ i, Threaded i e) s₀ H (some s) →
      (dataCalls H).length = (rtpSent (told H)).length := by
    intro H s hrun
    have hbuilds := (run_builds (setUp_append hres hrun)).2 s rfl
    rw [dataCalls_append, rtpSent_told_append, hcalls, hsent] at hbuilds
    exact hbuilds.length_eq
  cases hstage : c.cli.stage .poll with
  | calling todo res =>
    obtain ⟨H, e, done, he, hrun, hlog, hstep⟩ := h.serial.busy _ _ _ hstage
    have hsilent : Silent e := by
      intro data ret heq
      rw [heq] at he
      exact he
    have hdone : dataCalls done ++ dataCalls todo = [] := by
      rw [← dataCalls_append]
      have hnone := dataCalls_silent (s := c.cli.obj) hsilent
      rw [hstep] at hnone
      exact hnone
    rw [hlog, dataCalls_append, rtpSent_told_append, (List.append_eq_nil_iff.mp hdone).1, List.append_nil,
      hall hrun, List.length_append]
    exact Nat.le_add_right _ _
  | _ =>
    refine (hall (h.serial.quiet ?_)).le
    intro i
    cases i with
    | main =>
      rw [h.outside hmain]
      trivial
    | poll =>
      rw [hstage]
      trivial

/-- Whatever the order in which the threads of the client step, only the one with the lock is in the sender, and
what they make it do is what one run of it does; the RTP datagrams sent so far carry the first lines of the
input, one each and in their order, and all lines in front of the first that is empty once `main` is behind its
loop. -/
theorem lines_sent {c₀ : Client} (hstart : start o opened w lines = some c₀) (hrun : es.foldlM step c₀ = some c) :
    (∀ i, c.cli.stage i ≠ .outside → c.cli.owner = some i) ∧
    (∃ H r, Run (noting (Sender.step isPathValid)) (fun _ _ _ => True) (Sender.new (1 / 1000) w)
      ((setUp o opened w).log ++ H) r ∧ c.cli.log <+: H) ∧
    ∃ calls : List DataCall, calls.Forall₂ DataCall.Builds (rtpSent (told c.cli.log)) ∧
      calls.map DataCall.payload <+: lines.takeWhile (· ≠ []) ∧
      (c.main = .joining → calls.map DataCall.payload = lines.takeWhile (· ≠ [])) := by
  obtain ⟨s₀, hres, hturn⟩ := inTurn_run hstart hrun
  obtain ⟨calls, hcalls, hbuilds⟩ := hturn.sent_calls hres
  have hlines := hturn.lines
  refine ⟨?_, ?_, calls, hbuilds, ?_, ?_⟩
  · exact fun i hi => hturn.serial.owner_eq hi
  · obtain ⟨H, r, hrun, hprefix⟩ := hturn.serial.log_prefix
    exact ⟨H, r, setUp_append hres hrun, hprefix⟩
  · have hprefix : handed c.cli.log <+: typed lines := by
      rw [hlines, List.append_assoc]
      exact List.prefix_append _ _
    exact (hcalls.map _).trans hprefix
  · intro hjoining
    have hmain : ∀ buff, c.main ≠ .sending buff := by
      rw [hjoining]
      exact nofun
    have hlength := hturn.all_sent hres hmain
    rw [← hbuilds.length_eq] at hlength
    rw [hcalls.eq_of_length_le hlength]
    unfold unsent at hlines
    rw [hjoining, hturn.outside hmain] at hlines
    exact (hlines.trans ((List.append_nil _).trans (List.append_nil _))).symm

/-- An interface in one of the two networks of the server. -/
def oneNet : Options := { localIfaces := [0xC0A80105], remoteIfaces := [0x0A000001, 0xC0A80101] }

/-- A line is sent while the other thread waits for the lock; then the empty line is read. -/
def bothThreads : List Event :=
  [.main 0, .poll 0 fun _ _ => {}, .main 0, .main 26, .main 0, .main 0, .main 0, .main 0, .poll 0 fun _ _ => {},
    .main 0, .poll 0 fun _ _ => {}]

theorem bothThreads_sent : ∃ c₀ c, start oneNet (fun _ => true) (.ticking 1000) [[104, 105], [], [106]] = some c₀ ∧
    bothThreads.foldlM step c₀ = some c ∧ c.main = .joining ∧ ∃ calls : List DataCall,
      calls.Forall₂ DataCall.Builds (rtpSent (told c.cli.log)) ∧ calls.map DataCall.payload = [[104, 105]] := by
  have hreads : ((start oneNet (fun _ => true) (.ticking 1000) [[104, 105], [], [106]]).bind fun c₀ =>
      (bothThreads.foldlM step c₀).map Client.main) = some .joining := by decide +kernel
  obtain ⟨c₀, hstart, hreads⟩ := Option.bind_eq_some_iff.mp hreads
  obtain ⟨c, hrun, hmain⟩ := Option.map_eq_some_iff.mp hreads
  obtain ⟨-, -, calls, hbuilds, -, hall⟩ := lines_sent hstart hrun
  exact ⟨c₀, c, hstart, hrun, hmain, calls, hbuilds, hall hmain⟩

end Client

end Mprtp
