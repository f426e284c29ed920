import Mprtp.Interface

/-! The loop of `interface::poll` on the socket that it empties, while datagrams go on coming in. -/
namespace Mprtp

/-- What a system call on a socket meets: the datagrams that have come in since the call before it, and the
error number if it fails. -/
structure Moment where
  coming : List Arrival := []
  errno : Option ℕ := none

/-- A bound UDP socket: the datagrams that wait on it, and what the calls still to come will meet. -/
structure Socket where
  queue : List Arrival := []
  moments : ℕ → Moment := fun _ => {}

def eintr : ℕ := 4

/-- `rtp_select`: the status and the flags, from what `poll` finds of each socket or its error number. -/
def rtpSelect (numsocks : ℕ) : Except ℕ (List Bool) → ℤ × List Bool
  | .error errno => (if errno = eintr then 0 else -1, List.replicate numsocks false)
  | .ok revents => (revents.count true, revents)

/-- Why a loop goes on for ever: it takes more turns than it may, or a call blocks. -/
inductive Stuck where
  | turns
  | blocked

namespace Socket

/-- The socket as the next call finds it. -/
def meet (k : Socket) : Socket where
  queue := k.queue ++ (k.moments 0).coming
  moments := fun n => k.moments (n + 1)

/-- `ioctl(FIONREAD)`: the length of the datagram in front, 0 if there is none or the call fails. -/
def fionread (k : Socket) : ℕ × Socket :=
  let len := match (k.moments 0).errno, k.meet.queue with
    | none, a :: _ => a.data.length
    | _, _ => 0
  (len, k.meet)

/-- `rtp_select` on this socket. -/
def select (k : Socket) : ℤ × Bool × Socket :=
  let (status, flags) := rtpSelect 1 <| match (k.moments 0).errno with
    | some errno => .error errno
    | none => .ok [!k.meet.queue.isEmpty]
  (status, flags.headD false, k.meet)

/-- `recvfrom`, which blocks when nothing waits: the datagram in front unless it fails. -/
def recvfrom (k : Socket) : Option (Option Arrival × Socket) :=
  match (k.moments 0).errno, k.meet.queue with
  | some _, _ => some (none, k.meet)
  | none, [] => none
  | none, a :: queue => some (some a, { k.meet with queue })

end Socket

namespace Interface

/-- The loop of `interface::poll`, for at most `fuel` turns: the status, the socket and the interface. -/
def pollLoop (rtcp : Bool) : ℕ → Socket → Interface → World → Except Stuck (ℤ × Socket × Interface × World)
  | 0, _, _, _ => .error .turns
  | fuel + 1, k, f, w =>
    let (len, k) := k.fionread
    let (status, dataavailable, k) := if len = 0 then k.select else (0, true, k)
    if status < 0 then .ok (status, k, f, w)
    else if dataavailable then
      match k.recvfrom with
      | none => .error .blocked
      | some (a, k) =>
        let (f, w) := f.receive rtcp w a
        pollLoop rtcp fuel k f w
    else .ok (0, k, f, w)

end Interface

namespace Socket

variable {k k' k'' : Socket} {n m : ℕ} {got got' : List Arrival}

/-- The datagrams that come in until the `n`-th call from now on. -/
def coming (k : Socket) (n : ℕ) : List Arrival := (List.range n).flatMap fun i => (k.moments i).coming

/-- `k'` is the socket `k` after `n` calls, which have received `got`. -/
structure After (k : Socket) (n : ℕ) (got : List Arrival) (k' : Socket) : Prop where
  queue : got ++ k'.queue = k.queue ++ k.coming n
  moments : ∀ i, k'.moments i = k.moments (n + i)

theorem After.refl (k : Socket) : k.After 0 [] k where
  queue := (List.append_nil _).symm
  moments := fun i => by rw [Nat.zero_add]

theorem coming_add (k : Socket) (n m : ℕ) :
    k.coming (n + m) = k.coming n ++ (List.range m).flatMap fun i => (k.moments (n + i)).coming := by
  unfold coming
  rw [List.range_add, List.flatMap_append, List.flatMap_map]

theorem After.trans (h : k.After n got k') (h' : k'.After m got' k'') :
    k.After (n + m) (got ++ got') k'' := by
  constructor
  · have hcoming : k'.coming m = (List.range m).flatMap fun i => (k.moments (n + i)).coming := by
      unfold coming
      simp only [h.moments]
    rw [List.append_assoc, h'.queue, ← List.append_assoc, h.queue, List.append_assoc, coming_add, hcoming]
  · intro i
    rw [h'.moments, h.moments, Nat.add_assoc]

theorem after_meet (k : Socket) : k.After 1 [] k.meet where
  queue := by simp [coming, meet]
  moments := fun i => by rw [Nat.add_comm]; rfl

theorem after_recvfrom {a : Option Arrival} (h : k.recvfrom = some (a, k')) : k.After 1 a.toList k' := by
  unfold recvfrom at h
  split at h
  · cases h
    exact k.after_meet
  · cases h
  · rename_i a' queue _ hqueue
    cases h
    refine ⟨?_, k.after_meet.moments⟩
    have hall := k.after_meet.queue
    rw [hqueue] at hall
    exact hall

/-- A call of `recvfrom` does not block on a socket where something waits. -/
theorem recvfrom_ne_none (h : k.queue ≠ []) : k.recvfrom ≠ none := by
  have hmeet : k.meet.queue ≠ [] := fun hnil => h (List.append_eq_nil_iff.mp hnil).1
  unfold recvfrom
  split
  · exact Option.some_ne_none _
  · rename_i hnil
    exact absurd hnil hmeet
  · exact Option.some_ne_none _

theorem queue_of_fionread (h : k.fionread.1 ≠ 0) : k.meet.queue ≠ [] := by
  intro hnil
  apply h
  unfold fionread
  rw [hnil]
  cases (k.moments 0).errno <;> rfl

/-- What `rtp_select` tells of the socket. -/
inductive Selects (k : Socket) : ℤ × Bool × Socket → Prop
  | failed {errno : ℕ} : (k.moments 0).errno = some errno → errno ≠ eintr → Selects k (-1, false, k.meet)
  | interrupted : (k.moments 0).errno = some eintr → Selects k (0, false, k.meet)
  | idle : (k.moments 0).errno = none → k.meet.queue = [] → Selects k (0, false, k.meet)
  | ready : (k.moments 0).errno = none → k.meet.queue ≠ [] → Selects k (1, true, k.meet)

theorem selects (k : Socket) : Selects k k.select := by
  unfold select rtpSelect
  cases herrno : (k.moments 0).errno with
  | some errno =>
    by_cases heintr : errno = eintr
    · simp only [heintr]
      exact .interrupted (heintr ▸ herrno)
    · simp only [if_neg heintr]
      exact .failed herrno heintr
  | none =>
    cases hqueue : k.meet.queue with
    | nil => exact .idle herrno hqueue
    | cons a queue => exact .ready herrno (by rw [hqueue]; exact List.cons_ne_nil _ _)

/-- After `n` calls nothing comes in any more and no call fails. -/
def QuietAfter (k : Socket) (n : ℕ) : Prop := ∀ i ≥ n, (k.moments i).coming = [] ∧ (k.moments i).errno = none

end Socket

namespace Interface

variable {rtcp : Bool} {k k' : Socket} {f f' : Interface} {w w' : World} {status : ℤ} {n : ℕ}

theorem pollLoop_succ (rtcp : Bool) (fuel : ℕ) (k : Socket) (f : Interface) (w : World) :
    pollLoop rtcp (fuel + 1) k f w =
      let r := if k.fionread.1 = 0 then k.meet.select else (0, true, k.meet)
      if r.1 < 0 then .ok (r.1, r.2.2, f, w)
      else if r.2.1 then
        match r.2.2.recvfrom with
        | none => .error .blocked
        | some (a, k) => pollLoop rtcp fuel k (f.receive rtcp w a).1 (f.receive rtcp w a).2
      else .ok (0, r.2.2, f, w) := rfl

/-- One turn of the loop: it is the last one, or it calls `recvfrom`. -/
inductive Turn (rtcp : Bool) (k : Socket) (f : Interface) (w : World) : Prop
  | last (status : ℤ) (k' : Socket) :
      (∀ fuel, pollLoop rtcp (fuel + 1) k f w = .ok (status, k', f, w)) → k.After 2 [] k' → status ≤ 0 →
      (status = 0 → k'.queue = [] ∨ (k.moments 1).errno = some eintr) →
      (status ≠ 0 → (k.moments 1).errno ≠ none) → Turn rtcp k f w
  | receives (n : ℕ) (a : Option Arrival) (k' : Socket) :
      (∀ fuel, pollLoop rtcp (fuel + 1) k f w =
        pollLoop rtcp fuel k' (f.receive rtcp w a).1 (f.receive rtcp w a).2) →
      k.After (n + 1) a.toList k' → (a = none → (k.moments n).errno ≠ none) → Turn rtcp k f w

/-- A call of `recvfrom` on a socket where something waits. -/
theorem turn_receives {k₁ : Socket} (hafter : k.After n [] k₁) (hqueue : k₁.queue ≠ [])
    (hloop : ∀ fuel, pollLoop rtcp (fuel + 1) k f w = match k₁.recvfrom with
      | none => .error .blocked
      | some (a, k) => pollLoop rtcp fuel k (f.receive rtcp w a).1 (f.receive rtcp w a).2) :
    Turn rtcp k f w := by
  cases hrecv : k₁.recvfrom with
  | none => exact absurd hrecv (Socket.recvfrom_ne_none hqueue)
  | some r =>
    obtain ⟨a, k₂⟩ := r
    simp only [hrecv] at hloop
    refine .receives n a k₂ hloop (hafter.trans (Socket.after_recvfrom hrecv)) ?_
    intro hnone herrno
    rw [← Nat.add_zero n, ← hafter.moments 0] at herrno
    unfold Socket.recvfrom at hrecv
    rw [herrno] at hrecv
    cases hmeet : k₁.meet.queue with
    | nil =>
      rw [hmeet] at hrecv
      cases hrecv
    | cons b queue =>
      rw [hmeet, hnone] at hrecv
      cases hrecv

theorem turn (rtcp : Bool) (k : Socket) (f : Interface) (w : World) : Turn rtcp k f w := by
  have hmeet := k.after_meet
  by_cases hlen : k.fionread.1 = 0
  · have hafter := hmeet.trans k.meet.after_meet
    have hmoment : (k.meet.moments 0).errno = (k.moments 1).errno := rfl
    have hloop : ∀ fuel, pollLoop rtcp (fuel + 1) k f w =
        let r := k.meet.select
        if r.1 < 0 then .ok (r.1, r.2.2, f, w)
        else if r.2.1 then
          match r.2.2.recvfrom with
          | none => .error .blocked
          | some (a, k) => pollLoop rtcp fuel k (f.receive rtcp w a).1 (f.receive rtcp w a).2
        else .ok (0, r.2.2, f, w) := by
      intro fuel
      rw [pollLoop_succ, if_pos hlen]
    have hselect := k.meet.selects
    generalize k.meet.select = r at hselect hloop
    cases hselect with
    | failed herrno hne =>
      refine .last (-1) k.meet.meet hloop hafter (by decide) (fun h => absurd h (by decide)) ?_
      intro _
      rw [← hmoment, herrno]
      exact Option.some_ne_none _
    | interrupted herrno =>
      exact .last 0 k.meet.meet hloop hafter le_rfl (fun _ => Or.inr (hmoment ▸ herrno)) fun h => absurd rfl h
    | idle herrno hqueue =>
      exact .last 0 k.meet.meet hloop hafter le_rfl (fun _ => Or.inl hqueue) fun h => absurd rfl h
    | ready herrno hqueue => exact turn_receives hafter hqueue hloop
  · refine turn_receives hmeet (Socket.queue_of_fionread hlen) fun fuel => ?_
    rw [pollLoop_succ, if_neg hlen]
    rfl

/-- What the loop has done when it returns: it has met the outcome `io` of `poll` on the socket, from which
it has taken what it received, and it stops before the socket is empty only when its call of `poll` fails. -/
structure Polled (rtcp : Bool) (k : Socket) (f : Interface) (w : World) (io : PollOutcome) (k' : Socket)
    (f' : Interface) (w' : World) : Prop where
  poll : f.poll rtcp io w = (f', w', io.status)
  calls : ∃ n, k.After (n + 1) (io.recvd.filterMap id) k' ∧
    (io.status = 0 → k'.queue = [] ∨ (k.moments n).errno = some eintr)
  status : io.status ≤ 0

theorem pollLoop_polled (fuel : ℕ) (k : Socket) (f : Interface) (w : World)
    (h : pollLoop rtcp fuel k f w = .ok (status, k', f', w')) :
    ∃ recvd, Polled rtcp k f w ⟨recvd, status⟩ k' f' w' := by
  induction fuel generalizing k f w with
  | zero => cases h
  | succ fuel ih =>
    cases turn rtcp k f w with
    | last status₁ k₁ hloop hafter hle hzero _ =>
      rw [hloop fuel] at h
      cases h
      exact ⟨[], rfl, ⟨1, hafter, hzero⟩, hle⟩
    | receives n a k₁ hloop hafter _ =>
      obtain ⟨recvd, hpoll, ⟨m, hafter', hzero⟩, hle⟩ := ih k₁ _ _ (hloop fuel ▸ h)
      refine ⟨a :: recvd, ?_, ⟨n + 1 + m, ?_, ?_⟩, hle⟩
      · unfold poll at hpoll ⊢
        rw [List.foldl_cons]
        exact hpoll
      · have hcons : (a :: recvd).filterMap id = a.toList ++ recvd.filterMap id := by cases a <;> rfl
        rw [hcons]
        exact hafter.trans hafter'
      · intro hstatus
        rw [← hafter.moments m]
        exact hzero hstatus

/-- The calls of the loop do not block. -/
theorem pollLoop_not_blocked (rtcp : Bool) (fuel : ℕ) (k : Socket) (f : Interface) (w : World) :
    pollLoop rtcp fuel k f w ≠ .error .blocked := by
  induction fuel generalizing k f w with
  | zero => exact fun h => by cases h
  | succ fuel ih =>
    intro hblocked
    cases turn rtcp k f w with
    | last _ _ hloop => rw [hloop fuel] at hblocked; cases hblocked
    | receives _ _ _ hloop => exact ih _ _ _ (hloop fuel ▸ hblocked)

/-- On a socket where nothing comes in any more the loop takes a turn for each datagram. -/
theorem pollLoop_quiet (hq : k.QuietAfter 0) {fuel : ℕ} (hfuel : k.queue.length < fuel) :
    ∃ k' f' w', pollLoop rtcp fuel k f w = .ok (0, k', f', w') ∧ k'.queue = [] := by
  induction fuel generalizing k f w with
  | zero => omega
  | succ fuel ih =>
    have herrno : ∀ i, (k.moments i).errno = none := fun i => (hq i (Nat.zero_le i)).2
    cases turn rtcp k f w with
    | last status k' hloop hafter hle hzero hfails =>
      by_cases hstatus : status = 0
      · subst hstatus
        refine ⟨k', f, w, hloop fuel, (hzero rfl).resolve_right ?_⟩
        rw [herrno]
        exact fun h => by cases h
      · exact absurd (herrno 1) (hfails hstatus)
    | receives n a k' hloop hafter hsome =>
      cases a with
      | none => exact absurd (herrno n) (hsome rfl)
      | some a =>
        have hcoming : k.coming (n + 1) = [] :=
          List.flatMap_eq_nil_iff.mpr fun i _ => (hq i (Nat.zero_le i)).1
        have hlength := congrArg List.length hafter.queue
        rw [hcoming, List.append_nil, Option.toList_some, List.singleton_append, List.length_cons] at hlength
        have hquiet : k'.QuietAfter 0 := by
          intro i _
          rw [hafter.moments]
          exact hq _ (Nat.zero_le _)
        rw [hloop]
        exact ih hquiet (by omega)

/-- More turns than the loop takes change nothing. -/
theorem pollLoop_mono {r : ℤ × Socket × Interface × World} {fuel fuel' : ℕ} (hle : fuel ≤ fuel')
    (h : pollLoop rtcp fuel k f w = .ok r) : pollLoop rtcp fuel' k f w = .ok r := by
  induction fuel generalizing fuel' k f w with
  | zero => cases h
  | succ fuel ih =>
    obtain ⟨fuel', rfl⟩ := Nat.exists_eq_add_of_le' (le_of_add_le_right hle)
    cases turn rtcp k f w with
    | last _ _ hloop => rwa [hloop fuel', ← hloop fuel]
    | receives _ _ _ hloop =>
      rw [hloop fuel']
      exact ih (by omega) (hloop fuel ▸ h)

/-- The loop ends on every socket on which datagrams stop coming in. -/
theorem pollLoop_ends (hq : k.QuietAfter n) : ∃ fuel r, pollLoop rtcp fuel k f w = .ok r := by
  induction n using Nat.strong_induction_on generalizing k f w with
  | _ n ih =>
    cases n with
    | zero =>
      obtain ⟨k', f', w', hloop, -⟩ := @pollLoop_quiet rtcp k f w hq _ (Nat.lt_succ_self _)
      exact ⟨_, _, hloop⟩
    | succ n =>
      cases turn rtcp k f w with
      | last status k' hloop => exact ⟨1, _, hloop 0⟩
      | receives m a k' hloop hafter =>
        -- the turn has made calls, so that fewer are left until all is quiet
        have hquiet : k'.QuietAfter (n - m) := by
          intro i hi
          rw [hafter.moments]
          exact hq _ (by omega)
        obtain ⟨fuel, r, hends⟩ := ih (n - m) (by omega) hquiet
        exact ⟨fuel + 1, r, (hloop fuel).trans hends⟩

end Interface

end Mprtp
