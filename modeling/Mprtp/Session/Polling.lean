import Mprtp.Interface.Poll
import Mprtp.Session

/-! The first loop of `session::poll` on the sockets of its interfaces. -/
namespace Mprtp

/-- The bytes that the queue keeps of the datagrams that were received: an empty one is dropped, and a long
one is cut. -/
def keptOf (got : List Arrival) : List (List UInt8) :=
  (got.filter fun a => a.data ≠ []).map fun a => a.data.take maxPacketSize

theorem keptOf_append (got got' : List Arrival) : keptOf (got ++ got') = keptOf got ++ keptOf got' := by
  unfold keptOf
  rw [List.filter_append, List.map_append]

namespace Interface

variable {f : Interface} {w : World}

/-- The datagrams in the queue that came in on the one socket or the other. -/
def datagrams (rtcp : Bool) (f : Interface) : List (List UInt8) :=
  (f.packets.filter fun raw => raw.isrtcp = rtcp).map RawPacket.data

theorem receive_datagrams (rtcp rtcp' : Bool) (f : Interface) (w : World) (a : Option Arrival) :
    (receive rtcp f w a).1.datagrams rtcp' =
      f.datagrams rtcp' ++ if rtcp' = rtcp then keptOf a.toList else [] := by
  unfold receive keptOf
  cases a with
  | none => simp
  | some a =>
    by_cases hdata : a.data = []
    · simp [hdata]
    · rcases eq_or_ne rtcp' rtcp with rfl | hne
      · simp [datagrams, hdata]
      · simp [datagrams, hdata, hne, Ne.symm hne]

/-- A poll of one socket puts what it receives behind the datagrams of that socket. -/
theorem poll_datagrams (rtcp rtcp' : Bool) (io : PollOutcome) (f : Interface) (w : World) :
    (f.poll rtcp io w).1.datagrams rtcp' =
      f.datagrams rtcp' ++ if rtcp' = rtcp then keptOf (io.recvd.filterMap id) else [] := by
  obtain ⟨recvd, status⟩ := io
  unfold poll
  dsimp only
  induction recvd generalizing f w with
  | nil => simp [keptOf]
  | cons a as ih =>
    have hcons : (a :: as).filterMap id = a.toList ++ as.filterMap id := by cases a <;> rfl
    rw [List.foldl_cons, ih, receive_datagrams, hcons, keptOf_append]
    split <;> simp

end Interface

section Except

variable {α β ε : Type} {x : Except ε α} {f : α → Except ε β} {e : ε} {b : β}

theorem except_bind_eq_ok : x >>= f = .ok b ↔ ∃ a, x = .ok a ∧ f a = .ok b := by
  constructor
  · intro h
    cases x with
    | error e => cases h
    | ok a => exact ⟨a, rfl, h⟩
  · rintro ⟨a, rfl, h⟩
    exact h

theorem except_bind_ne_error (hx : x ≠ .error e) (hf : ∀ a, f a ≠ .error e) : x >>= f ≠ .error e := by
  intro h
  cases x with
  | error e' =>
    cases h
    exact hx rfl
  | ok a => exact hf a h

end Except

/-- An interface with its RTP (`false`) and its RTCP (`true`) socket. -/
structure BoundInterface where
  iface : Interface
  sock : Bool → Socket

namespace BoundInterface

/-- `interface::poll` of one of the sockets. -/
def poll (rtcp : Bool) (fuel : ℕ) (b : BoundInterface) (w : World) :
    Except Stuck (ℤ × BoundInterface × World) := do
  let (status, k, f, w) ← b.iface.pollLoop rtcp fuel (b.sock rtcp) w
  return (status, ⟨f, fun r => if r = rtcp then k else b.sock r⟩, w)

end BoundInterface

/-- The first loop of `session::poll`. -/
def pollSockets (fuel : ℕ) : List BoundInterface → World → Except Stuck (List BoundInterface × World × ℤ)
  | [], w => .ok ([], w, 0)
  | b :: bs, w => do
    let (status, b, w) ← b.poll false fuel w
    if status < 0 then return (b :: bs, w, status)
    let (status, b, w) ← b.poll true fuel w
    if status < 0 then return (b :: bs, w, status)
    let (bs, w, status) ← pollSockets fuel bs w
    return (b :: bs, w, status)

namespace BoundInterface

variable {rtcp : Bool} {fuel : ℕ} {b b' b'' : BoundInterface} {w w' : World} {status : ℤ} {emptied : Prop}

/-- What came in on one of the sockets during `n` calls is still there or has been read, and what has been
read has joined the queue, in order, but for empty datagrams; when the socket was `emptied`, nothing is left
there, unless the last of these calls was interrupted. -/
def Moved (rtcp : Bool) (emptied : Prop) (b b' : BoundInterface) : Prop :=
  ∃ n got, (b.sock rtcp).After n got (b'.sock rtcp) ∧
    b'.iface.datagrams rtcp = b.iface.datagrams rtcp ++ keptOf got ∧
    (emptied → (b'.sock rtcp).queue = [] ∨ ∃ i, i + 1 = n ∧ ((b.sock rtcp).moments i).errno = some eintr)

theorem Moved.refl (rtcp : Bool) (b : BoundInterface) : Moved rtcp False b b :=
  ⟨0, [], Socket.After.refl _, (List.append_nil _).symm, False.elim⟩

theorem Moved.mono {emptied' : Prop} (h : Moved rtcp emptied b b') (himp : emptied' → emptied) :
    Moved rtcp emptied' b b' := by
  obtain ⟨n, got, hafter, hdatagrams, hempty⟩ := h
  exact ⟨n, got, hafter, hdatagrams, hempty ∘ himp⟩

/-- Nothing happens to one of the sockets. -/
def Same (rtcp : Bool) (b b' : BoundInterface) : Prop :=
  b'.sock rtcp = b.sock rtcp ∧ b'.iface.datagrams rtcp = b.iface.datagrams rtcp

theorem Moved.same (h : Moved rtcp emptied b b') (hsame : Same rtcp b' b'') : Moved rtcp emptied b b'' := by
  obtain ⟨n, got, hafter, hdatagrams, hempty⟩ := h
  refine ⟨n, got, ?_, hsame.2.trans hdatagrams, ?_⟩
  · rw [hsame.1]
    exact hafter
  · rw [hsame.1]
    exact hempty

theorem Same.moved (hsame : Same rtcp b b') (h : Moved rtcp emptied b' b'') : Moved rtcp emptied b b'' := by
  obtain ⟨n, got, hafter, hdatagrams, hempty⟩ := h
  rw [hsame.1] at hafter hempty
  rw [hsame.2] at hdatagrams
  exact ⟨n, got, hafter, hdatagrams, hempty⟩

theorem poll_ok (h : b.poll rtcp fuel w = .ok (status, b', w')) :
    (∃ recvd, b.iface.poll rtcp ⟨recvd, status⟩ w = (b'.iface, w', status)) ∧ status ≤ 0 ∧
      Moved rtcp (status = 0) b b' ∧ ∀ r ≠ rtcp, Same r b b' := by
  obtain ⟨⟨status₁, k, f, w₁⟩, hloop, hret⟩ := except_bind_eq_ok.mp h
  cases hret
  obtain ⟨recvd, hpoll, ⟨n, hafter, hzero⟩, hle⟩ := Interface.pollLoop_polled fuel _ _ _ hloop
  have hdatagrams := fun r => Interface.poll_datagrams rtcp r ⟨recvd, status⟩ b.iface w
  rw [hpoll] at hdatagrams
  have hsock : (if rtcp = rtcp then k else b.sock rtcp) = k := if_pos rfl
  refine ⟨⟨recvd, hpoll⟩, hle, ⟨n + 1, recvd.filterMap id, ?_, ?_, ?_⟩, ?_⟩
  · dsimp only
    rw [hsock]
    exact hafter
  · have hsame := hdatagrams rtcp
    rwa [if_pos rfl] at hsame
  · intro hstatus
    dsimp only
    rw [hsock]
    exact (hzero hstatus).imp_right fun herrno => ⟨n, rfl, herrno⟩
  · intro r hr
    have hsame := hdatagrams r
    rw [if_neg hr, List.append_nil] at hsame
    exact ⟨if_neg hr, hsame⟩

theorem poll_ends {n : ℕ} (hq : (b.sock rtcp).QuietAfter n) (w : World) :
    ∃ fuel₀ r, ∀ fuel ≥ fuel₀, b.poll rtcp fuel w = .ok r := by
  obtain ⟨fuel₀, r, hloop⟩ := @Interface.pollLoop_ends rtcp (b.sock rtcp) b.iface w n hq
  obtain ⟨status, k, f, w'⟩ := r
  refine ⟨fuel₀, (status, ⟨f, fun r => if r = rtcp then k else b.sock r⟩, w'), fun fuel hfuel => ?_⟩
  exact except_bind_eq_ok.mpr ⟨_, Interface.pollLoop_mono hfuel hloop, rfl⟩

end BoundInterface

/-- What a poll meets with other outcomes for the interface `i`. -/
def PollInput.put (io : PollInput) (i : ℕ) (rtp rtcp : PollOutcome) : PollInput :=
  fun j b => if j = i then if b then rtcp else rtp else io j b

namespace Session

variable {io io' : PollInput} {i : ℕ} {rtp rtcp : PollOutcome} {f f₁ f₂ : Interface} {fs : List Interface}
  {w w₁ w₂ : World}

theorem pollInterfaces_cons (io : PollInput) (i : ℕ) (f : Interface) (fs : List Interface) (w : World) :
    pollInterfaces io i (f :: fs) w =
      let r := f.poll false (io i false) w
      if r.2.2 < 0 then (r.1 :: fs, r.2.1, r.2.2)
      else
        let r := r.1.poll true (io i true) r.2.1
        if r.2.2 < 0 then (r.1 :: fs, r.2.1, r.2.2)
        else
          let rest := pollInterfaces io (i + 1) fs r.2.1
          (r.1 :: rest.1, rest.2.1, rest.2.2) := rfl

theorem pollInterfaces_congr (h : ∀ j ≥ i, io j = io' j) (fs : List Interface) (w : World) :
    pollInterfaces io i fs w = pollInterfaces io' i fs w := by
  induction fs generalizing i w with
  | nil => rfl
  | cons f fs ih =>
    have hrest := ih (i := i + 1) fun j hj => h j (by omega)
    rw [pollInterfaces_cons, pollInterfaces_cons, h i le_rfl]
    simp only [hrest]

theorem pollInterfaces_put (io : PollInput) (i : ℕ) (rtp rtcp : PollOutcome) (f : Interface)
    (fs : List Interface) (w : World) : pollInterfaces (io.put i rtp rtcp) i (f :: fs) w =
      let r := f.poll false rtp w
      if r.2.2 < 0 then (r.1 :: fs, r.2.1, r.2.2)
      else
        let r := r.1.poll true rtcp r.2.1
        if r.2.2 < 0 then (r.1 :: fs, r.2.1, r.2.2)
        else
          let rest := pollInterfaces io (i + 1) fs r.2.1
          (r.1 :: rest.1, rest.2.1, rest.2.2) := by
  have hlater : ∀ j ≥ i + 1, io.put i rtp rtcp j = io j := by
    intro j hj
    have hne : j ≠ i := by omega
    unfold PollInput.put
    simp only [if_neg hne]
  have hput : ∀ b, io.put i rtp rtcp i b = if b then rtcp else rtp := fun b => if_pos rfl
  rw [pollInterfaces_cons, hput, hput]
  simp only [pollInterfaces_congr hlater fs, Bool.false_eq_true, if_false, if_true]

end Session

/-- Whatever comes in while the sockets are polled, the poll does what `session::poll` does for some outcome
of every call of `interface::poll`, and it loses nothing. -/
theorem pollSockets_ok {fuel : ℕ} {bs bs' : List BoundInterface} {w w' : World} {status : ℤ}
    (h : pollSockets fuel bs w = .ok (bs', w', status)) (i : ℕ) :
    (∃ io, Session.pollInterfaces io i (bs.map BoundInterface.iface) w =
      (bs'.map BoundInterface.iface, w', status)) ∧ status ≤ 0 ∧
    List.Forall₂ (fun b b' => ∀ rtcp, BoundInterface.Moved rtcp (status = 0) b b') bs bs' := by
  induction bs generalizing bs' w w' status i with
  | nil =>
    cases h
    exact ⟨⟨fun _ _ => {}, rfl⟩, le_rfl, .nil⟩
  | cons b bs ih =>
    -- a poll that fails leaves the interfaces behind it as they are
    have hrest : status < 0 → List.Forall₂
        (fun b b' => ∀ rtcp, BoundInterface.Moved rtcp (status = 0) b b') bs bs := by
      intro hneg
      refine List.forall₂_same.mpr fun b _ rtcp => ?_
      exact (BoundInterface.Moved.refl rtcp b).mono fun hzero => by omega
    obtain ⟨⟨status₁, b₁, w₁⟩, hrtp, h⟩ := except_bind_eq_ok.mp h
    obtain ⟨⟨recvd₁, hpoll₁⟩, hle₁, hmoved₁, hsame₁⟩ := BoundInterface.poll_ok hrtp
    have htrue₁ : BoundInterface.Same true b b₁ := hsame₁ true (by decide)
    dsimp only at h
    split at h
    · rename_i hneg
      cases h
      refine ⟨⟨PollInput.put (fun _ _ => {}) i ⟨recvd₁, status⟩ {}, ?_⟩, hle₁, .cons ?_ (hrest hneg)⟩
      · rw [List.map_cons, Session.pollInterfaces_put, hpoll₁]
        exact if_pos hneg
      · intro rtcp
        cases rtcp with
        | false => exact hmoved₁
        | true => exact ((BoundInterface.Moved.refl true b).same htrue₁).mono fun hzero => by omega
    · rename_i hpos₁
      have hzero₁ : status₁ = 0 := by omega
      obtain ⟨⟨status₂, b₂, w₂⟩, hrtcp, h⟩ := except_bind_eq_ok.mp h
      obtain ⟨⟨recvd₂, hpoll₂⟩, hle₂, hmoved₂, hsame₂⟩ := BoundInterface.poll_ok hrtcp
      have hmoved : ∀ rtcp, BoundInterface.Moved rtcp (status₂ = 0) b b₂ := by
        intro rtcp
        cases rtcp with
        | false => exact (hmoved₁.same (hsame₂ false (by decide))).mono fun _ => hzero₁
        | true => exact htrue₁.moved hmoved₂
      dsimp only at h
      split at h
      · rename_i hneg
        cases h
        refine ⟨⟨PollInput.put (fun _ _ => {}) i ⟨recvd₁, status₁⟩ ⟨recvd₂, status⟩, ?_⟩, hle₂,
          .cons hmoved (hrest hneg)⟩
        rw [List.map_cons, Session.pollInterfaces_put, hpoll₁]
        dsimp only
        rw [if_neg hpos₁, hpoll₂]
        exact if_pos hneg
      · rename_i hpos₂
        obtain ⟨⟨bs₃, w₃, status₃⟩, hbs, h⟩ := except_bind_eq_ok.mp h
        obtain ⟨⟨io, hio⟩, hle₃, hall⟩ := ih hbs (i + 1)
        cases h
        refine ⟨⟨io.put i ⟨recvd₁, status₁⟩ ⟨recvd₂, status₂⟩, ?_⟩, hle₃, .cons ?_ hall⟩
        · rw [List.map_cons, Session.pollInterfaces_put, hpoll₁]
          dsimp only
          rw [if_neg hpos₁, hpoll₂]
          dsimp only
          rw [if_neg hpos₂, hio]
          rfl
        · exact fun rtcp => (hmoved rtcp).mono fun _ => by omega

theorem pollSockets_not_blocked (fuel : ℕ) (bs : List BoundInterface) (w : World) :
    pollSockets fuel bs w ≠ .error .blocked := by
  have hpoll : ∀ rtcp (b : BoundInterface) w, b.poll rtcp fuel w ≠ .error .blocked := fun rtcp b w =>
    except_bind_ne_error (b.iface.pollLoop_not_blocked rtcp fuel (b.sock rtcp) w) fun _ h => by cases h
  induction bs generalizing w with
  | nil => exact fun h => by cases h
  | cons b bs ih =>
    refine except_bind_ne_error (hpoll false b w) fun r => ?_
    obtain ⟨status, b, w⟩ := r
    dsimp only
    split
    · exact fun h => by cases h
    · refine except_bind_ne_error (hpoll true b w) fun r => ?_
      obtain ⟨status, b, w⟩ := r
      dsimp only
      split
      · exact fun h => by cases h
      · exact except_bind_ne_error (ih w) fun _ h => by cases h

/-- The poll ends when datagrams stop coming in and calls stop failing on every socket. -/
theorem pollSockets_ends {bs : List BoundInterface}
    (hq : ∀ b ∈ bs, ∀ rtcp, ∃ n, (b.sock rtcp).QuietAfter n) (w : World) :
    ∃ fuel₀ r, ∀ fuel ≥ fuel₀, pollSockets fuel bs w = .ok r := by
  induction bs generalizing w with
  | nil => exact ⟨0, _, fun _ _ => rfl⟩
  | cons b bs ih =>
    obtain ⟨hb, hbs⟩ := List.forall_mem_cons.mp hq
    obtain ⟨n, hn⟩ := hb false
    obtain ⟨fuel₁, ⟨status₁, b₁, w₁⟩, hrtp⟩ := BoundInterface.poll_ends hn w
    by_cases hneg₁ : status₁ < 0
    · refine ⟨fuel₁, (b₁ :: bs, w₁, status₁), fun fuel hfuel => ?_⟩
      exact except_bind_eq_ok.mpr ⟨_, hrtp fuel hfuel, if_pos hneg₁⟩
    · obtain ⟨n, hn⟩ := hb true
      obtain ⟨-, -, -, hsame⟩ := BoundInterface.poll_ok (hrtp fuel₁ le_rfl)
      rw [← (hsame true (by decide)).1] at hn
      obtain ⟨fuel₂, ⟨status₂, b₂, w₂⟩, hrtcp⟩ := BoundInterface.poll_ends hn w₁
      by_cases hneg₂ : status₂ < 0
      · refine ⟨max fuel₁ fuel₂, (b₂ :: bs, w₂, status₂), fun fuel hfuel => ?_⟩
        refine except_bind_eq_ok.mpr ⟨_, hrtp fuel (le_of_max_le_left hfuel), ?_⟩
        dsimp only
        rw [if_neg hneg₁]
        refine except_bind_eq_ok.mpr ⟨_, hrtcp fuel (le_of_max_le_right hfuel), ?_⟩
        exact if_pos hneg₂
      · obtain ⟨fuel₃, ⟨bs₃, w₃, status₃⟩, hrest⟩ := ih hbs w₂
        refine ⟨max (max fuel₁ fuel₂) fuel₃, (b₂ :: bs₃, w₃, status₃), fun fuel hfuel => ?_⟩
        obtain ⟨hfuel₁₂, hfuel₃⟩ := max_le_iff.mp hfuel
        obtain ⟨hfuel₁, hfuel₂⟩ := max_le_iff.mp hfuel₁₂
        refine except_bind_eq_ok.mpr ⟨_, hrtp fuel hfuel₁, ?_⟩
        dsimp only
        rw [if_neg hneg₁]
        refine except_bind_eq_ok.mpr ⟨_, hrtcp fuel hfuel₂, ?_⟩
        dsimp only
        rw [if_neg hneg₂]
        exact except_bind_eq_ok.mpr ⟨_, hrest fuel hfuel₃, rfl⟩

/-- Whatever comes in on the sockets of the interfaces while `session::poll` reads from them, no call of the
loop blocks, and it ends if datagrams stop coming in and calls stop failing. When it returns, it has done what
it does for some outcome of every call of `interface::poll`; every datagram that is not empty is still on its
socket or has joined the queue of the interface, in order; and after status 0 no socket has any left, unless
the last `poll` on it was interrupted. -/
theorem sockets_emptied (bs : List BoundInterface) (w : World) :
    (∀ fuel, pollSockets fuel bs w ≠ .error .blocked) ∧
    ((∀ b ∈ bs, ∀ rtcp, ∃ n, (b.sock rtcp).QuietAfter n) →
      ∃ fuel₀ r, ∀ fuel ≥ fuel₀, pollSockets fuel bs w = .ok r) ∧
    ∀ fuel bs' w' status, pollSockets fuel bs w = .ok (bs', w', status) →
      (∃ io, Session.pollInterfaces io 0 (bs.map BoundInterface.iface) w =
        (bs'.map BoundInterface.iface, w', status)) ∧ status ≤ 0 ∧
      List.Forall₂ (fun b b' => ∀ rtcp, BoundInterface.Moved rtcp (status = 0) b b') bs bs' :=
  ⟨fun fuel => pollSockets_not_blocked fuel bs w, fun hq => pollSockets_ends hq w,
    fun _ _ _ _ h => pollSockets_ok h 0⟩

/-- An interface on whose RTP socket a datagram and an empty one wait, and another one comes in with the call
`n = 3`. -/
def emptyBetween : BoundInterface where
  iface := Interface.new ⟨0x0A000002, 22000⟩
  sock
    | false =>
      { queue := [⟨[1], fun _ => 0, ⟨0x0A000001, 23000⟩⟩, ⟨[], fun _ => 0, ⟨0x0A000001, 23000⟩⟩]
        moments := fun n => if n = 3 then { coming := [⟨[2], fun _ => 0, ⟨0x0A000001, 23000⟩⟩] } else {} }
    | true => {}

/-- Both datagrams that are not empty join the queue. -/
theorem emptyBetween_emptied :
    (∃ fuel₀ r, ∀ fuel ≥ fuel₀, pollSockets fuel [emptyBetween] (.ticking 0) = .ok r) ∧
    ∃ b w', pollSockets 4 [emptyBetween] (.ticking 0) = .ok ([b], w', 0) ∧
      b.iface.datagrams false = [[1], [2]] ∧ ∀ rtcp, BoundInterface.Moved rtcp True emptyBetween b := by
  obtain ⟨-, hends, hmoves⟩ := sockets_emptied [emptyBetween] (.ticking 0)
  constructor
  · apply hends
    intro b hb rtcp
    cases List.mem_singleton.mp hb
    refine ⟨4, fun i hi => ?_⟩
    cases rtcp with
    | true => exact ⟨rfl, rfl⟩
    | false =>
      have hne : i ≠ 3 := by omega
      unfold emptyBetween
      dsimp only
      rw [if_neg hne]
      exact ⟨rfl, rfl⟩
  · have hsome : ∃ r ∈ (pollSockets 4 [emptyBetween] (.ticking 0)).toOption, r.2.2 = 0 ∧
        r.1.map (fun b => b.iface.datagrams false) = [[[1], [2]]] := by decide +kernel
    obtain ⟨⟨bs', w', status⟩, hr, hstatus, hdatagrams⟩ := hsome
    dsimp only at hstatus hdatagrams
    subst hstatus
    cases hpoll : pollSockets 4 [emptyBetween] (.ticking 0) with
    | error e =>
      rw [hpoll] at hr
      cases hr
    | ok r =>
      rw [hpoll] at hr
      cases hr
      obtain ⟨-, -, hall⟩ := hmoves 4 bs' w' 0 hpoll
      cases hall with
      | cons hmoved hnil =>
        cases hnil
        rw [List.map_singleton] at hdatagrams
        exact ⟨_, w', rfl, List.singleton_injective hdatagrams, fun rtcp => (hmoved rtcp).mono fun _ => rfl⟩

end Mprtp
