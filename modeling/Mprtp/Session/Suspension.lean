import Mprtp.Lib.Since
import Mprtp.Session.Rules

/-! The interfaces that `suspend_interface` has marked, and the calls that marked them. -/
namespace Mprtp

namespace Interface

variable {f : Interface} {w : World}

theorem receive_suspended (rtcp : Bool) (a : Option Arrival) :
    (receive rtcp f w a).1.suspended = f.suspended := by
  unfold receive
  cases a with
  | none => rfl
  | some a =>
    dsimp only
    split
    · rfl
    · rfl

theorem poll_suspended (rtcp : Bool) (io : PollOutcome) :
    (f.poll rtcp io w).1.suspended = f.suspended := by
  obtain ⟨recvd, status⟩ := io
  unfold poll
  dsimp only
  induction recvd generalizing f w with
  | nil => rfl
  | cons a as ih => rw [List.foldl_cons, ih, receive_suspended]

end Interface

namespace Session

variable {σ ω ε : Type} {h : Handlers σ ω}

/-- The mark of the interface `i`. -/
def suspended (fs : List Interface) (i : ℕ) : Bool := (fs[i]?.map Interface.suspended).getD false

/-- The interface that `suspend_interface` marks: the first with the address. -/
def interfaceAt? (fs : List Interface) (addr : Endpoint) : Option ℕ :=
  fs.findIdx? fun f => addr = f.getAddress

theorem suspended_addInterface (s : Session σ) (addr : Endpoint) (opened : Bool) :
    suspended (s.addInterface addr opened).interfaces = suspended s.interfaces := by
  funext i
  exact getD_addInterface (fun _ => rfl) s addr opened i

theorem suspended_pollInterfaces (io : PollInput) (fs : List Interface) (w : World) :
    suspended (pollInterfaces io 0 fs w).1 = suspended fs := by
  funext i
  exact getD_pollInterfaces (R := fun x y => y = x) (fun _ => rfl) (fun _ _ _ h h' => h'.trans h)
    (fun _ _ _ _ => Interface.poll_suspended _ _) io 0 fs w i

theorem suspended_drained (n : ℕ) (fs : List Interface) : suspended (drained n fs) = suspended fs := by
  funext i
  unfold suspended
  rw [getElem?_drained]
  cases fs[i]? with
  | none => rfl
  | some f =>
    rw [Option.map_some]
    split
    · rfl
    · rfl

theorem interfaceAt?_cons (f : Interface) (fs : List Interface) (addr : Endpoint) :
    interfaceAt? (f :: fs) addr =
      if addr = f.getAddress then some 0 else (interfaceAt? fs addr).map (· + 1) := by
  unfold interfaceAt?
  rw [List.findIdx?_cons]
  by_cases hf : addr = f.getAddress
  · simp [hf]
  · simp [hf]

theorem suspendFirst_found (addr : Endpoint) (suspend : Bool) (fs : List Interface) :
    (suspendFirst addr suspend fs).2 = (interfaceAt? fs addr).isSome := by
  induction fs with
  | nil => rfl
  | cons f fs ih =>
    rw [interfaceAt?_cons]
    unfold suspendFirst
    split
    · rfl
    · rw [Option.isSome_map]
      exact ih

/-- Only the interface that is found gets the mark. -/
theorem suspended_suspendFirst (addr : Endpoint) (suspend : Bool) (fs : List Interface) (i : ℕ) :
    suspended (suspendFirst addr suspend fs).1 i =
      if interfaceAt? fs addr = some i then suspend else suspended fs i := by
  induction fs generalizing i with
  | nil => rfl
  | cons f fs ih =>
    rw [interfaceAt?_cons]
    unfold suspendFirst
    split
    · cases i with
      | zero => rfl
      | succ i => rfl
    · cases i with
      | zero =>
        have hnever : (interfaceAt? fs addr).map (· + 1) ≠ some 0 := by simp
        rw [if_neg hnever]
        rfl
      | succ i =>
        have hiff : (interfaceAt? fs addr).map (· + 1) = some (i + 1) ↔ interfaceAt? fs addr = some i := by
          simp
        simp only [hiff]
        exact ih i

/-- The marks are as they were after a poll. -/
theorem poll_suspended {good : List ω → ω → Prop} (hvisit : ∀ H obj c, good H (h.visit obj c))
    (fuel : ℕ) (io : PollInput) (s : Session σ) (H : List ω) :
    (s.poll h fuel io).Sat good H fun _ r => suspended r.1.interfaces = suspended s.interfaces := by
  have hmarks := suspended_pollInterfaces io s.interfaces s.world
  generalize hpoll : pollInterfaces io 0 s.interfaces s.world = r at hmarks
  obtain ⟨fs, w, status⟩ := r
  have hcalls : KeptByCalls h good (fun _ _ => True) fun _ (_ : Session σ) => True :=
    fun H s i raw c _ _ _ => ⟨hvisit H s.obj c, trivial⟩
  have hsat : (s.poll h fuel io).Sat good H _ :=
    poll_sat (fun _ _ _ _ => trivial) hcalls hpoll (fun _ _ _ _ _ => trivial) trivial
  refine hsat.mono (fun _ _ hg => hg) ?_
  intro H' r hr
  rcases hr.2 with hres | hdrained
  · rw [hres]
    exact hmarks
  · rw [hdrained, suspended_drained]
    exact hmarks

section Calls

variable (suspend? : ε → Option (Endpoint × Bool))

/-- The noted call is a `suspend_interface` that returns true, and `i` is the interface it finds. -/
def Marks (i : ℕ) (suspend : Bool) : (Session σ × ε) ⊕ ω → Prop
  | .inl (s, e) => ∃ addr, suspend? e = some (addr, suspend) ∧
      (s.suspendInterface addr suspend).2 = true ∧ interfaceAt? s.interfaces addr = some i
  | .inr _ => False

/-- The interface `i` has been suspended, and it has not been resumed since. -/
def SuspendedSince (i : ℕ) (H : List ((Session σ × ε) ⊕ ω)) : Prop :=
  Since (Marks suspend? i true) (fun e => ¬ Marks suspend? i false e) H

variable {suspend?} {H : List ((Session σ × ε) ⊕ ω)} {s : Session σ} {e : ε} {i : ℕ}

theorem suspendedSince_concat_of_none (he : suspend? e = none) :
    SuspendedSince suspend? i (H ++ [.inl (s, e)]) ↔ SuspendedSince suspend? i H := by
  have hno : ∀ b, ¬ Marks (ω := ω) suspend? i b (.inl (s, e)) := by
    intro b hm
    obtain ⟨addr, hs, -⟩ := hm
    rw [he] at hs
    cases hs
  exact since_concat_of_neither (hno true) (hno false)

/-- What is logged in a step suspends nothing. -/
theorem suspendedSince_append_inr (L : List ω) :
    SuspendedSince suspend? i (H ++ L.map .inr) ↔ SuspendedSince suspend? i H := by
  induction L using List.reverseRecOn with
  | nil => rw [List.map_nil, List.append_nil]
  | append_singleton L a ih =>
    rw [List.map_append, List.map_singleton, ← List.append_assoc, ← ih]
    exact since_concat_of_neither (fun hm => hm) fun hm => hm

theorem suspendedSince_concat_of_some {addr : Endpoint} {b : Bool} (he : suspend? e = some (addr, b)) :
    SuspendedSince suspend? i (H ++ [.inl (s, e)]) ↔
      if interfaceAt? s.interfaces addr = some i then b = true else SuspendedSince suspend? i H := by
  have hmarks : ∀ b', Marks (ω := ω) suspend? i b' (.inl (s, e)) ↔
      b = b' ∧ interfaceAt? s.interfaces addr = some i := by
    intro b'
    constructor
    · intro hm
      obtain ⟨addr', hs, -, hat⟩ := hm
      rw [he] at hs
      cases hs
      exact ⟨rfl, hat⟩
    · intro hm
      obtain ⟨rfl, hat⟩ := hm
      refine ⟨addr, he, ?_, hat⟩
      have hfound := suspendFirst_found addr b s.interfaces
      rw [hat] at hfound
      exact hfound
  unfold SuspendedSince
  rw [since_concat, hmarks, hmarks]
  by_cases hat : interfaceAt? s.interfaces addr = some i
  · cases b <;> simp [hat]
  · simp [hat]

/-- Exactly the interfaces that have been suspended bear the mark. -/
def MarksFollow (suspend? : ε → Option (Endpoint × Bool)) (H : List ((Session σ × ε) ⊕ ω))
    (s : Session σ) : Prop :=
  ∀ i, suspended s.interfaces i = true ↔ SuspendedSince suspend? i H

variable {step : Session σ → ε → Exec ω (Session σ)} {spares : Session σ → ε → Prop}
  {sent? : ω → Option OutDatagram} {ok : List ((Session σ × ε) ⊕ ω) → Session σ → ε → Prop}
  {s₀ : Session σ} {r : Option (Session σ)}

/-- In every run the marks follow the calls; when every step spares the interfaces with the mark,
nothing is sent through an interface that is suspended. -/
theorem run_suspended
    (hsuspend : ∀ s e addr b, suspend? e = some (addr, b) → step s e = pure (s.suspendInterface addr b).1)
    (hother : ∀ s e, suspend? e = none → ∀ L, (step s e).Sat
      (fun _ a => spares s e → ∀ out, sent? a = some out → suspended s.interfaces out.iface = false) L
      fun _ s' => suspended s'.interfaces = suspended s.interfaces)
    (h₀ : s₀.interfaces = []) (hrun : Run (noting step) ok s₀ H r) :
    ((∀ H s e, ok H s e → spares s e) → ∀ n a (out : OutDatagram), H[n]? = some (.inr a) →
      sent? a = some out → ¬ SuspendedSince suspend? out.iface (H.take n)) ∧
    ∀ s, r = some s → MarksFollow suspend? H s := by
  have hempty : MarksFollow suspend? ([] : List ((Session σ × ε) ⊕ ω)) s₀ := by
    intro i
    rw [h₀]
    exact iff_of_false (by simp [suspended]) not_since_nil
  have hstep : ∀ H s e, MarksFollow suspend? H s → ok H s e → (noting step s e).Sat
      (fun H a => (∀ H s e, ok H s e → spares s e) → ∀ a' (out : OutDatagram), a = .inr a' →
        sent? a' = some out → ¬ SuspendedSince suspend? out.iface H) H (MarksFollow suspend?) := by
    intro H s e hmarks hok
    cases he : suspend? e with
    | some p =>
      obtain ⟨addr, b⟩ := p
      refine Exec.sat_noting (g := fun _ _ => False)
        (I := fun L s' => L = told H ∧ s' = (s.suspendInterface addr b).1) ?_ ?_ ?_ ?_
      · exact fun _ _ _ ha _ => by cases ha
      · rw [hsuspend s e addr b he]
        exact Exec.sat_pure ⟨rfl, rfl⟩
      · exact fun _ _ hg => hg.elim
      · intro L s' hs i
        obtain ⟨-, rfl⟩ := hs
        have hfirst := suspended_suspendFirst addr b s.interfaces i
        rw [suspendedSince_append_inr, suspendedSince_concat_of_some he, ← hmarks i]
        change suspended (suspendFirst addr b s.interfaces).1 i = true ↔ _
        rw [hfirst]
        split
        · rfl
        · rfl
    | none =>
      have hsince : ∀ (L : List ω) i, SuspendedSince suspend? i (H ++ [.inl (s, e)] ++ L.map .inr) ↔
          suspended s.interfaces i = true := by
        intro L i
        rw [suspendedSince_append_inr, suspendedSince_concat_of_none he]
        exact (hmarks i).symm
      refine Exec.sat_noting ?_ (hother s e he (told H)) ?_ ?_
      · exact fun _ _ _ ha _ => by cases ha
      · intro L a hg hspares a' out ha hout
        cases ha
        rw [hsince, hg (hspares H s e hok) out hout]
        decide
      · intro L s' hs i
        rw [hsince, hs]
  constructor
  · intro hspares n a out hn hout
    exact Run.sat_getElem hempty hstep hrun hn hspares a out rfl hout
  · exact (Run.sat hempty hstep hrun).2

end Calls

end Session

end Mprtp
