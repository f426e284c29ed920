import Mathlib.Data.List.Basic

/-! Systems whose state has a component for every key, where an event of one key changes the
component of that key only. -/

/-- While `I` holds, `step` acts on the component of the event's key by `act`, which sees nothing
else, and leaves the other components as they are. -/
structure Independent {σ ε κ τ : Type} (I : σ → Prop) (step : σ → ε → σ) (key : ε → κ)
    (component : κ → σ → τ) (act : τ → ε → τ) : Prop where
  kept : ∀ s e, I s → I (step s e)
  own : ∀ s e, I s → component (key e) (step s e) = act (component (key e) s) e
  other : ∀ s e k, I s → k ≠ key e → component k (step s e) = component k s

namespace Independent

variable {σ ε κ τ : Type} [DecidableEq κ] {I : σ → Prop} {step : σ → ε → σ} {key : ε → κ}
  {component : κ → σ → τ} {act : τ → ε → τ} {s s' : σ}

/-- A component after many events is what the events of its key make of it. -/
theorem foldl (h : Independent I step key component act) (hs : I s) (es : List ε) (k : κ) :
    component k (es.foldl step s) =
      (es.filter fun e => key e = k).foldl act (component k s) := by
  induction es generalizing s with
  | nil => rfl
  | cons e es ih =>
    rw [List.foldl_cons, ih (h.kept s e hs)]
    by_cases hk : key e = k
    · rw [List.filter_cons_of_pos (by simpa using hk), List.foldl_cons, ← hk, h.own s e hs]
    · rw [List.filter_cons_of_neg (by simpa using hk), h.other s e k hs (Ne.symm hk)]

/-- Two orders of events that agree on the events of a key lead to the same component. -/
theorem foldl_congr (h : Independent I step key component act) (hs : I s) {es es' : List ε} {k : κ}
    (hes : es.filter (fun e => key e = k) = es'.filter fun e => key e = k) :
    component k (es.foldl step s) = component k (es'.foldl step s) := by
  rw [h.foldl hs, h.foldl hs, hes]

end Independent
