import Mathlib.Algebra.Order.Round
import Mathlib.Data.Int.ModEq
import Mathlib.Data.List.Chain
import Mathlib.Tactic.Abel
import Mathlib.Tactic.Ring

/-! A clock read in whole units, each time by rounding the time since the last reading. -/

section

variable {α : Type*} [LE α] {t t' : α} {ts : List α}

/-- No time lies before the one in front of it. -/
def InOrder (t : α) (ts : List α) : Prop := (t :: ts).IsChain (· ≤ ·)

theorem InOrder.concat (h : InOrder t (ts ++ [t'])) : InOrder t ts ∧ ts.getLastD t ≤ t' := by
  induction ts generalizing t with
  | nil => exact ⟨List.isChain_singleton t, List.isChain_pair.mp h⟩
  | cons t₁ ts ih =>
    obtain ⟨hle, htail⟩ := List.isChain_cons_cons.mp h
    obtain ⟨hord, hlast⟩ := ih htail
    refine ⟨List.isChain_cons_cons.mpr ⟨hle, hord⟩, ?_⟩
    rw [List.getLastD_cons]
    exact hlast

end

variable {K : Type*} [Field K]

/-- The spacings of the times `ts` behind `t`, in units of `u`. -/
def spacings (u : K) : K → List K → List K
  | _, [] => []
  | t, t' :: ts => (t' - t) / u :: spacings u t' ts

variable {u t t' : K} {ts ds : List K}

theorem spacings_concat : spacings u t (ts ++ [t']) = spacings u t ts ++ [(t' - ts.getLastD t) / u] := by
  induction ts generalizing t with
  | nil => rfl
  | cons t₁ ts ih =>
    change _ :: spacings u t₁ (ts ++ [t']) = _
    rw [ih, List.getLastD_cons]
    rfl

/-- The spacings add up to the time from the first to the last. -/
theorem sum_spacings : (spacings u t ts).sum = (ts.getLastD t - t) / u := by
  induction ts generalizing t with
  | nil =>
    change 0 = (t - t) / u
    rw [sub_self, zero_div]
  | cons t₁ ts ih =>
    change (_ :: spacings u t₁ ts).sum = _
    rw [List.sum_cons, ih, List.getLastD_cons, ← add_div]
    congr 1
    abel

variable [LinearOrder K] [FloorRing K]

/-- The count of a clock that rounds each spacing. -/
def ticks (ds : List K) : ℤ := (ds.map round).sum

/-- What the roundings add in all. -/
def drift (ds : List K) : K := (ds.map fun d => (round d : K) - d).sum

theorem ticks_concat (d : K) : ticks (ds ++ [d]) = ticks ds + round d := by
  unfold ticks
  rw [List.map_append, List.sum_append, List.map_singleton, List.sum_singleton]

theorem ticks_eq : (ticks ds : K) = ds.sum + drift ds := by
  induction ds with
  | nil =>
    change ((0 : ℤ) : K) = 0 + 0
    rw [Int.cast_zero, add_zero]
  | cons d ds ih =>
    have hticks : ticks (d :: ds) = round d + ticks ds := rfl
    have hdrift : drift (d :: ds) = (round d - d) + drift ds := rfl
    rw [hticks, hdrift, Int.cast_add, ih, List.sum_cons]
    abel

/-- Modulo `m`, the count is off by the drift. -/
theorem near_iff_drift {T T₀ m : ℤ} (e : K) (hT : T ≡ T₀ + ticks ds [ZMOD m]) :
    (∃ k : ℤ, |(T : K) + m * k - (T₀ + ds.sum)| ≤ e) ↔ ∃ k : ℤ, |drift ds + m * k| ≤ e := by
  obtain ⟨q, hq⟩ := hT.symm.dvd
  have hT' : (T : K) = T₀ + (ds.sum + drift ds) + m * q := by
    rw [← ticks_eq, ← Int.cast_add, ← Int.cast_mul, ← Int.cast_add, ← hq]
    congr 1
    abel
  have hoff (k : ℤ) : (T : K) + m * k - (T₀ + ds.sum) = drift ds + m * (q + k : ℤ) := by
    rw [hT', Int.cast_add]
    ring
  simp only [hoff]
  constructor
  · intro h
    obtain ⟨k, hk⟩ := h
    exact ⟨q + k, hk⟩
  · intro h
    obtain ⟨k, hk⟩ := h
    exact ⟨k - q, by rwa [add_sub_cancel]⟩
