import Mathlib.Tactic.Linarith

/-! Serial numbers: a counter of which only the residue modulo `W` arrives, extended to the full
number by comparison with the highest number seen. -/
namespace Serial

/-- The extended number for the residue `q` when `high` is the highest number so far, and the
highest number after it. A residue not below that of `high` is taken to be of the same cycle. -/
def next (W high q : ℕ) : ℕ × ℕ :=
  let cycles := high - high % W
  if high % W ≤ q then (cycles + q, cycles + q)
  else if q + W - high % W < high % W - q then (cycles + W + q, cycles + W + q)
  else (cycles + q, high)

variable {W s high : ℕ}

/-- The quotients of two numbers closer than the modulus differ by at most one. -/
theorem div_near (hW : 0 < W) (hs : 2 * (s - high) < W) (hh : 2 * (high - s) < W) :
    s / W = high / W ∨ s / W = high / W + 1 ∨ high / W = s / W + 1 := by
  have h₁ : s / W ≤ high / W + 1 := by
    rw [← Nat.add_div_right _ hW]
    exact Nat.div_le_div_right (by omega)
  have h₂ : high / W ≤ s / W + 1 := by
    rw [← Nat.add_div_right _ hW]
    exact Nat.div_le_div_right (by omega)
  omega

/-- A number within half the modulus of the highest one is extended rightly if it is not below
it, or below it in the same cycle. -/
theorem next_mod (hs : 2 * (s - high) < W) (hh : 2 * (high - s) < W)
    (hc : s < high → s / W = high / W) : next W high (s % W) = (s, max high s) := by
  have hW : 0 < W := by omega
  have hsd := Nat.div_add_mod s W
  have hhd := Nat.div_add_mod high W
  have hsl := Nat.mod_lt s hW
  have hhl := Nat.mod_lt high hW
  unfold next
  rcases div_near hW hs hh with hd | hd | hd
  · rw [hd] at hsd
    split_ifs with h₁ h₂ <;> simp only [Prod.mk.injEq] <;> omega
  · rw [hd, Nat.mul_add, Nat.mul_one] at hsd
    split_ifs with h₁ h₂ <;> simp only [Prod.mk.injEq] <;> omega
  · have := hc (by rw [hd, Nat.mul_add, Nat.mul_one] at hhd; omega)
    omega

/-- A number below the highest one, from the cycle before, is taken for one of the next cycle. -/
theorem next_mod_of_late (hh : 2 * (high - s) < W) (hlt : s < high) (hc : s / W ≠ high / W) :
    next W high (s % W) = (s + W, s + W) := by
  have hW : 0 < W := by omega
  have hsd := Nat.div_add_mod s W
  have hhd := Nat.div_add_mod high W
  have hsl := Nat.mod_lt s hW
  have hhl := Nat.mod_lt high hW
  have hle := Nat.div_le_div_right hlt.le (c := W)
  have hd : high / W = s / W + 1 := by
    rcases div_near hW (by omega) hh with hd | hd | hd <;> omega
  rw [hd, Nat.mul_add, Nat.mul_one] at hhd
  unfold next
  rw [if_pos (by omega), Prod.mk.injEq]
  omega

/-- The residue `q` is taken for one of the next cycle although it lies below that of `high`. -/
def Wraps (W high q : ℕ) : Prop := q < high % W ∧ q + W - high % W < high % W - q

instance (W high q : ℕ) : Decidable (Wraps W high q) := inferInstanceAs (Decidable (_ ∧ _))

/-- The number extended is of the same cycle as the highest one, or of the next. -/
theorem next_cases (W high q : ℕ) :
    (high % W ≤ q ∧ ¬ Wraps W high q ∧ next W high q = (W * (high / W) + q, W * (high / W) + q)) ∨
    (Wraps W high q ∧ next W high q = (W * (high / W + 1) + q, W * (high / W + 1) + q)) ∨
    (q < high % W ∧ ¬ Wraps W high q ∧ next W high q = (W * (high / W) + q, high)) := by
  have hsub : high - high % W = W * (high / W) :=
    Nat.sub_eq_of_eq_add (Nat.div_add_mod high W).symm
  unfold next
  rw [hsub]
  dsimp only
  rw [← Nat.mul_succ]
  by_cases hup : high % W ≤ q
  · left
    exact ⟨hup, fun h => absurd hup (Nat.not_le_of_lt h.1), if_pos hup⟩
  · right
    rw [if_neg hup]
    by_cases hahead : q + W - high % W < high % W - q
    · left
      exact ⟨⟨Nat.lt_of_not_le hup, hahead⟩, if_pos hahead⟩
    · right
      exact ⟨Nat.lt_of_not_le hup, fun h => hahead h.2, if_neg hahead⟩

section

variable {q : ℕ} (high)

theorem next_fst_mod (hq : q < W) : (next W high q).1 % W = q := by
  have hadd (c : ℕ) : (W * c + q) % W = q := by
    rw [Nat.mul_add_mod]
    exact Nat.mod_eq_of_lt hq
  rcases next_cases W high q with ⟨-, -, h⟩ | ⟨-, h⟩ | ⟨-, -, h⟩
  all_goals
    rw [h]
    exact hadd _

theorem next_fst_le (W q : ℕ) : (next W high q).1 ≤ (next W high q).2 := by
  have hdiv := Nat.div_add_mod high W
  rcases next_cases W high q with ⟨-, -, h⟩ | ⟨-, h⟩ | ⟨hlt, -, h⟩
  · rw [h]
  · rw [h]
  · rw [h]
    dsimp only
    omega

/-- The highest number does not go down, and goes up by less than a cycle. -/
theorem next_snd_near (hq : q < W) : high ≤ (next W high q).2 ∧ (next W high q).2 < high + W := by
  have hdiv := Nat.div_add_mod high W
  have hlt := Nat.mod_lt high (Nat.zero_lt_of_lt hq)
  rcases next_cases W high q with ⟨hup, -, h⟩ | ⟨⟨hlow, -⟩, h⟩ | ⟨-, -, h⟩
  · rw [h]
    dsimp only
    omega
  · rw [h, Nat.mul_succ]
    dsimp only
    omega
  · rw [h]
    exact ⟨le_rfl, Nat.lt_add_of_pos_right (Nat.zero_lt_of_lt hq)⟩

theorem next_snd_div (hq : q < W) :
    (next W high q).2 / W = high / W + if Wraps W high q then 1 else 0 := by
  have hadd (c : ℕ) : (W * c + q) / W = c := by
    rw [Nat.mul_add_div (Nat.zero_lt_of_lt hq), Nat.div_eq_of_lt hq, Nat.add_zero]
  rcases next_cases W high q with ⟨-, hw, h⟩ | ⟨hw, h⟩ | ⟨-, hw, h⟩
  · rw [h, if_neg hw]
    exact hadd _
  · rw [h, if_pos hw]
    exact hadd _
  · rw [h, if_neg hw]
    rfl

end

/-- `s` is one of the last `n` numbers before `count`. -/
def Recent (count n s : ℕ) : Prop := s < count ∧ count ≤ s + n

theorem Recent.succ {count n : ℕ} (h : Recent count n s) : Recent (count + 1) (n + 1) s := by
  unfold Recent at *
  omega

theorem Recent.sub_lt {count n s' : ℕ} (h : Recent count n s) (h' : Recent count n s') :
    s' - s < n := by
  unfold Recent at *
  omega

end Serial
