import Mathlib.Data.List.Basic

/-! Programs that read single bytes of a memory, with the value they compute and
the offsets they touch. Nothing here depends on what the bytes mean. -/

/-- A program that computes an `α`; each offset it reads may depend on the bytes read before. -/
inductive ByteReader (α : Type) where
  | done (a : α)
  | read (off : ℕ) (k : UInt8 → ByteReader α)

namespace ByteReader

variable {α β : Type}

protected def bind : ByteReader α → (α → ByteReader β) → ByteReader β
  | done a, f => f a
  | read off k, f => read off fun b => (k b).bind f

instance : Monad ByteReader where
  pure := done
  bind := ByteReader.bind

/-- The byte at `off`. -/
def byte (off : ℕ) : ByteReader UInt8 := read off done

/-- The value computed on a memory. -/
def eval (m : ℕ → UInt8) : ByteReader α → α
  | done a => a
  | read off k => eval m (k (m off))

/-- The offsets read on a memory, in order. -/
def reads (m : ℕ → UInt8) : ByteReader α → List ℕ
  | done _ => []
  | read off k => off :: reads m (k (m off))

@[simp] theorem eval_pure (m : ℕ → UInt8) (a : α) : (pure a : ByteReader α).eval m = a := by
  simp only [pure, eval]

@[simp] theorem reads_pure (m : ℕ → UInt8) (a : α) : (pure a : ByteReader α).reads m = [] := by
  simp only [pure, reads]

@[simp] theorem eval_byte (m : ℕ → UInt8) (off : ℕ) : (byte off).eval m = m off := by
  simp only [byte, eval]

@[simp] theorem reads_byte (m : ℕ → UInt8) (off : ℕ) : (byte off).reads m = [off] := by
  simp only [byte, reads]

@[simp] theorem eval_bind (m : ℕ → UInt8) (p : ByteReader α) (f : α → ByteReader β) :
    (p >>= f).eval m = (f (p.eval m)).eval m := by
  change (p.bind f).eval m = _
  induction p with
  | done a => rfl
  | read off k ih => exact ih (m off)

@[simp] theorem reads_bind (m : ℕ → UInt8) (p : ByteReader α) (f : α → ByteReader β) :
    (p >>= f).reads m = p.reads m ++ (f (p.eval m)).reads m := by
  change (p.bind f).reads m = _
  induction p with
  | done a => rfl
  | read off k ih =>
    change off :: ((k (m off)).bind f).reads m = off :: ((k (m off)).reads m ++ _)
    rw [ih (m off)]
    rfl

@[simp] theorem eval_ite (m : ℕ → UInt8) (c : Prop) [Decidable c] (p q : ByteReader α) :
    (if c then p else q).eval m = if c then p.eval m else q.eval m := by
  split <;> rfl

/-- Every offset read satisfies `P`. -/
def ReadsIn (P : ℕ → Prop) (m : ℕ → UInt8) (p : ByteReader α) : Prop := ∀ i ∈ p.reads m, P i

variable {P : ℕ → Prop} {m : ℕ → UInt8}

instance [DecidablePred P] (p : ByteReader α) : Decidable (p.ReadsIn P m) :=
  inferInstanceAs (Decidable (∀ i ∈ p.reads m, P i))

@[simp] theorem readsIn_pure (a : α) : (pure a : ByteReader α).ReadsIn P m := by
  simp [ReadsIn]

@[simp] theorem readsIn_byte (off : ℕ) : (byte off).ReadsIn P m ↔ P off := by
  simp [ReadsIn]

@[simp] theorem readsIn_bind (p : ByteReader α) (f : α → ByteReader β) :
    (p >>= f).ReadsIn P m ↔ p.ReadsIn P m ∧ (f (p.eval m)).ReadsIn P m := by
  simp only [ReadsIn, reads_bind, List.mem_append]
  exact ⟨fun h => ⟨fun i hi => h i (.inl hi), fun i hi => h i (.inr hi)⟩,
    fun h i hi => hi.elim (h.1 i) (h.2 i)⟩

@[simp] theorem readsIn_ite (c : Prop) [Decidable c] (p q : ByteReader α) :
    (if c then p else q).ReadsIn P m ↔ if c then p.ReadsIn P m else q.ReadsIn P m := by
  split <;> rfl

end ByteReader
