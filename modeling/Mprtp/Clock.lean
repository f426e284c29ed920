import Mathlib.Order.Monotone.Basic
import Mprtp.Basic

/-! `rtp_time::now`: the monotonic clock, moved to the time of the system at the first reading. -/
namespace Mprtp

/-- What `clock_gettime` returns in each call of `now`: the time of the system, which may be set at any time, and
the monotonic clock. -/
structure SystemClocks where
  realtime : ℕ → ℚ
  monotonic : ℕ → ℚ

namespace SystemClocks

/-- `now`, with its static variable, which is there once it is initialised. -/
def now (c : SystemClocks) (n : ℕ) (startOffset : Option ℚ) : RtpTime × ℚ :=
  match startOffset with
  | none => (c.realtime n, c.realtime n - c.monotonic n)
  | some offset => (c.monotonic n + offset, offset)

/-- The static variable before a call. -/
def startOffset (c : SystemClocks) : ℕ → Option ℚ
  | 0 => none
  | n + 1 => some (c.now n (c.startOffset n)).2

/-- The readings of `now`, call by call. -/
def readings (c : SystemClocks) (n : ℕ) : RtpTime := (c.now n (c.startOffset n)).1

theorem startOffset_succ (c : SystemClocks) (n : ℕ) :
    c.startOffset (n + 1) = some (c.realtime 0 - c.monotonic 0) := by
  induction n with
  | zero => rfl
  | succ n ih =>
    have hkept : c.startOffset (n + 2) = some (c.now (n + 1) (c.startOffset (n + 1))).2 := rfl
    rw [hkept, ih]
    rfl

theorem readings_eq (c : SystemClocks) (n : ℕ) : c.readings n = c.monotonic n + (c.realtime 0 - c.monotonic 0) := by
  unfold readings
  cases n with
  | zero => exact (add_sub_cancel _ _).symm
  | succ n =>
    rw [startOffset_succ]
    rfl

/-- The world that reads these clocks. -/
def world (c : SystemClocks) (rand : ℕ → ℕ) (nanByte : UInt8) : World := ⟨c.readings, rand, nanByte⟩

/-- Its clock goes up whatever happens to the time of the system, and starts at that time. -/
theorem world_clock {c : SystemClocks} (h : StrictMono c.monotonic) (rand : ℕ → ℕ) (nanByte : UInt8) :
    StrictMono (c.world rand nanByte).clock ∧ (c.world rand nanByte).now = c.realtime 0 := by
  constructor
  · intro m n hmn
    change c.readings m < c.readings n
    rw [readings_eq, readings_eq]
    exact add_lt_add_left (h hmn) _
  · exact (c.readings_eq 0).trans (add_sub_cancel _ _)

end SystemClocks

end Mprtp
