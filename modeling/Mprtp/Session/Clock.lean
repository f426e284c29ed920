import Mathlib.Order.Monotone.Basic
import Mathlib.Tactic.Linarith
import Mprtp.Session.Rules

/-! A clock that only goes forward, and the times at which datagrams are received. -/
namespace Mprtp

/-- The clock readings still to come increase strictly, from `U` on. -/
structure World.From (U : RtpTime) (w : World) : Prop where
  strict : StrictMono w.clock
  le_now : U ≤ w.now

namespace World

variable {U U' : RtpTime} {w : World}

theorem From.refl (h : w.From U) : w.From w.now := ⟨h.strict, le_refl _⟩

theorem From.now_lt_tick (h : w.From U) : w.now < w.tick.now := h.strict (Nat.zero_lt_one)

theorem From.tick (h : w.From U) : w.tick.From U where
  strict := fun _ _ hlt => h.strict (Nat.succ_lt_succ hlt)
  le_now := h.le_now.trans h.now_lt_tick.le

theorem From.drawn (h : w.From U) : w.drawn.From U := ⟨h.strict, h.le_now⟩

end World

theorem World.ticking_strictMono (start : RtpTime) : StrictMono (World.ticking start).clock := by
  intro a b hab
  have hlt : (a : ℚ) < b := by exact_mod_cast hab
  change start + a < start + b
  linarith

namespace Interface

/-- Every datagram in the queue was received from `T` on and before `U`. -/
def Timely (T U : RtpTime) (f : Interface) : Prop :=
  ∀ raw ∈ f.packets, T ≤ raw.recvtime ∧ raw.recvtime < U

variable {T U U' : RtpTime} {f : Interface} {w : World}

theorem Timely.mono (h : f.Timely T U) (hle : U ≤ U') : f.Timely T U' :=
  fun raw hraw => ⟨(h raw hraw).1, (h raw hraw).2.trans_le hle⟩

theorem receive_from (hw : w.From U) (rtcp : Bool) (f : Interface) (a : Option Arrival) :
    (receive rtcp f w a).2.From U := by
  unfold receive
  cases a with
  | none => exact hw.tick
  | some a =>
    dsimp only
    split
    · exact hw.tick
    · exact hw.tick

theorem receive_timely (hw : w.From T) (hf : f.Timely T w.now) (rtcp : Bool) (a : Option Arrival) :
    (receive rtcp f w a).1.Timely T (receive rtcp f w a).2.now := by
  have hlt := hw.now_lt_tick
  unfold receive
  cases a with
  | none => exact hf.mono hlt.le
  | some a =>
    dsimp only
    split
    · exact hf.mono hlt.le
    · intro raw hraw
      rcases List.mem_append.mp hraw with hraw | hraw
      · exact hf.mono hlt.le raw hraw
      · rw [List.mem_singleton.mp hraw]
        exact ⟨hw.le_now, hlt⟩

theorem poll_from (hw : w.From U) (rtcp : Bool) (io : PollOutcome) (f : Interface) :
    (f.poll rtcp io w).2.1.From U := by
  unfold poll
  dsimp only
  induction io.recvd generalizing f w with
  | nil => exact hw
  | cons a as ih => exact ih (receive_from hw rtcp f a) _

theorem poll_timely (hw : w.From T) (hf : f.Timely T w.now) (rtcp : Bool) (io : PollOutcome) :
    (f.poll rtcp io w).1.Timely T (f.poll rtcp io w).2.1.now := by
  unfold poll
  dsimp only
  induction io.recvd generalizing f w with
  | nil => exact hf
  | cons a as ih => exact ih (receive_from hw rtcp f a) (receive_timely hw hf rtcp a)

end Interface

namespace Session

variable {T U : RtpTime} {fs : List Interface} {w : World}

theorem pollInterfaces_from (hw : w.From U) (io : PollInput) (i : ℕ) (fs : List Interface) :
    (pollInterfaces io i fs w).2.1.From U := by
  induction fs generalizing i w with
  | nil => exact hw
  | cons f fs ih =>
    have h₁ := Interface.poll_from hw false (io i false) f
    unfold pollInterfaces
    generalize f.poll false (io i false) w = r at h₁ ⊢
    obtain ⟨f, w, status⟩ := r
    dsimp only at h₁ ⊢
    split
    · exact h₁
    · have h₂ := Interface.poll_from h₁ true (io i true) f
      generalize f.poll true (io i true) w = r at h₂ ⊢
      obtain ⟨f, w, status⟩ := r
      dsimp only at h₂ ⊢
      split
      · exact h₂
      · exact ih h₂ (i + 1)

theorem pollInterfaces_timely (hw : w.From T) (hf : ∀ f ∈ fs, f.Timely T w.now) (io : PollInput)
    (i : ℕ) : ∀ f ∈ (pollInterfaces io i fs w).1, f.Timely T (pollInterfaces io i fs w).2.1.now := by
  induction fs generalizing i w with
  | nil =>
    intro f hmem
    cases hmem
  | cons f fs ih =>
    have hw₁ := Interface.poll_from hw false (io i false) f
    have hn₁ := (Interface.poll_from hw.refl false (io i false) f).le_now
    have hf₁ := Interface.poll_timely hw (hf f (by simp)) false (io i false)
    have hrest : ∀ f ∈ fs, f.Timely T w.now := fun f hmem => hf f (by simp [hmem])
    unfold pollInterfaces
    generalize f.poll false (io i false) w = r at hw₁ hn₁ hf₁ ⊢
    obtain ⟨f, w₁, status⟩ := r
    dsimp only at hw₁ hn₁ hf₁ ⊢
    split
    · intro f' hmem
      rcases List.mem_cons.mp hmem with rfl | hmem
      · exact hf₁
      · exact (hrest f' hmem).mono hn₁
    · have hw₂ := Interface.poll_from hw₁ true (io i true) f
      have hn₂ := (Interface.poll_from hw₁.refl true (io i true) f).le_now
      have hf₂ := Interface.poll_timely hw₁ hf₁ true (io i true)
      generalize f.poll true (io i true) w₁ = r at hw₂ hn₂ hf₂ ⊢
      obtain ⟨f, w₂, status⟩ := r
      dsimp only at hw₂ hn₂ hf₂ ⊢
      have hrest₂ : ∀ f ∈ fs, f.Timely T w₂.now :=
        fun f' hmem => (hrest f' hmem).mono (hn₁.trans hn₂)
      split
      · intro f' hmem
        rcases List.mem_cons.mp hmem with rfl | hmem
        · exact hf₂
        · exact hrest₂ f' hmem
      · have hn₃ := (pollInterfaces_from hw₂.refl io (i + 1) fs).le_now
        intro f' hmem
        rcases List.mem_cons.mp hmem with rfl | hmem
        · exact hf₂.mono hn₃
        · exact ih hw₂ hrest₂ (i + 1) f' hmem

end Session

end Mprtp
