import Mprtp.Stat.Numbers
import Mprtp.Lib.Serial
import Mathlib.Order.PartialSups
import Mathlib.Data.Nat.SuccPred
import Mathlib.Order.Lattice.Nat

/-! The extended sequence numbers of `process_packet`: serial numbers modulo 2^16, held
modulo 2^32. -/
namespace Mprtp

namespace SourceStats

/-- The statistics hold `high`, modulo 2^32, as the highest number, and its cycles. -/
def Holds (st : SourceStats) (high : ℕ) : Prop :=
  st.exthighseqnr = UInt32.ofNat high ∧ st.numCycles = UInt32.ofNat (high - high % 65536)

theorem Holds.maxseq16_toNat {st : SourceStats} {high : ℕ} (h : st.Holds high) :
    st.maxseq16.toNat = high % 65536 := by
  rw [maxseq16, h.1]
  simp only [UInt32.toNat_toUInt16, UInt32.toNat_ofNat']
  omega

theorem Holds.not_below_iff {st : SourceStats} {high q : ℕ} (h : st.Holds high) (hq : q < 65536) :
    UInt32.ofNat q ≥ st.maxseq16.toUInt32 ↔ high % 65536 ≤ q := by
  rw [ge_iff_le, UInt32.le_iff_toNat_le, UInt16.toNat_toUInt32, h.maxseq16_toNat,
    UInt32.toNat_ofNat']
  omega

theorem Holds.wrapped_iff {st : SourceStats} {high q : ℕ} (h : st.Holds high) (hq : q < 65536)
    (hlt : q < high % 65536) : wrapped st.maxseq16 (UInt32.ofNat q).toUInt16 ↔
      q + 65536 - high % 65536 < high % 65536 - q := by
  have hq' : (UInt32.ofNat q).toUInt16.toNat = q := by
    rw [UInt32.toNat_toUInt16, UInt32.toNat_ofNat']
    omega
  rw [wrapped, UInt16.lt_iff_toNat_lt, UInt16.toNat_sub, UInt16.toNat_sub, h.maxseq16_toNat, hq']
  omega

/-- The second branch of `process_packet` extends a serial number. -/
theorem Holds.extendSequence {st : SourceStats} {high q : ℕ} (h : st.Holds high)
    (hq : q < 65536) :
    let ext := st.extendSequence (UInt32.ofNat q)
    let ser := Serial.next 65536 high q
    ext.exthighseqnr = UInt32.ofNat ser.2 ∧ ext.numCycles = UInt32.ofNat (ser.2 - ser.2 % 65536) ∧
      ext.extseqnr = UInt32.ofNat ser.1 := by
  unfold SourceStats.extendSequence Serial.next
  by_cases h₁ : high % 65536 ≤ q
  · rw [if_pos ((h.not_below_iff hq).mpr h₁)]
    simp only [if_pos h₁, h.2]
    refine ⟨?_, ?_, ?_⟩ <;> rw [← UInt32.toNat_inj] <;>
      simp only [UInt32.toNat_add, UInt32.toNat_ofNat'] <;> omega
  · rw [if_neg (mt (h.not_below_iff hq).mp h₁)]
    have hw := h.wrapped_iff hq (not_le.mp h₁)
    by_cases h₂ : q + 65536 - high % 65536 < high % 65536 - q
    · rw [if_pos (hw.mpr h₂)]
      simp only [if_neg h₁, if_pos h₂, h.2]
      refine ⟨?_, ?_, ?_⟩ <;> rw [← UInt32.toNat_inj] <;>
        simp only [UInt32.toNat_add, UInt32.toNat_ofNat', UInt32.reduceToNat] <;> omega
    · rw [if_neg (mt hw.mp h₂)]
      simp only [if_neg h₁, if_neg h₂]
      refine ⟨h.1, h.2, ?_⟩
      rw [h.2, ← UInt32.toNat_inj]
      simp only [UInt32.toNat_add, UInt32.toNat_ofNat']
      omega

variable (pack : RtpPacket) (subflow : Bool) (tsunit : ℚ)

/-- The extended number that `process_packet` computes for a packet. -/
def extseqnrOf (st : SourceStats) : UInt32 :=
  if st.receivedData then (st.extendSequence (packSequenceNumber pack subflow)).extseqnr
  else (st.firstPacket (packSequenceNumber pack subflow) pack.timestamp pack.recvtime).exthighseqnr

/-- It is set on the packet: as the number of the subflow only behind the first packet of a subflow. -/
theorem processPacket_extseqnrOf (st : SourceStats) : (st.processPacket pack subflow tsunit).2 =
    if subflow = true ∧ st.receivedData = true then
      { pack with subflowExtseqnr := st.extseqnrOf pack subflow }
    else { pack with extseqnr := st.extseqnrOf pack subflow } := by
  unfold processPacket extseqnrOf
  cases st.receivedData
  · simp
  · cases subflow <;> simp

/-- The highest number after a first packet with the residue `q`. -/
def firstHigh (q : ℕ) : ℕ := if q = 0 then 65536 else q

/-- The first packet starts the numbering at its own number, or one cycle up for number 0. -/
theorem processPacket_holds_first {st : SourceStats} {q : ℕ} (hq : q < 65536)
    (hst : st.receivedData = false) (hc : st.numCycles = 0)
    (hp : packSequenceNumber pack subflow = UInt32.ofNat q) :
    (st.processPacket pack subflow tsunit).1.Holds (firstHigh q) ∧
      st.extseqnrOf pack subflow = UInt32.ofNat (firstHigh q) := by
  have hz : UInt32.ofNat q = 0 ↔ q = 0 := by
    rw [← UInt32.toNat_inj]
    simp only [UInt32.toNat_ofNat', UInt32.reduceToNat]
    omega
  simp only [processPacket, extseqnrOf, hst, Bool.not_false, if_true, Bool.false_eq_true, if_false,
    firstPacket, hp, Holds, firstHigh, hz, hc]
  by_cases h : q = 0
  · simp [h]
  · simp only [h, if_false]
    refine ⟨⟨?_, ?_⟩, ?_⟩ <;> rw [← UInt32.toNat_inj] <;>
      simp only [UInt32.toNat_add, UInt32.toNat_sub, UInt32.toNat_ofNat', UInt32.reduceToNat] <;>
      omega

/-- A later packet extends the numbering. -/
theorem processPacket_holds_next {st : SourceStats} {high q : ℕ} (hq : q < 65536)
    (hst : st.receivedData = true) (h : st.Holds high)
    (hp : packSequenceNumber pack subflow = UInt32.ofNat q) :
    (st.processPacket pack subflow tsunit).1.Holds (Serial.next 65536 high q).2 ∧
      st.extseqnrOf pack subflow = UInt32.ofNat (Serial.next 65536 high q).1 := by
  obtain ⟨hh, hc, he⟩ := h.extendSequence hq
  simp only [processPacket, extseqnrOf, hst, hp, Holds, Bool.not_true, Bool.false_eq_true, if_false,
    if_true]
  exact ⟨⟨hh, hc⟩, he⟩

/-- Numbers that agree modulo 2^32 are held together. -/
theorem Holds.congr {st : SourceStats} {high high' : ℕ} (h : st.Holds high)
    (he : high % 2 ^ 32 = high' % 2 ^ 32) : st.Holds high' := by
  refine ⟨h.1.trans ?_, h.2.trans ?_⟩ <;> rw [← UInt32.toNat_inj] <;>
    simp only [UInt32.toNat_ofNat'] <;> omega

/-- The statistics after the first `i` packets of a sequence. -/
def after (packs : ℕ → RtpPacket) : ℕ → SourceStats
  | 0 => {}
  | i + 1 => ((after packs i).processPacket (packs i) subflow tsunit).1

/-- The wire carries the low 16 bits of the true numbers `s`. -/
def Carries (packs : ℕ → RtpPacket) (s : ℕ → ℕ) (n : ℕ) : Prop :=
  ∀ i < n, packSequenceNumber (packs i) subflow = UInt32.ofNat (s i % 65536)

/-- Every number is closer than 2^15 to the largest before it. -/
def Near (s : ℕ → ℕ) (n : ℕ) : Prop :=
  ∀ i, i + 1 < n → s (i + 1) - partialSups s i < 2 ^ 15 ∧ partialSups s i - s (i + 1) < 2 ^ 15

/-- No number below the largest before it is of an earlier cycle. -/
def NoLateWrap (s : ℕ → ℕ) (n : ℕ) : Prop :=
  ∀ i, i + 1 < n → s (i + 1) < partialSups s i → s (i + 1) / 65536 = partialSups s i / 65536

/-- Up to one multiple of 2^16, the numbers computed are the true ones and the highest number
is the largest of them. -/
def Tracks (packs : ℕ → RtpPacket) (s : ℕ → ℕ) (n : ℕ) : Prop :=
  ∃ k : UInt32, k % 65536 = 0 ∧ ∀ i < n,
    (after subflow tsunit packs i).extseqnrOf (packs i) subflow = UInt32.ofNat (s i) + k ∧
      (after subflow tsunit packs (i + 1)).exthighseqnr = UInt32.ofNat (partialSups s i) + k

variable {packs : ℕ → RtpPacket} {s : ℕ → ℕ} {n : ℕ} {subflow : Bool}

theorem after_receivedData (tsunit : ℚ) (i : ℕ) : (after subflow tsunit packs (i + 1)).receivedData = true := by
  simp [after]

/-- The shift between the true numbers and the extended ones, chosen at the first packet. -/
theorem exists_shift (s₀ : ℕ) : ∃ k : ℕ, k % 65536 = 0 ∧
    firstHigh (s₀ % 65536) % 2 ^ 32 = (s₀ + k) % 2 ^ 32 := by
  refine ⟨firstHigh (s₀ % 65536) - s₀ % 65536 + (2 ^ 32 * s₀ - (s₀ - s₀ % 65536)), ?_, ?_⟩
  all_goals
    unfold firstHigh
    split <;> omega

theorem after_one (tsunit : ℚ) (hn : 0 < n) (hc : Carries subflow packs s n) {k : ℕ}
    (hk : firstHigh (s 0 % 65536) % 2 ^ 32 = (s 0 + k) % 2 ^ 32) :
    (after subflow tsunit packs 1).Holds (partialSups s 0 + k) ∧
      (after subflow tsunit packs 0).extseqnrOf (packs 0) subflow = UInt32.ofNat (s 0 + k) := by
  have hq : s 0 % 65536 < 65536 := Nat.mod_lt _ (by decide)
  obtain ⟨hh, he⟩ : (after subflow tsunit packs 1).Holds (firstHigh (s 0 % 65536)) ∧ _ :=
    processPacket_holds_first (packs 0) subflow tsunit hq rfl rfl (hc 0 hn)
  refine ⟨hh.congr (by simpa using hk), he.trans ?_⟩
  rw [← UInt32.toNat_inj]
  simpa only [UInt32.toNat_ofNat'] using hk

/-- One packet more: the extension follows the true numbers, or it jumps a cycle for a late
packet from before a wrap. -/
theorem after_succ (tsunit : ℚ) {i k : ℕ} (hi : i + 1 < n) (hc : Carries subflow packs s n) (hn : Near s n)
    (hk : k % 65536 = 0) (h : (after subflow tsunit packs (i + 1)).Holds (partialSups s i + k)) :
    if s (i + 1) < partialSups s i → s (i + 1) / 65536 = partialSups s i / 65536 then
      (after subflow tsunit packs (i + 2)).Holds (partialSups s (i + 1) + k) ∧
        (after subflow tsunit packs (i + 1)).extseqnrOf (packs (i + 1)) subflow =
          UInt32.ofNat (s (i + 1) + k)
    else
      (after subflow tsunit packs (i + 1)).extseqnrOf (packs (i + 1)) subflow =
        UInt32.ofNat (s (i + 1) + k + 65536) := by
  obtain ⟨h₁, h₂⟩ := hn i hi
  obtain ⟨hh, he⟩ := processPacket_holds_next (packs (i + 1)) subflow tsunit
    (Nat.mod_lt _ (by decide)) (after_receivedData tsunit i) h (hc (i + 1) hi)
  have hmod : s (i + 1) % 65536 = (s (i + 1) + k) % 65536 := by omega
  rw [hmod] at hh he
  split
  · rename_i hcyc
    rw [Serial.next_mod (by omega) (by omega) (by omega)] at hh he
    refine ⟨?_, he⟩
    have hsup : partialSups s (i + 1) = max (partialSups s i) (s (i + 1)) := partialSups_succ s i
    rwa [max_add_add_right, ← hsup] at hh
  · rename_i hcyc
    push Not at hcyc
    rw [Serial.next_mod_of_late (by omega) (by omega) (by omega)] at he
    exact he

theorem after_holds (tsunit : ℚ) (hc : Carries subflow packs s n) (hn : Near s n) (hw : NoLateWrap s n) {k : ℕ}
    (hk : k % 65536 = 0) (hk₀ : firstHigh (s 0 % 65536) % 2 ^ 32 = (s 0 + k) % 2 ^ 32) {i : ℕ}
    (hi : i < n) :
    (after subflow tsunit packs (i + 1)).Holds (partialSups s i + k) ∧
      (after subflow tsunit packs i).extseqnrOf (packs i) subflow = UInt32.ofNat (s i + k) := by
  induction i with
  | zero => exact after_one tsunit hi hc hk₀
  | succ i ih =>
    have hstep := after_succ tsunit hi hc hn hk (ih (by omega)).1
    rwa [if_pos (hw i hi)] at hstep

/-- The reconstruction is right, packet by packet, exactly for the sequences in which no packet
arrives late from before a wrap of the 16-bit number. -/
theorem tracks_iff_noLateWrap (tsunit : ℚ) (hc : Carries subflow packs s n) (hn : Near s n) :
    Tracks subflow tsunit packs s n ↔ NoLateWrap s n := by
  obtain ⟨k, hk, hk₀⟩ := exists_shift (s 0)
  constructor
  · intro h i
    obtain ⟨k', -, htr⟩ := h
    induction i using Nat.strong_induction_on with
    | _ i ih =>
      intro hi
      have hk' : k' = UInt32.ofNat k := by
        have h₀ := (after_one tsunit (by omega) hc hk₀).2
        rwa [(htr 0 (by omega)).1, UInt32.ofNat_add, UInt32.add_right_inj] at h₀
      -- up to packet `i` nothing was late, so a late packet now would be numbered a cycle up
      have hh := (after_holds tsunit (n := i + 1) (fun j hj => hc j (by omega))
        (fun j hj => hn j (by omega)) (fun j hj => ih j (by omega) (by omega)) hk hk₀
        (Nat.lt_succ_self i)).1
      have hstep := after_succ tsunit hi hc hn hk hh
      by_contra hlate
      rw [if_neg hlate, (htr (i + 1) hi).1, hk', ← UInt32.ofNat_add, ← UInt32.toNat_inj] at hstep
      simp only [UInt32.toNat_ofNat'] at hstep
      omega
  · intro hw
    refine ⟨UInt32.ofNat k, ?_, fun i hi => ?_⟩
    · rw [← UInt32.toNat_inj]
      simp only [UInt32.toNat_mod, UInt32.toNat_ofNat', UInt32.reduceToNat]
      omega
    · obtain ⟨hh, he⟩ := after_holds tsunit hc hn hw hk hk₀ hi
      rw [← UInt32.ofNat_add, ← UInt32.ofNat_add]
      exact ⟨he, hh.1⟩

/-- A plain RTP packet with the sequence number `seq`. -/
def plainPacket (seq : ℕ) : RtpPacket where
  rawpack := ⟨[], fun _ => 0, ⟨0x0A000001, 23000⟩, false, 1⟩
  hasextension := false
  hasmarker := false
  numcsrcs := 0
  payloadtype := 0
  extseqnr := UInt32.ofNat (seq % 65536)
  subflowExtseqnr := 0
  subflowId := 0
  timestamp := 0
  ssrc := 0xDEAD
  payload := 12
  payloadlength := 0
  extid := 0
  extension := 0
  extensionlength := 0

/-- Packets are lost around the wrap, none is late. -/
theorem tracks_of_loss_at_wrap :
    Tracks false 1 (fun i => plainPacket (65530 + 4 * i)) (fun i => 65530 + 4 * i) 3 := by
  have hmono : Monotone fun i : ℕ => 65530 + 4 * i := fun i j h => by
    dsimp only
    omega
  refine (tracks_iff_noLateWrap 1 (fun i _ => rfl) (fun i _ => ?_)).mpr fun i _ hlt => ?_
  · rw [hmono.partialSups_eq]
    dsimp only
    omega
  · rw [hmono.partialSups_eq] at hlt
    dsimp only at hlt
    omega

/-- Packet 65535 comes in after packet 65541, that is after 5 of the next cycle. -/
def lateNumbers : ℕ → ℕ
  | 0 => 65530
  | 1 => 65541
  | _ => 65535

theorem late_packet_adds_cycle :
    ¬ ∀ (subflow : Bool) (tsunit : ℚ) (packs : ℕ → RtpPacket) (s : ℕ → ℕ) (n : ℕ),
      Carries subflow packs s n → Near s n → (∀ i < n, s 0 ≤ s i) →
        Tracks subflow tsunit packs s n := by
  intro h
  have hnear : Near lateNumbers 3 := by
    intro i hi
    obtain rfl | rfl : i = 0 ∨ i = 1 := by omega
    · decide
    · decide
  obtain ⟨k, -, htr⟩ := h false 1 (fun i => plainPacket (lateNumbers i)) lateNumbers 3
    (fun i _ => rfl) hnear (by decide)
  have h₀ : 65530 = 65530 + k := (htr 0 (by decide)).1
  rw [UInt32.left_eq_add] at h₀
  have h₂ := (htr 2 (by decide)).1
  rw [h₀] at h₂
  exact absurd h₂ (by decide)

end SourceStats

end Mprtp
