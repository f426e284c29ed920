import Mprtp.Lib.Smoothing
import Mprtp.Lib.Wrap
import Mprtp.Stat.Sequence

/-! The jitter estimate of `process_packet`: its bounds, and what the place of the timestamps in their
32-bit range does to it. -/
namespace Mprtp

/-- The same packet with `c` added to its timestamp. -/
def RtpPacket.shifted (c : UInt32) (pack : RtpPacket) : RtpPacket :=
  { pack with timestamp := pack.timestamp + c }

namespace SourceStats

/-- The time between the arrivals of two packets, in timestamp units. -/
def spacing (tsunit : ℚ) (prev pack : RtpPacket) : ℚ := (pack.recvtime - prev.recvtime) / tsunit

/-- What the jitter estimate follows. -/
def deviation (tsunit : ℚ) (prev pack : RtpPacket) : ℚ :=
  |spacing tsunit prev pack - timestampDiff pack.timestamp prev.timestamp|

/-- The last packet was `pack`. -/
structure Seen (st : SourceStats) (pack : RtpPacket) : Prop where
  receivedData : st.receivedData = true
  prevPacktime : st.prevPacktime = pack.recvtime
  prevTimestamp : st.prevTimestamp = pack.timestamp

section

variable {st : SourceStats} {subflow : Bool} {tsunit : ℚ} {prev pack : RtpPacket}

theorem processPacket_seen : (st.processPacket pack subflow tsunit).1.Seen pack := by
  unfold processPacket
  split
  · exact ⟨rfl, rfl, rfl⟩
  · rename_i h
    exact ⟨by simpa using h, rfl, rfl⟩

theorem Seen.nextJitter (h : st.Seen prev) (htsunit : 0 < tsunit) :
    (st.nextJitter pack.timestamp pack.recvtime tsunit).1 =
      smooth (1 / 16) st.djitter (deviation tsunit prev pack) := by
  have habs (x : ℚ) : (if x < 0 then -x else x) = |x| := by
    split
    · exact (abs_of_neg ‹_›).symm
    · exact (abs_of_nonneg (not_lt.mp ‹_›)).symm
  unfold SourceStats.nextJitter smooth deviation spacing
  rw [if_pos htsunit, h.prevPacktime, h.prevTimestamp]
  dsimp only
  rw [habs, div_eq_mul_one_div (_ - st.djitter)]

theorem Seen.processPacket (h : st.Seen prev) (htsunit : 0 < tsunit) :
    (st.processPacket pack subflow tsunit).1.djitter =
      smooth (1 / 16) st.djitter (deviation tsunit prev pack) := by
  unfold SourceStats.processPacket
  rw [h.receivedData]
  exact h.nextJitter htsunit

/-- The jitter of the reports is that of the estimate, cut to 32 bits. -/
theorem processPacket_jitter (htsunit : 0 < tsunit) (h : st.jitter = truncU32 st.djitter) :
    (st.processPacket pack subflow tsunit).1.jitter =
      truncU32 (st.processPacket pack subflow tsunit).1.djitter := by
  unfold SourceStats.processPacket
  split
  · exact h
  · dsimp only
    unfold SourceStats.nextJitter
    rw [if_pos htsunit]

end

section

variable {subflow : Bool} {tsunit : ℚ} {packs packs' : ℕ → RtpPacket} {n : ℕ}

/-- The estimate after a packet behind the first one. -/
theorem after_djitter (htsunit : 0 < tsunit) (i : ℕ) :
    (after subflow tsunit packs (i + 2)).djitter =
      smooth (1 / 16) (after subflow tsunit packs (i + 1)).djitter
        (deviation tsunit (packs i) (packs (i + 1))) := by
  have hseen : (after subflow tsunit packs (i + 1)).Seen (packs i) := processPacket_seen
  exact hseen.processPacket htsunit

theorem after_jitter (htsunit : 0 < tsunit) (i : ℕ) :
    (after subflow tsunit packs i).jitter = truncU32 (after subflow tsunit packs i).djitter := by
  induction i with
  | zero => rfl
  | succ i ih => exact processPacket_jitter htsunit ih

/-- Two sequences have the same estimates as long as their packets deviate alike. -/
theorem djitter_eq_iff (htsunit : 0 < tsunit) :
    (∀ i ≤ n, (after subflow tsunit packs i).djitter = (after subflow tsunit packs' i).djitter) ↔
      ∀ i, i + 1 < n → deviation tsunit (packs i) (packs (i + 1)) =
        deviation tsunit (packs' i) (packs' (i + 1)) := by
  constructor
  · intro h i hi
    have hnow := h (i + 2) hi
    rw [after_djitter htsunit, after_djitter htsunit, h (i + 1) (Nat.le_of_lt hi)] at hnow
    exact (smooth_right_inj (by norm_num)).mp hnow
  · intro h i
    induction i with
    | zero => exact fun _ => rfl
    | succ i ih =>
      intro hi
      cases i with
      | zero => rfl
      | succ i =>
        rw [after_djitter htsunit, after_djitter htsunit, ih (Nat.le_of_succ_le hi), h i hi]

/-- The deviations of the packets behind the first one. -/
def deviations (tsunit : ℚ) (packs : ℕ → RtpPacket) (i : ℕ) : ℚ :=
  deviation tsunit (packs i) (packs (i + 1))

/-- The conversion of a value that 32 bits can hold. -/
theorem truncU32_toNat {x : ℚ} (hx : 0 ≤ x) (hlt : x < 2 ^ 32) :
    0 ≤ ⌊x⌋ ∧ ⌊x⌋ < 2 ^ 32 ∧ ((truncU32 x).toNat : ℤ) = ⌊x⌋ := by
  have hpos : 0 ≤ ⌊x⌋ := Int.floor_nonneg.mpr hx
  have hfits : ⌊x⌋ < 2 ^ 32 := Int.floor_lt.mpr (by exact_mod_cast hlt)
  refine ⟨hpos, hfits, ?_⟩
  rw [truncU32, if_pos hx, UInt32.toNat_ofInt]
  exact Int.emod_eq_of_lt hpos hfits

/-- The estimate is 0 after the first packet, and then between 0 and the largest deviation so far; when
all of them are below 2^32, it can be converted to 32 bits after every packet. -/
theorem djitter_within (htsunit : 0 < tsunit) (subflow : Bool) (packs : ℕ → RtpPacket) :
    let st := after subflow tsunit packs
    ((st 1).djitter = 0 ∧ ∀ i, 0 ≤ (st (i + 2)).djitter ∧
      (st (i + 2)).djitter ≤ partialSups (deviations tsunit packs) i) ∧
    ∀ n, (∀ i, i + 1 < n → deviations tsunit packs i < 2 ^ 32) →
      0 ≤ ⌊(st n).djitter⌋ ∧ ⌊(st n).djitter⌋ < 2 ^ 32 ∧ ((st n).jitter.toNat : ℤ) = ⌊(st n).djitter⌋ := by
  intro st
  have hbounds := smooth_run_le (x := fun i => (st (i + 1)).djitter) (d := deviations tsunit packs)
    (by norm_num) (by norm_num) rfl (after_djitter htsunit) fun i => abs_nonneg _
  refine ⟨⟨rfl, hbounds⟩, ?_⟩
  intro n hfits
  have hzero : (0 : ℚ) < 2 ^ 32 := by norm_num
  have hrange : 0 ≤ (st n).djitter ∧ (st n).djitter < 2 ^ 32 := by
    match n with
    | 0 => exact ⟨le_rfl, hzero⟩
    | 1 => exact ⟨le_rfl, hzero⟩
    | i + 2 =>
      obtain ⟨hpos, hle⟩ := hbounds i
      obtain ⟨j, hj, hlargest⟩ := exists_partialSups_eq (deviations tsunit packs) i
      refine ⟨hpos, hle.trans_lt ?_⟩
      have hlt := hfits j (by omega)
      rwa [← hlargest] at hlt
  have hjitter : (st n).jitter = truncU32 (st n).djitter := after_jitter htsunit n
  rw [hjitter]
  exact truncU32_toNat hrange.1 hrange.2

/-- A packet for each unit of time, of which each one comes later. -/
def delayedPackets (i : ℕ) : RtpPacket :=
  { plainPacket i with
    rawpack := { (plainPacket i).rawpack with recvtime := i * i }
    timestamp := UInt32.ofNat i }

theorem delayedPackets_within :
    0 < (after false 1 delayedPackets 4).djitter ∧
      (after false 1 delayedPackets 4).djitter ≤ partialSups (deviations 1 delayedPackets) 2 ∧
      ((after false 1 delayedPackets 4).jitter.toNat : ℤ) = ⌊(after false 1 delayedPackets 4).djitter⌋ := by
  have hfits : ∀ i, i + 1 < 4 → deviations 1 delayedPackets i < 2 ^ 32 := by
    intro i hi
    obtain rfl | rfl | rfl : i = 0 ∨ i = 1 ∨ i = 2 := by omega
    all_goals decide +kernel
  obtain ⟨⟨-, hbounds⟩, hrange⟩ := djitter_within one_pos false delayedPackets
  exact ⟨by decide +kernel, (hbounds 2).2, (hrange 4 hfits).2.2⟩

end

/-! Timestamps, and the integers that they stand for. -/

/-- The value of `cur` lies `δ` beyond that of `prev`, modulo 2^32. -/
def Apart (δ : ℤ) (prev cur : UInt32) : Prop := ((cur.toNat : ℤ) - prev.toNat - δ) % 2 ^ 32 = 0

/-- The end of the 32-bit range lies between the two. -/
def Crosses (δ : ℤ) (prev cur : UInt32) : Prop := (cur.toNat : ℤ) - prev.toNat ≠ δ

instance (δ : ℤ) (prev cur : UInt32) : Decidable (Crosses δ prev cur) := inferInstanceAs (Decidable (_ ≠ _))

/-- The difference that is taken for a large one within the range. -/
def misread (δ : ℤ) : ℤ := if 0 < δ then δ - 2 ^ 32 else δ + 2 ^ 32

variable {δ : ℤ} {prev cur : UInt32}

theorem apart_ofInt (a b : ℤ) : Apart (b - a) (UInt32.ofInt a) (UInt32.ofInt b) := by
  have ha := UInt32.toNat_ofInt a
  have hb := UInt32.toNat_ofInt b
  unfold Apart
  omega

theorem Apart.add (h : Apart δ prev cur) (c : UInt32) : Apart δ (prev + c) (cur + c) := by
  unfold Apart at *
  rw [UInt32.toNat_add, UInt32.toNat_add]
  omega

/-- The four cases of the source, as one on integers. -/
theorem timestampDiff_eq (cur prev : UInt32) : timestampDiff cur prev =
    ((if |(cur.toNat : ℤ) - prev.toNat| < 2 ^ 28 then (cur.toNat : ℤ) - prev.toNat
      else misread (cur.toNat - prev.toNat) : ℤ) : ℚ) := by
  unfold timestampDiff misread
  simp only [abs_lt]
  by_cases hup : prev < cur
  · obtain ⟨hsub, hneg⟩ := UInt32.toNat_sub_neg hup
    have hlt := UInt32.lt_iff_toNat_lt.mp hup
    have hsmall : cur - prev < 0x10000000 ↔ (cur - prev).toNat < 2 ^ 28 := UInt32.lt_iff_toNat_lt
    rw [if_pos hup]
    by_cases hs : (cur - prev).toNat < 2 ^ 28
    · rw [if_pos (hsmall.mpr hs), if_pos (by omega), ← hsub, Int.cast_natCast]
    · rw [if_neg (mt hsmall.mp hs), if_neg (by omega), if_pos (by omega), ← Int.cast_natCast, hneg, ← Int.cast_neg, neg_sub]
  · rw [if_neg hup]
    by_cases hdown : cur < prev
    · obtain ⟨hsub, hneg⟩ := UInt32.toNat_sub_neg hdown
      have hlt := UInt32.lt_iff_toNat_lt.mp hdown
      have hsmall : prev - cur < 0x10000000 ↔ (prev - cur).toNat < 2 ^ 28 := UInt32.lt_iff_toNat_lt
      rw [if_pos hdown]
      by_cases hs : (prev - cur).toNat < 2 ^ 28
      · rw [if_pos (hsmall.mpr hs), if_pos (by omega), ← Int.cast_natCast, hsub, ← Int.cast_neg, neg_sub]
      · rw [if_neg (mt hsmall.mp hs), if_neg (by omega), if_neg (by omega), ← Int.cast_natCast, hneg]
        congr 1
        ring
    · rw [if_neg hdown]
      rw [UInt32.lt_iff_toNat_lt] at hup hdown
      have heq : cur.toNat = prev.toNat := by omega
      rw [heq, sub_self, if_pos (by norm_num), Int.cast_zero]

/-- Differences of 2^28 and more are only right where the pair crosses the end of the range. -/
theorem Apart.timestampDiff (h : Apart δ prev cur) (hδ : |δ| < 2 ^ 31) : timestampDiff cur prev =
    ((if |δ| < 2 ^ 28 ∨ Crosses δ prev cur then δ else misread δ : ℤ) : ℚ) := by
  have hcur := cur.toNat_lt
  have hprev := prev.toNat_lt
  rw [timestampDiff_eq]
  unfold Apart at h
  unfold Crosses misread
  simp only [abs_lt] at hδ ⊢
  rw [Int.cast_inj]
  split_ifs
  all_goals omega

theorem misread_ne (δ : ℤ) : δ ≠ misread δ := by
  unfold misread
  split <;> omega

/-- Two values lie equally far from `x` when it is in the middle. -/
theorem abs_sub_eq_abs_sub_iff {x a b : ℚ} (hne : a ≠ b) : |x - a| = |x - b| ↔ x = (a + b) / 2 := by
  rw [abs_eq_abs]
  constructor
  · intro h
    rcases h with h | h
    · exact absurd (sub_right_injective h) hne
    · linarith
  · intro h
    right
    linarith

/-- A pair of packets deviates alike with `c` added to the timestamps: the difference is small enough,
both pairs or none of them cross the end of the range, or the arrivals do not tell the right difference
from the misread one. -/
def ReadsAlike (tsunit : ℚ) (δ : ℤ) (c : UInt32) (prev pack : RtpPacket) : Prop :=
  |δ| < 2 ^ 28 ∨
    (Crosses δ prev.timestamp pack.timestamp ↔ Crosses δ (prev.timestamp + c) (pack.timestamp + c)) ∨
    spacing tsunit prev pack = ((δ : ℚ) + misread δ) / 2

theorem deviation_shifted_iff {tsunit : ℚ} {prev pack : RtpPacket}
    (h : Apart δ prev.timestamp pack.timestamp) (hδ : |δ| < 2 ^ 31) (c : UInt32) :
    deviation tsunit prev pack = deviation tsunit (prev.shifted c) (pack.shifted c) ↔
      ReadsAlike tsunit δ c prev pack := by
  have hspacing : spacing tsunit (prev.shifted c) (pack.shifted c) = spacing tsunit prev pack := rfl
  have hshift : SourceStats.timestampDiff (pack.shifted c).timestamp (prev.shifted c).timestamp = _ :=
    (h.add c).timestampDiff hδ
  have hne : (δ : ℚ) ≠ misread δ := fun h => misread_ne δ (Int.cast_inj.mp h)
  unfold deviation ReadsAlike
  rw [hspacing, h.timestampDiff hδ, hshift]
  by_cases hsmall : |δ| < 2 ^ 28
  · rw [if_pos (Or.inl hsmall), if_pos (Or.inl hsmall)]
    exact iff_of_true rfl (Or.inl hsmall)
  · simp only [hsmall, false_or]
    by_cases h₁ : Crosses δ prev.timestamp pack.timestamp
    · by_cases h₂ : Crosses δ (prev.timestamp + c) (pack.timestamp + c)
      · rw [if_pos h₁, if_pos h₂]
        exact iff_of_true rfl (Or.inl (iff_of_true h₁ h₂))
      · rw [if_pos h₁, if_neg h₂, abs_sub_eq_abs_sub_iff hne]
        exact (or_iff_right fun hiff => h₂ (hiff.mp h₁)).symm
    · by_cases h₂ : Crosses δ (prev.timestamp + c) (pack.timestamp + c)
      · rw [if_neg h₁, if_pos h₂, eq_comm, abs_sub_eq_abs_sub_iff hne]
        exact (or_iff_right fun hiff => h₁ (hiff.mpr h₂)).symm
      · rw [if_neg h₁, if_neg h₂]
        exact iff_of_true rfl (Or.inl (iff_of_false h₁ h₂))

/-- Adding `c` to all timestamps leaves the jitter as it is, after every packet, when it leaves the
reading of every pair. -/
theorem jitter_shifted_iff {subflow : Bool} {tsunit : ℚ} {packs : ℕ → RtpPacket} {n : ℕ} {τ : ℕ → ℤ}
    (htsunit : 0 < tsunit) (hτ : ∀ i < n, (packs i).timestamp = UInt32.ofInt (τ i))
    (hnear : ∀ i, i + 1 < n → |τ (i + 1) - τ i| < 2 ^ 31) (c : UInt32) :
    (∀ i ≤ n, let st := after subflow tsunit packs i
      let st' := after subflow tsunit (fun j => (packs j).shifted c) i
      st'.djitter = st.djitter ∧ st'.jitter = st.jitter) ↔
    ∀ i, i + 1 < n → ReadsAlike tsunit (τ (i + 1) - τ i) c (packs i) (packs (i + 1)) := by
  have hdjitter : (∀ i ≤ n, let st := after subflow tsunit packs i
      let st' := after subflow tsunit (fun j => (packs j).shifted c) i
      st'.djitter = st.djitter ∧ st'.jitter = st.jitter) ↔
      ∀ i ≤ n, (after subflow tsunit packs i).djitter =
        (after subflow tsunit (fun j => (packs j).shifted c) i).djitter := by
    refine forall₂_congr fun i _ => ?_
    dsimp only
    rw [after_jitter htsunit, after_jitter htsunit, eq_comm]
    exact and_iff_left_of_imp fun h => by rw [h]
  rw [hdjitter, djitter_eq_iff htsunit]
  refine forall₂_congr fun i hi => ?_
  have hapart : Apart (τ (i + 1) - τ i) (packs i).timestamp (packs (i + 1)).timestamp := by
    rw [hτ i (Nat.lt_of_succ_lt hi), hτ (i + 1) hi]
    exact apart_ofInt _ _
  exact deviation_shifted_iff hapart (hnear i hi) c

/-- Packets every 50 minutes at 90000 units a second, the first one with the timestamp 0. -/
def slowPackets (i : ℕ) : RtpPacket :=
  { plainPacket i with
    rawpack := { (plainPacket i).rawpack with recvtime := 3000 * i }
    timestamp := UInt32.ofInt (270000000 * i) }

theorem slowPackets_near (i : ℕ) : |(270000000 * (i + 1 : ℕ) - 270000000 * i : ℤ)| < 2 ^ 31 := by
  rw [abs_lt]
  omega

/-- With 1 added, the first pair does not cross the end of the range. -/
theorem slowPackets_shifted :
    let st := after false (1 / 90000) slowPackets 2
    let st' := after false (1 / 90000) (fun j => (slowPackets j).shifted 1) 2
    st'.djitter = st.djitter ∧ st'.jitter = st.jitter := by
  refine (jitter_shifted_iff (τ := fun i => 270000000 * i) (by norm_num) (fun _ _ => rfl)
    (fun i _ => slowPackets_near i) 1).mpr ?_ 2 le_rfl
  intro i hi
  obtain rfl : i = 0 := by omega
  exact Or.inr (Or.inl (by decide))

/-- The second packet comes in its time, but the jitter is 2^28 units; with 2^32 - 1 added to the
timestamps it is 0. -/
theorem slowPackets_jitter :
    (after false (1 / 90000) slowPackets 2).jitter = 0x10000000 ∧
      (after false (1 / 90000) (fun j => (slowPackets j).shifted 0xFFFFFFFF) 2).jitter = 0 := by
  decide +kernel

end SourceStats

end Mprtp
