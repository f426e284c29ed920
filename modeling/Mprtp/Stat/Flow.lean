import Mprtp.Stat.Sequence

/-! The numbering of one subflow at both ends: the sender's next number, the receiver's highest
one and the highest numbers it has reported. -/
namespace Mprtp

namespace SourceStats

/-- The number `q` lies behind the highest one, and from before a wrap of it. -/
def Late (st : SourceStats) (q : UInt16) : Prop :=
  st.receivedData = true ∧ st.maxseq16 < q ∧ st.maxseq16 - q < 0x8000

instance (st : SourceStats) (q : UInt16) : Decidable (st.Late q) :=
  inferInstanceAs (Decidable (_ ∧ _))

variable {seq q : UInt16} {n : ℕ} {st : SourceStats} {told : UInt32 → Prop}

/-- Nothing was received on the subflow, and no report says otherwise. -/
structure Quiet (st : SourceStats) (told : UInt32 → Prop) : Prop where
  receivedData : st.receivedData = false
  numCycles : st.numCycles = 0
  exthighseqnr : st.exthighseqnr = 0
  told : ∀ r, told r → r = 0

/-- The sender has used `n` numbers before `seq`, modulo 2^16; the receiver's highest number and
those that it has reported are among them when `count` is taken for `seq`. -/
structure Counted (seq : UInt16) (n : ℕ) (st : SourceStats) (told : UInt32 → Prop)
    (count high : ℕ) : Prop where
  seq : count % 65536 = seq.toNat
  bound : count ≤ 65536 + n
  receivedData : st.receivedData = true
  holds : st.Holds high
  high : Serial.Recent count n high
  told : ∀ r, told r → r = 0 ∨ Serial.Recent count n r.toNat

/-- The sender has given the number `q` to one of its last `n` packets. -/
def Used (seq : UInt16) (n : ℕ) (q : UInt16) : Prop := 1 ≤ (seq - q).toNat ∧ (seq - q).toNat ≤ n

theorem used_self (seq : UInt16) (n : ℕ) : Used (seq + 1) (n + 1) seq := by
  have h : seq + 1 - seq = 1 := by
    rw [← UInt16.toNat_inj]
    have := seq.toNat_lt
    simp only [UInt16.toNat_sub, UInt16.toNat_add, UInt16.reduceToNat]
    omega
  unfold Used
  rw [h]
  simp

theorem Used.succ (h : Used seq n q) (hn : n < 2 ^ 15) : Used (seq + 1) (n + 1) q := by
  unfold Used at *
  have h₁ := seq.toNat_lt
  have h₂ := q.toNat_lt
  simp only [UInt16.toNat_sub, UInt16.toNat_add, UInt16.reduceToNat] at *
  omega

/-- A packet more is sent. -/
theorem Counted.sent {count high : ℕ} (h : Counted seq n st told count high) :
    Counted (seq + 1) (n + 1) st told (count + 1) high where
  seq := by
    have h₁ := h.seq
    have h₂ := seq.toNat_lt
    simp only [UInt16.toNat_add, UInt16.reduceToNat]
    omega
  bound := by
    have := h.bound
    omega
  receivedData := h.receivedData
  holds := h.holds
  high := h.high.succ
  told := by
    intro r hr
    exact (h.told r hr).imp id Serial.Recent.succ

/-- The statistics are as good as they were. -/
structure Same (st st' : SourceStats) : Prop where
  receivedData : st'.receivedData = st.receivedData
  numCycles : st'.numCycles = st.numCycles
  exthighseqnr : st'.exthighseqnr = st.exthighseqnr

theorem Same.refl (st : SourceStats) : Same st st := ⟨rfl, rfl, rfl⟩

theorem Quiet.same {st' : SourceStats} (h : Quiet st told) (hs : Same st st') : Quiet st' told where
  receivedData := hs.receivedData.trans h.receivedData
  numCycles := hs.numCycles.trans h.numCycles
  exthighseqnr := hs.exthighseqnr.trans h.exthighseqnr
  told := h.told

theorem Counted.same {st' : SourceStats} {count high : ℕ} (h : Counted seq n st told count high)
    (hs : Same st st') : Counted seq n st' told count high where
  seq := h.seq
  bound := h.bound
  receivedData := hs.receivedData.trans h.receivedData
  holds := ⟨hs.exthighseqnr.trans h.holds.1, hs.numCycles.trans h.holds.2⟩
  high := h.high
  told := h.told

theorem Quiet.told_mono {told' : UInt32 → Prop} (h : Quiet st told)
    (ht : ∀ r, told' r → told r) : Quiet st told' where
  receivedData := h.receivedData
  numCycles := h.numCycles
  exthighseqnr := h.exthighseqnr
  told := fun r hr => h.told r (ht r hr)

theorem Counted.told_mono {told' : UInt32 → Prop} {count high : ℕ}
    (h : Counted seq n st told count high) (ht : ∀ r, told' r → told r) :
    Counted seq n st told' count high where
  seq := h.seq
  bound := h.bound
  receivedData := h.receivedData
  holds := h.holds
  high := h.high
  told := fun r hr => h.told r (ht r hr)

/-- The highest number is reported. -/
theorem Quiet.report (h : Quiet st told) : Quiet st fun r => told r ∨ r = st.exthighseqnr where
  receivedData := h.receivedData
  numCycles := h.numCycles
  exthighseqnr := h.exthighseqnr
  told := by
    intro r h'
    rcases h' with hr | rfl
    · exact h.told r hr
    · exact h.exthighseqnr

theorem Counted.exthighseqnr_toNat {count high : ℕ} (h : Counted seq n st told count high)
    (hn : n < 2 ^ 15) : st.exthighseqnr.toNat = high := by
  have h₁ := h.bound
  have h₂ := h.high.1
  rw [h.holds.1, UInt32.toNat_ofNat']
  omega

theorem Counted.report {count high : ℕ} (h : Counted seq n st told count high) (hn : n < 2 ^ 15) :
    Counted seq n st (fun r => told r ∨ r = st.exthighseqnr) count high where
  seq := h.seq
  bound := h.bound
  receivedData := h.receivedData
  holds := h.holds
  high := h.high
  told := by
    intro r h'
    rcases h' with hr | rfl
    · exact h.told r hr
    · right
      rw [h.exthighseqnr_toNat hn]
      exact h.high

variable {pack : RtpPacket}

theorem packSequenceNumber_subflow (hp : pack.subflowExtseqnr = q.toUInt32) :
    packSequenceNumber pack true = UInt32.ofNat q.toNat := by
  have hq := q.toNat_lt
  rw [packSequenceNumber, if_pos rfl, hp, ← UInt32.toNat_inj, UInt16.toNat_toUInt32,
    UInt32.toNat_ofNat']
  omega

/-- The first packet of the subflow is received. -/
theorem Quiet.receive (h : Quiet st told) (hq : Used seq n q)
    (hp : pack.subflowExtseqnr = q.toUInt32) (tsunit : ℚ) :
    ∃ count high, Counted seq n (st.processPacket pack true tsunit).1 told count high := by
  have hq₁ := q.toNat_lt
  have hseq := seq.toNat_lt
  have hpn := packSequenceNumber_subflow hp
  have hhold := (processPacket_holds_first pack true tsunit hq₁ h.receivedData h.numCycles hpn).1
  unfold Used at hq
  rw [UInt16.toNat_sub] at hq
  refine ⟨firstHigh q.toNat + (2 ^ 16 - q.toNat + seq.toNat) % 2 ^ 16, firstHigh q.toNat, ?_, ?_, ?_,
    hhold, ?_, ?_⟩
  · unfold firstHigh
    split <;> omega
  · unfold firstHigh
    split <;> omega
  · simp [processPacket_receivedData]
  · unfold Serial.Recent
    omega
  · intro r hr
    exact Or.inl (h.told r hr)

/-- A packet more of the subflow is received. -/
theorem Counted.receive {count high : ℕ} (h : Counted seq n st told count high)
    (hq : Used seq n q) (hn : n < 2 ^ 15) (hlate : ¬ st.Late q)
    (hp : pack.subflowExtseqnr = q.toUInt32) (tsunit : ℚ) :
    ∃ high', Counted seq n (st.processPacket pack true tsunit).1 told count high' := by
  have hq₁ := q.toNat_lt
  have hpn := packSequenceNumber_subflow hp
  have hhold := (processPacket_holds_next pack true tsunit hq₁ h.receivedData h.holds hpn).1
  have hlate' : ¬ (high % 65536 < q.toNat ∧ (2 ^ 16 - q.toNat + high % 65536) % 2 ^ 16 < 2 ^ 15) := by
    intro h'
    obtain ⟨h₁, h₂⟩ := h'
    refine hlate ⟨h.receivedData, ?_, ?_⟩
    · rw [UInt16.lt_iff_toNat_lt, h.holds.maxseq16_toNat]
      exact h₁
    · rw [UInt16.lt_iff_toNat_lt, UInt16.toNat_sub, h.holds.maxseq16_toNat]
      exact h₂
  have hseq := h.seq
  obtain ⟨hh₁, hh₂⟩ := h.high
  unfold Used at hq
  rw [UInt16.toNat_sub, ← hseq] at hq
  refine ⟨_, h.seq, h.bound, ?_, hhold, ?_, h.told⟩
  · simp [processPacket_receivedData]
  · -- the number behind the residue, ahead of the highest one or behind it in the same cycle
    obtain ⟨b, hb⟩ : ∃ b, b = (2 ^ 16 - q.toNat + count % 65536) % 2 ^ 16 := ⟨_, rfl⟩
    rw [← hb] at hq
    by_cases hahead : b ≤ count - high
    · have hmod : (count - b) % 65536 = q.toNat := by omega
      rw [← hmod, Serial.next_mod (by omega) (by omega) (by omega)]
      unfold Serial.Recent
      dsimp only
      omega
    · have hle : b - (count - high) ≤ high % 65536 := by omega
      have hmod : (high - (b - (count - high))) % 65536 = q.toNat := by omega
      rw [← hmod, Serial.next_mod (by omega) (by omega) (by omega)]
      unfold Serial.Recent
      dsimp only
      omega

/-- Two numbers that were reported, the first of them not 0. -/
theorem Counted.told_sub_lt {count high : ℕ} (h : Counted seq n st told count high)
    {r r' : UInt32} (hr : told r) (hr' : told r') (h0 : r ≠ 0) (hle : r ≤ r') :
    (r' - r).toNat < n := by
  have hpos : 0 < r.toNat := by
    rcases Nat.eq_zero_or_pos r.toNat with hz | hz
    · exact absurd (UInt32.toNat_inj.mp hz) h0
    · exact hz
  have hle' : r.toNat ≤ r'.toNat := UInt32.le_iff_toNat_le.mp hle
  have hrec : Serial.Recent count n r.toNat := (h.told r hr).resolve_left h0
  have hrec' : Serial.Recent count n r'.toNat := by
    apply (h.told r' hr').resolve_left
    intro h'
    obtain rfl := h'
    exact absurd hle' (Nat.not_le_of_lt hpos)
  rw [UInt32.toNat_sub_of_le _ _ hle]
  exact hrec.sub_lt hrec'

end SourceStats

end Mprtp
