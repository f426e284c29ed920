import Mprtp.Lib.Wrap
import Mprtp.Stat.Runs
import Mprtp.Stat.Sequence

/-! The cycle counter and the highest number of `process_packet`, as long as both fit 32 bits. -/
namespace Mprtp

namespace SourceStats

/-- `process_packet` takes the number of the packet for one of the next cycle, and adds the cycle. -/
def Wraps (subflow : Bool) (st : SourceStats) (pack : RtpPacket) : Prop :=
  st.receivedData = true ∧ packSequenceNumber pack subflow < st.maxseq16.toUInt32 ∧
    wrapped st.maxseq16 (packSequenceNumber pack subflow).toUInt16

instance (subflow : Bool) (st : SourceStats) (pack : RtpPacket) : Decidable (st.Wraps subflow pack) :=
  inferInstanceAs (Decidable (_ ∧ _))

/-- A call at which the number wraps. -/
def wrapsAt (subflow : Bool) : (SourceStats × StatStep) ⊕ StatEvent → Bool
  | .inl (st, .packet pack) => st.Wraps subflow pack
  | _ => false

/-- How often the number has wrapped. -/
def wrapsIn (subflow : Bool) (H : List ((SourceStats × StatStep) ⊕ StatEvent)) : ℕ :=
  H.countP (wrapsAt subflow)

/-- A packet carries a number of 16 bits. -/
def Fits16 (subflow : Bool) : StatStep → Prop
  | .packet pack => packSequenceNumber pack subflow < 65536
  | .report _ _ _ => True

instance (subflow : Bool) : DecidablePred (Fits16 subflow)
  | .packet _ => inferInstanceAs (Decidable (_ < _))
  | .report _ _ _ => inferInstanceAs (Decidable True)

/-- The highest number is `high`, after `wraps` wraps. -/
structure Wrapped (st : SourceStats) (wraps high : ℕ) : Prop where
  holds : st.Holds high
  cycles : high / 65536 ≤ wraps + 1
  untouched : st.receivedData = false → high = 0

/-- What a packet does to the numbers. -/
structure Advances (subflow : Bool) (st : SourceStats) (pack : RtpPacket)
    (high high' ext : ℕ) : Prop where
  extseqnrOf : st.extseqnrOf pack subflow = UInt32.ofNat ext
  congr : ext % 65536 = (packSequenceNumber pack subflow).toNat
  le : ext ≤ high'
  up : high ≤ high'
  near : st.receivedData = true → high' < high + 65536

variable {st : SourceStats} {subflow : Bool} {tsunit : ℚ} {pack : RtpPacket} {wraps high : ℕ}

theorem Wrapped.wraps_iff (h : st.Wrapped wraps high) (hst : st.receivedData = true)
    (hq : packSequenceNumber pack subflow < 65536) :
    st.Wraps subflow pack ↔ Serial.Wraps 65536 high (packSequenceNumber pack subflow).toNat := by
  have hq' : (packSequenceNumber pack subflow).toNat < 65536 := UInt32.lt_iff_toNat_lt.mp hq
  have hbelow := h.holds.not_below_iff hq'
  have hahead := h.holds.wrapped_iff hq'
  rw [UInt32.ofNat_toNat] at hbelow hahead
  unfold SourceStats.Wraps Serial.Wraps
  rw [and_iff_right hst, ← UInt32.not_le, not_congr hbelow, Nat.not_le]
  exact and_congr_right hahead

theorem Wrapped.exthighseqnr_toNat (h : st.Wrapped wraps high) (hfew : wraps < 2 ^ 16 - 1) :
    st.exthighseqnr.toNat = high := by
  have hcycles := h.cycles
  rw [h.holds.1, UInt32.toNat_ofNat']
  omega

theorem Wrapped.numCycles_eq (h : st.Wrapped wraps high) (hfew : wraps < 2 ^ 16 - 1) :
    st.numCycles % 65536 = 0 ∧ st.numCycles = st.exthighseqnr &&& 0xFFFF0000 := by
  have hcycles := h.cycles
  have hnum : st.numCycles.toNat = high - high % 65536 := by
    rw [h.holds.2, UInt32.toNat_ofNat']
    omega
  constructor
  · exact WholeCycles.of_toNat (by omega)
  · rw [← UInt32.toNat_inj, UInt32.toNat_and_high, h.exthighseqnr_toNat hfew, hnum]

/-- A packet extends the numbers. -/
theorem Wrapped.packet (h : st.Wrapped wraps high) (hq : packSequenceNumber pack subflow < 65536)
    (tsunit : ℚ) :
    ∃ high' ext, st.Advances subflow pack high high' ext ∧
      (st.processPacket pack subflow tsunit).1.Wrapped
        (wraps + if st.Wraps subflow pack then 1 else 0) high' := by
  have hq' : (packSequenceNumber pack subflow).toNat < 65536 := UInt32.lt_iff_toNat_lt.mp hq
  have hreceived (high' : ℕ) (hst : (st.processPacket pack subflow tsunit).1.receivedData = false) :
      high' = 0 := by
    rw [processPacket_receivedData] at hst
    cases hst
  by_cases hst : st.receivedData = true
  · obtain ⟨hholds, hext⟩ := processPacket_holds_next pack subflow tsunit hq' hst h.holds
      UInt32.ofNat_toNat.symm
    obtain ⟨hup, hnear⟩ := Serial.next_snd_near high hq'
    have hcycles := h.cycles
    refine ⟨_, _, ⟨hext, Serial.next_fst_mod high hq', Serial.next_fst_le high _ _, hup, fun _ => hnear⟩,
      hholds, ?_, hreceived _⟩
    simp only [Serial.next_snd_div high hq', h.wraps_iff hst hq]
    omega
  · have hst' : st.receivedData = false := Bool.eq_false_iff.mpr hst
    have hc : st.numCycles = 0 := by
      rw [h.holds.2, h.untouched hst']
      rfl
    obtain ⟨hholds, hext⟩ := processPacket_holds_first pack subflow tsunit hq' hst' hc
      UInt32.ofNat_toNat.symm
    refine ⟨_, _, ⟨hext, ?_, le_rfl, ?_, fun h => absurd h hst⟩, hholds, ?_, hreceived _⟩
    · unfold firstHigh
      split <;> omega
    · rw [h.untouched hst']
      exact Nat.zero_le _
    · unfold firstHigh
      split <;> omega

variable {H : List ((SourceStats × StatStep) ⊕ StatEvent)}

theorem wrapsIn_noted (s : SourceStats) (e : StatStep) (L : List StatEvent) :
    wrapsIn subflow (H ++ [.inl (s, e)] ++ L.map .inr) =
      wrapsIn subflow H + if wrapsAt subflow (.inl (s, e)) then 1 else 0 :=
  countP_noted (fun _ => rfl) H s e L

/-- A call that is noted met the numbers as they were to be. -/
def MetWrapped (subflow : Bool) (H : List ((SourceStats × StatStep) ⊕ StatEvent)) :
    (SourceStats × StatStep) ⊕ StatEvent → Prop
  | .inl (st, e) => (∃ high, st.Wrapped (wrapsIn subflow H) high) ∧ Fits16 subflow e
  | .inr _ => True

theorem run_wrapped {r : Option SourceStats}
    (hrun : Run (noting (step subflow tsunit)) (fun _ _ e => Fits16 subflow e) {} H r) :
    (∀ n x, H[n]? = some x → MetWrapped subflow (H.take n) x) ∧
      ∀ st, r = some st → ∃ high, st.Wrapped (wrapsIn subflow H) high := by
  have hnew : ∃ high, SourceStats.Wrapped {} (wrapsIn subflow []) high :=
    ⟨0, ⟨rfl, rfl⟩, Nat.zero_le _, fun _ => rfl⟩
  have hstep : ∀ H st e, (∃ high, st.Wrapped (wrapsIn subflow H) high) → Fits16 subflow e →
      (noting (step subflow tsunit) st e).Sat (MetWrapped subflow) H
        fun H st => ∃ high, st.Wrapped (wrapsIn subflow H) high := by
    intro H st e h hok
    obtain ⟨high, hhigh⟩ := h
    have hnext : (st.step subflow tsunit e).Sat (fun _ _ => True) (told H) fun _ st' =>
        ∃ high, st'.Wrapped (wrapsIn subflow H + if wrapsAt subflow (.inl (st, e)) then 1 else 0) high := by
      cases e with
      | packet pack =>
        obtain ⟨high', ext, -, hwrapped⟩ := hhigh.packet hok tsunit
        refine Exec.sat_single trivial ⟨high', ?_⟩
        simpa [wrapsAt] using hwrapped
      | report ssrc sr w =>
        exact Exec.sat_single trivial ⟨high, hhigh.holds, hhigh.cycles, hhigh.untouched⟩
    refine Exec.sat_noting ⟨⟨high, hhigh⟩, hok⟩ hnext (fun _ _ _ => trivial) ?_
    intro L st' h'
    rw [wrapsIn_noted]
    exact h'
  exact ⟨fun n x hn => Run.sat_getElem hnew hstep hrun hn, (Run.sat hnew hstep hrun).2⟩

theorem wrapsIn_take (subflow : Bool) {n : ℕ} {x : (SourceStats × StatStep) ⊕ StatEvent} (hn : H[n]? = some x) :
    wrapsIn subflow (H.take n) + (if wrapsAt subflow x then 1 else 0) ≤ wrapsIn subflow H := by
  have hle : wrapsIn subflow (H.take (n + 1)) ≤ wrapsIn subflow H :=
    (List.take_sublist (n + 1) H).countP_le
  unfold wrapsIn at *
  rwa [List.take_add_one, hn, Option.toList_some, List.countP_append, List.countP_singleton] at hle

/-- With numbers of 16 bits that wrap less than 2^16 - 1 times, the cycles are the highest number without
its low 16 bits, the highest number does not go down and goes up by less than a cycle with a packet behind
the first one, and the number of each packet is extended to one that is not above it. -/
theorem numbers_agree
    (hrun : Run (noting (step subflow tsunit)) (fun _ _ e => Fits16 subflow e) {} H (some st))
    (hfew : wrapsIn subflow H < 2 ^ 16 - 1) :
    (st.numCycles % 65536 = 0 ∧ st.numCycles = st.exthighseqnr &&& 0xFFFF0000) ∧
    (∀ (n : ℕ) s e s', H[n]? = some (.inl (s, e)) → (step subflow tsunit s e).res = some s' →
      s.exthighseqnr ≤ s'.exthighseqnr) ∧
    ∀ (n : ℕ) s pack, H[n]? = some (.inl (s, .packet pack)) →
      let s' := (s.processPacket pack subflow tsunit).1
      let ext := s.extseqnrOf pack subflow
      (s.receivedData = true → s'.exthighseqnr.toNat < s.exthighseqnr.toNat + 2 ^ 16) ∧
        ext.toNat ≡ (packSequenceNumber pack subflow).toNat [MOD 2 ^ 16] ∧ ext ≤ s'.exthighseqnr := by
  obtain ⟨hmet, hlast⟩ := run_wrapped hrun
  have hpacket : ∀ (n : ℕ) s pack, H[n]? = some (.inl (s, .packet pack)) → ∃ ext,
      s.Advances subflow pack s.exthighseqnr.toNat
        (s.processPacket pack subflow tsunit).1.exthighseqnr.toNat ext := by
    intro n s pack hn
    obtain ⟨⟨high, hhigh⟩, hfits⟩ := hmet n _ hn
    have htake := wrapsIn_take subflow hn
    obtain ⟨high', ext, hadvances, hnext⟩ := hhigh.packet hfits tsunit
    have hwraps : wrapsAt subflow (.inl (s, .packet pack)) = decide (s.Wraps subflow pack) := rfl
    simp only [hwraps, decide_eq_true_eq] at htake
    rw [hhigh.exthighseqnr_toNat (by omega), hnext.exthighseqnr_toNat (by omega)]
    exact ⟨ext, hadvances⟩
  refine ⟨?_, ?_, ?_⟩
  · obtain ⟨high, hhigh⟩ := hlast st rfl
    exact hhigh.numCycles_eq hfew
  · intro n s e s' hn hres
    cases e with
    | packet pack =>
      cases hres
      obtain ⟨ext, hadvances⟩ := hpacket n s pack hn
      exact UInt32.le_iff_toNat_le.mpr hadvances.up
    | report ssrc sr w =>
      cases hres
      exact UInt32.le_refl _
  · intro n s pack hn
    obtain ⟨ext, hadvances⟩ := hpacket n s pack hn
    have hext : (s.extseqnrOf pack subflow).toNat = ext := by
      have hle := hadvances.le
      have hlt := (s.processPacket pack subflow tsunit).1.exthighseqnr.toNat_lt
      rw [hadvances.extseqnrOf, UInt32.toNat_ofNat']
      omega
    refine ⟨hadvances.near, ?_, ?_⟩
    · rw [hext]
      have hmod := hadvances.congr
      unfold Nat.ModEq
      omega
    · rw [UInt32.le_iff_toNat_le, hext]
      exact hadvances.le

/-- A wrap, a report, and a packet that comes late. -/
def wrapSteps : List StatStep :=
  [.packet (plainPacket 65534), .packet (plainPacket 2), .report 1 none (.ticking 1000),
    .packet (plainPacket 1)]

def wrapRun : Exec ((SourceStats × StatStep) ⊕ StatEvent) SourceStats :=
  wrapSteps.foldlM (noting (step false 1)) {}

theorem wrapRun_agrees : ∃ st s, wrapRun.res = some st ∧
    wrapRun.log[2]? = some (.inl (s, .packet (plainPacket 2))) ∧
    st.numCycles = 0x10000 ∧ st.numCycles = st.exthighseqnr &&& 0xFFFF0000 ∧
    (s.processPacket (plainPacket 2) false 1).1.exthighseqnr.toNat < s.exthighseqnr.toNat + 2 ^ 16 ∧
    (s.extseqnrOf (plainPacket 2) false).toNat ≡ 2 [MOD 2 ^ 16] := by
  have hrun : Run (noting (step false 1)) (fun _ _ e => Fits16 false e) {} wrapRun.log wrapRun.res := by
    have hfits : ∀ e ∈ wrapSteps, Fits16 false e := by decide
    exact Run.foldlM_of _ wrapSteps fun _ e _ he _ => hfits e (List.mem_of_getElem? he)
  have hfew : wrapsIn false wrapRun.log < 2 ^ 16 - 1 := by decide +kernel
  obtain ⟨hcycles, -, hpackets⟩ := numbers_agree hrun hfew
  obtain ⟨hnear, hmod, -⟩ := hpackets 2 _ _ rfl
  exact ⟨_, _, rfl, rfl, rfl, hcycles.2, hnear rfl, hmod⟩

end SourceStats

end Mprtp
