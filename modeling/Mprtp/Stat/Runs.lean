import Mathlib.Data.List.DropRight
import Mprtp.Lib.Exec
import Mprtp.Stat.Intervals

/-! Runs of one `source_stats`: packets in any order, and reports that are filled between them. -/
namespace Mprtp

/-- The calls that are made on the statistics. -/
inductive StatStep where
  | packet (pack : RtpPacket)
  | report (ssrc : UInt32) (sr : Option RtcpSrPacket) (w : World)

/-- What happens in a run, in order. -/
inductive StatEvent where
  | packet (pack : RtpPacket)
  /-- a report is filled from the statistics -/
  | report (st : SourceStats) (rr : RtcpReceiverReport)

namespace StatEvent

def isPacket : StatEvent → Bool
  | .packet _ => true
  | .report _ _ => false

/-- The `expected` count of the interval that a report uses. -/
def expected : StatEvent → ℕ
  | .packet _ => 0
  | .report st _ => st.expected.toNat

/-- The received count of the interval that a report uses. -/
def received : StatEvent → ℕ
  | .packet _ => 0
  | .report st _ => st.numNewPackets.toNat

end StatEvent

/-- How many packets have come. -/
def packetsIn (H : List StatEvent) : ℕ := H.countP StatEvent.isPacket

/-- How many of them had come at the last report. -/
def reportedIn (H : List StatEvent) : ℕ := packetsIn (H.rdropWhile StatEvent.isPacket)

/-- What has happened since the first packet. -/
def sinceFirst (H : List StatEvent) : List StatEvent := H.dropWhile fun e => !e.isPacket

section

variable {H : List StatEvent} {pack : RtpPacket} {st : SourceStats} {rr : RtcpReceiverReport}

@[simp] theorem packetsIn_packet : packetsIn (H ++ [.packet pack]) = packetsIn H + 1 := by
  unfold packetsIn
  rw [List.countP_append]
  rfl

@[simp] theorem packetsIn_report : packetsIn (H ++ [.report st rr]) = packetsIn H := by
  unfold packetsIn
  rw [List.countP_append]
  rfl

@[simp] theorem reportedIn_packet : reportedIn (H ++ [.packet pack]) = reportedIn H := by
  unfold reportedIn
  rw [List.rdropWhile_concat_pos _ _ _ rfl]

@[simp] theorem reportedIn_report : reportedIn (H ++ [.report st rr]) = packetsIn H := by
  unfold reportedIn
  have hstop : ¬ (StatEvent.report st rr).isPacket = true := Bool.false_ne_true
  rw [List.rdropWhile_concat_neg _ _ _ hstop, packetsIn_report]

theorem reportedIn_le (H : List StatEvent) : reportedIn H ≤ packetsIn H :=
  (List.rdropWhile_prefix _ H).sublist.countP_le

/-- Before the first packet, there is nothing behind it. -/
theorem sinceFirst_of_zero (h : packetsIn H = 0) : sinceFirst H = [] := by
  unfold sinceFirst
  rw [List.dropWhile_eq_nil_iff]
  intro e he
  have hno := List.countP_eq_zero.mp h e he
  simpa using hno

theorem sinceFirst_first (h : packetsIn H = 0) (pack : RtpPacket) :
    sinceFirst (H ++ [.packet pack]) = [.packet pack] := by
  have hnil := sinceFirst_of_zero h
  unfold sinceFirst at hnil ⊢
  rw [List.dropWhile_append, hnil]
  rfl

theorem sinceFirst_later (h : packetsIn H ≠ 0) (e : StatEvent) :
    sinceFirst (H ++ [e]) = sinceFirst H ++ [e] := by
  have hne : (sinceFirst H).isEmpty = false := by
    unfold sinceFirst
    rw [List.isEmpty_eq_false_iff, ne_eq, List.dropWhile_eq_nil_iff]
    intro hall
    apply h
    apply List.countP_eq_zero.mpr
    intro a ha
    simpa using hall a ha
  unfold sinceFirst at hne ⊢
  rw [List.dropWhile_append, hne, if_neg Bool.false_ne_true]

end

namespace SourceStats

variable (subflow : Bool) (tsunit : ℚ)

def step (st : SourceStats) : StatStep → Exec StatEvent SourceStats
  | .packet pack => do
    Exec.tell (.packet pack)
    return (st.processPacket pack subflow tsunit).1
  | .report ssrc sr w => do
    let (rr, st', _) := st.fillReceiverReport ssrc sr w
    Exec.tell (.report st rr)
    return st'

/-- An assertion that packets and reports keep, and what is known of each of them in its turn. -/
structure KeptByStats (ok : List StatEvent → SourceStats → StatStep → Prop)
    (good : List StatEvent → StatEvent → Prop) (I : List StatEvent → SourceStats → Prop) : Prop where
  packet : ∀ H st pack, ok H st (.packet pack) → I H st →
    good H (.packet pack) ∧ I (H ++ [.packet pack]) (st.processPacket pack subflow tsunit).1
  report : ∀ H st ssrc sr w, ok H st (.report ssrc sr w) → I H st →
    good H (.report st (st.fillReceiverReport ssrc sr w).1) ∧
      I (H ++ [.report st (st.fillReceiverReport ssrc sr w).1]) st.startNewInterval

variable {subflow : Bool} {tsunit : ℚ} {ok : List StatEvent → SourceStats → StatStep → Prop}
  {good : List StatEvent → StatEvent → Prop} {I : List StatEvent → SourceStats → Prop}

theorem KeptByStats.step (hk : KeptByStats subflow tsunit ok good I) {H : List StatEvent}
    {st : SourceStats} {e : StatStep} (hok : ok H st e) (hI : I H st) :
    (st.step subflow tsunit e).Sat good H I := by
  cases e with
  | packet pack =>
    obtain ⟨hgood, hkept⟩ := hk.packet H st pack hok hI
    exact Exec.sat_single hgood hkept
  | report ssrc sr w =>
    obtain ⟨hgood, hkept⟩ := hk.report H st ssrc sr w hok hI
    exact Exec.sat_single hgood hkept

/-- The run rule. -/
theorem KeptByStats.run (hk : KeptByStats subflow tsunit ok good I) (h₀ : I [] {})
    {H : List StatEvent} {r : Option SourceStats}
    (hrun : Run (SourceStats.step subflow tsunit) ok {} H r) :
    (∀ n e, H[n]? = some e → good (H.take n) e) ∧ ∀ st, r = some st → I H st := by
  have hstep : ∀ H st e, I H st → ok H st e → (st.step subflow tsunit e).Sat good H I :=
    fun _ _ _ hI hok => hk.step hok hI
  exact ⟨fun n e hn => Run.sat_getElem h₀ hstep hrun hn, (Run.sat h₀ hstep hrun).2⟩

end SourceStats

end Mprtp
