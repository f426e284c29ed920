import Mprtp.Lib.Since
import Mprtp.Receiver.ReportSize
import Mprtp.Receiver.SenderReports

/-! Sender reports on a stream and the receiver reports that answer them. -/
namespace Mprtp

namespace ReceiverEvent

/-- A sender report on the stream of the source comes in. -/
def Asks (ssrc : UInt32) : ReceiverEvent → Prop
  | .visit _ c => (c.srFor ssrc 0).isSome
  | _ => False

/-- A receiver report about the source goes out. -/
def Answers (ssrc : UInt32) : ReceiverEvent → Prop
  | .sent s _ => s = ssrc
  | _ => False

end ReceiverEvent

open ReceiverEvent

/-- A report is owed: no receiver report has gone out since the last sender report. -/
def Owed (H : List ReceiverEvent) (ssrc : UInt32) : Prop := Since (Asks ssrc) (fun e => ¬ Answers ssrc e) H

theorem owed_visit (H : List ReceiverEvent) (d : ReceiverData) (c : Call) (ssrc : UInt32) :
    Owed (H ++ [.visit d c]) ssrc ↔ (c.srFor ssrc 0).isSome ∨ Owed H ssrc := by
  unfold Owed
  rw [since_concat]
  exact or_congr_right (and_iff_right fun h => h)

theorem owed_of_neither {H : List ReceiverEvent} {e : ReceiverEvent} {ssrc : UInt32} (hasks : ¬ e.Asks ssrc)
    (hanswers : ¬ e.Answers ssrc) : Owed (H ++ [e]) ssrc ↔ Owed H ssrc :=
  since_concat_of_neither hasks hanswers

theorem not_owed_answered {H : List ReceiverEvent} {e : ReceiverEvent} {ssrc : UInt32} (hasks : ¬ e.Asks ssrc)
    (hanswers : e.Answers ssrc) : ¬ Owed (H ++ [e]) ssrc := by
  unfold Owed
  rw [since_concat]
  exact fun h => h.elim hasks fun h => h.1 hanswers

namespace Source

theorem processSrPacket_sendRr (src : Source) (pkt : RtcpSrPacket) (id : UInt16) (iface : ℕ) (w : World) :
    (src.processSrPacket pkt id iface w).1.sendRr = (decide (id = 0) || src.sendRr) := by
  unfold processSrPacket
  by_cases hid : id = 0
  · rw [if_pos hid, decide_eq_true hid]
    rfl
  · rw [if_neg hid, decide_eq_false hid]
    dsimp only
    split <;> exact Receiver.findSubflow_sendRr _ _ _ _ _

end Source

/-- The sources have the reports to send that are owed. -/
structure Owes (H : List ReceiverEvent) (d : ReceiverData) : Prop where
  ordered : Keyed.Ordered Source.key d.sources
  owed : ∀ ssrc, (d.getSource ssrc).sendRr = true ↔ Owed H ssrc

/-- A report goes out only when one is owed. -/
def SentOwed (H : List ReceiverEvent) : ReceiverEvent → Prop
  | .sent s _ => Owed H s
  | _ => True

namespace Owes

variable {H : List ReceiverEvent} {d : ReceiverData}

theorem concat (h : Owes H d) {e : ReceiverEvent} (he : ∀ ssrc, ¬ e.Asks ssrc ∧ ¬ e.Answers ssrc) :
    Owes (H ++ [e]) d :=
  ⟨h.ordered, fun ssrc => (h.owed ssrc).trans (owed_of_neither (he ssrc).1 (he ssrc).2).symm⟩

/-- A source is stored after a call that concerns this source only. -/
theorem setSource (h : Owes H d) {src : Source} {c : Call}
    (hcall : src.sendRr = true ↔ (c.srFor src.ssrc 0).isSome ∨ (d.getSource src.ssrc).sendRr = true)
    (hother : ∀ ssrc, ssrc ≠ src.ssrc → c.srFor ssrc 0 = none) :
    Owes (H ++ [.visit d c]) (d.setSource src) := by
  refine ⟨h.ordered.insert _, ?_⟩
  intro ssrc
  rw [ReceiverData.getSource_setSource h.ordered, owed_visit, ← h.owed]
  by_cases hs : ssrc = src.ssrc
  · rw [if_pos hs, hs]
    exact hcall
  · rw [if_neg hs, hother ssrc hs]
    exact (or_iff_right Bool.false_ne_true).symm

theorem onRtpPacket (h : Owes H d) (w : World) (pkt : RtpPacket) (iface : ℕ) :
    Owes (H ++ [.visit d (.rtp pkt iface)]) (d.onRtpPacket w pkt iface).2.2.1 := by
  have hrr := Receiver.processPacket_sendRr (d.getSource pkt.ssrc) pkt d.timestampUnit iface w
  have hssrc : ((d.getSource pkt.ssrc).processPacket pkt d.timestampUnit iface w).2.1.ssrc = pkt.ssrc := by
    rw [Source.processPacket_ssrc, d.getSource_ssrc]
  unfold ReceiverData.onRtpPacket
  generalize (d.getSource pkt.ssrc).processPacket pkt d.timestampUnit iface w = r at hrr hssrc ⊢
  obtain ⟨pkt', src, w'⟩ := r
  dsimp only at hrr hssrc ⊢
  apply h.setSource
  · rw [hrr, hssrc]
    exact (or_iff_right Bool.false_ne_true).symm
  · exact fun _ _ => rfl

theorem onRtcpSrPacket (h : Owes H d) (w : World) (pkt : RtcpSrPacket) (subflowId : UInt16) (iface : ℕ) :
    Owes (H ++ [.visit d (.rtcp (.sr pkt subflowId) iface)])
      (d.onRtcpSrPacket w pkt subflowId iface).1 := by
  have hrr := (d.getSource pkt.senderSsrc).processSrPacket_sendRr pkt subflowId iface w
  have hssrc : ((d.getSource pkt.senderSsrc).processSrPacket pkt subflowId iface w).1.ssrc =
      pkt.senderSsrc := by
    rw [Source.processSrPacket_ssrc, d.getSource_ssrc]
  unfold ReceiverData.onRtcpSrPacket
  generalize (d.getSource pkt.senderSsrc).processSrPacket pkt subflowId iface w = r at hrr hssrc ⊢
  obtain ⟨src, w'⟩ := r
  dsimp only at hrr hssrc ⊢
  apply h.setSource
  · rw [hrr, hssrc, Call.srFor_sr, Bool.or_eq_true, decide_eq_true_iff]
    refine or_congr_left ?_
    by_cases hid : subflowId = 0
    · rw [if_pos ⟨rfl, hid.symm⟩]
      exact iff_of_true hid rfl
    · rw [if_neg fun hc => hid hc.2.symm]
      exact iff_of_false hid Bool.false_ne_true
  · intro ssrc hs
    exact if_neg fun hc => hs (hc.1.trans hssrc.symm)

theorem poll {before after : List Source} {src : Source} {w : World} (h : Owes H d)
    (hd : d.sources = before ++ src :: after) : (src.poll w).Sat SentOwed H fun H' r =>
      Owes H' { d with sources := before ++ r.1 :: after } := by
  have hpoll : Owes (H ++ [.poll src]) d := h.concat fun _ => ⟨fun hno => hno, fun hno => hno⟩
  have hsrc : src ∈ d.sources := by simp [hd]
  have hget := ReceiverData.getSource_of_mem h.ordered hsrc
  refine src.poll_sat (Q := fun H' src' => Owes H' { d with sources := before ++ src' :: after }) w
    trivial ?_ (fun _ => trivial) ?_
  · intro _
    rw [← hd]
    exact hpoll
  · intro sf hrr _ _
    have hreport : Owes (H ++ [.poll src] ++ [src.reportEvent w]) d :=
      hpoll.concat fun _ => ⟨fun hno => hno, fun hno => hno⟩
    constructor
    · refine (hreport.owed src.ssrc).mp ?_
      rw [hget]
      exact hrr
    · have hssrc : src.reported.ssrc = src.ssrc := rfl
      rw [ReceiverData.setSource_replace h.ordered hd hssrc]
      refine ⟨h.ordered.insert _, ?_⟩
      intro ssrc
      rw [ReceiverData.getSource_setSource h.ordered]
      by_cases hs : ssrc = src.reported.ssrc
      · rw [if_pos hs]
        refine iff_of_false Bool.false_ne_true (not_owed_answered (fun hno => hno) ?_)
        exact hs.symm
      · rw [if_neg hs, hreport.owed ssrc]
        exact (owed_of_neither (e := .sent src.ssrc (src.reportDatagram w sf)) (fun hno => hno)
          fun heq => hs heq.symm).symm

end Owes

theorem Source.poll_sendRr (src : Source) (w : World) {H : List ReceiverEvent} :
    (src.poll w).Sat (fun _ _ => True) H fun _ r => r.1.sendRr = false :=
  src.poll_sat (Q := fun _ src' => src'.sendRr = false) w trivial (fun hrr => hrr) (fun _ => trivial)
    fun _ _ _ _ => ⟨trivial, rfl⟩

namespace Receiver

theorem keptByParts_owes : KeptByParts (fun _ => True) SentOwed fun H d _ => Owes H d where
  rtp := fun H d packets w raw pkt i _ _ h => ⟨trivial, h.onRtpPacket w pkt i⟩
  sr := fun H d packets w pkt id i h => ⟨trivial, h.onRtcpSrPacket w pkt id i⟩
  rr := by
    intro H d packets pkt id ssrc i h
    exact ⟨trivial, h.concat fun _ => ⟨Bool.false_ne_true, fun hno => hno⟩⟩
  sources := by
    intro H d packets w h
    exact pollSources_sat (J := Owes) (fun H d before src after w hd h => h.poll hd) h w
  fetched := fun H d pkt packets h => ⟨trivial, h.concat fun _ => ⟨fun hno => hno, fun hno => hno⟩⟩

theorem pollSources_sendRr (srcs : List Source) (w : World) {H : List ReceiverEvent} :
    (pollSources srcs w).Sat (fun _ _ => True) H fun _ r => ∀ src ∈ r.1, src.sendRr = false := by
  induction srcs generalizing H w with
  | nil =>
    apply Exec.sat_pure
    intro src hsrc
    cases hsrc
  | cons src srcs ih =>
    unfold pollSources
    apply Exec.sat_bind (src.poll_sendRr w)
    intro H₁ r₁ hsrc
    obtain ⟨src₁, w₁⟩ := r₁
    apply Exec.sat_bind (ih w₁)
    intro H₂ r₂ hsrcs
    obtain ⟨rest, w₂⟩ := r₂
    exact Exec.sat_pure (List.forall_mem_cons.mpr ⟨hsrc, hsrcs⟩)

/-- No source has a report to send. -/
def Settled (r : Receiver) : Prop := ∀ src ∈ r.obj.sources, src.sendRr = false

/-- A poll sends the reports that the sources have to send. -/
theorem step_settled {r : Receiver} (h : r.Settled) (e : Step) {H : List ReceiverEvent} :
    (step r e).Sat (fun _ _ => True) H fun _ r' => r'.Settled := by
  cases e with
  | addInterface addr opened =>
    apply Exec.sat_pure
    unfold Session.addInterface
    split <;> exact h
  | suspendInterface addr suspend => exact Exec.sat_pure h
  | poll fuel io =>
    unfold step poll
    refine Exec.sat_bind (Q := fun _ _ => True) Exec.sat_trivial ?_
    intro H₁ p _
    obtain ⟨r₁, status⟩ := p
    apply Exec.sat_bind (pollSources_sendRr r₁.obj.sources r₁.world)
    intro H₂ p₂ hsrcs
    obtain ⟨srcs, w⟩ := p₂
    exact Exec.sat_pure hsrcs
  | fetchPacket =>
    unfold step Session.fetchPacket
    cases hp : r.packets with
    | nil => exact Exec.sat_pure h
    | cons p ps =>
      exact Exec.sat_bind (Q := fun _ _ => True) (Exec.sat_tell trivial trivial) fun _ _ _ => Exec.sat_pure h

variable {timestampUnit : ℚ} {ssrc : UInt32} {w : World} {H : List ReceiverEvent}

/-- In every run: a receiver report about a source goes out only after a sender report on the stream of the
source, with no other report about it in between; and when a call returns, every sender report that came in has
been followed by a report about its source. -/
theorem senderReports_answered {r : Option Receiver}
    (hrun : Run step (fun _ _ _ => True) (new timestampUnit ssrc w) H r) :
    (∀ (n : ℕ) (s : UInt32) (out : OutDatagram), H[n]? = some (.sent s out) → Owed (H.take n) s) ∧
    (r.isSome → ∀ (s : UInt32) pre e post, H = pre ++ e :: post → Asks s e → ∃ e' ∈ post, Answers s e') := by
  have h₀ : Owes [] (new timestampUnit ssrc w).obj := by
    refine ⟨List.Pairwise.nil, ?_⟩
    intro s
    exact iff_of_false Bool.false_ne_true not_since_nil
  obtain ⟨hgood, hinv⟩ := keptByParts_owes.run h₀ hrun
  refine ⟨fun n s out hn => hgood n _ hn, ?_⟩
  intro hsome s pre e post hH hasks
  by_contra hnone
  have howed : Owed H s := by
    refine ⟨pre, e, post, hH, hasks, ?_⟩
    intro e' he' hanswers
    exact hnone ⟨e', he', hanswers⟩
  obtain ⟨r', rfl⟩ := Option.isSome_iff_exists.mp hsome
  have hsettled : r'.Settled := by
    have hnew : (new timestampUnit ssrc w).Settled := by
      intro src hsrc
      cases hsrc
    exact (Run.sat (I := fun _ r => Settled r) hnew (fun _ _ e h _ => step_settled h e) hrun).2 r' rfl
  have hrr := ((hinv r' rfl).owed s).mpr howed
  unfold ReceiverData.getSource at hrr
  cases hfind : Keyed.find? Source.key s.toNat r'.obj.sources with
  | none =>
    rw [hfind] at hrr
    cases hrr
  | some src =>
    rw [hfind, Option.getD_some, hsettled src (Keyed.find?_mem hfind).1] at hrr
    cases hrr

/-- The sender report is answered in the poll that it comes in. -/
theorem packetThenReport_answered :
    (∃ s out, packetThenReportLog[5]? = some (.sent s out) ∧ Owed (packetThenReportLog.take 5) s) ∧
      ∃ e' ∈ packetThenReportLog.drop 3, Answers 0xDEAD e' := by
  obtain ⟨hsent, hanswered⟩ := senderReports_answered (Run.foldlM (new 1 1 (.ticking 1000)) packetThenReport)
  have hout : (packetThenReportLog[5]?.bind ReceiverEvent.sent?).isSome := by decide +kernel
  have hcall : ∃ e ∈ packetThenReportLog[2]?, ∃ c ∈ e.call?, (c.srFor 0xDEAD 0).isSome := by decide +kernel
  have hdone : (packetThenReport.foldlM step (new 1 1 (.ticking 1000))).res.isSome := by decide +kernel
  constructor
  · obtain ⟨⟨s, out⟩, hs⟩ := Option.isSome_iff_exists.mp hout
    obtain ⟨e, he, hes⟩ := Option.bind_eq_some_iff.mp hs
    rw [ReceiverEvent.eq_sent hes] at he
    exact ⟨s, out, he, hsent 5 s out he⟩
  · obtain ⟨e, he, c, hc, hsr⟩ := hcall
    obtain ⟨hlt, hget⟩ := List.getElem?_eq_some_iff.mp he
    have hsplit : packetThenReportLog = packetThenReportLog.take 2 ++ e :: packetThenReportLog.drop 3 := by
      rw [← hget, ← List.drop_eq_getElem_cons hlt, List.take_append_drop]
    have hasks : Asks 0xDEAD e := by
      cases e with
      | visit d c' =>
        cases hc
        exact hsr
      | _ => cases hc
    exact hanswered hdone 0xDEAD _ e _ hsplit hasks

end Receiver

end Mprtp
