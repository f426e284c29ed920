import Mprtp.Receiver.Reports
import Mprtp.Receiver.Stats
import Mprtp.Source.Packets

/-! The sender reports that a receiver stores, and what its own reports say of them. -/
namespace Mprtp

/-- The middle 32 bits of a 64-bit NTP time. -/
def RtpNtpTime.middle (t : RtpNtpTime) : ℕ := (t.msw.toNat * 2 ^ 32 + t.lsw.toNat) / 2 ^ 16 % 2 ^ 32

theorem middle_toNat (t : RtpNtpTime) :
    ((t.msw &&& 0xFFFF) <<< 16 ||| ((t.lsw >>> 16) &&& 0xFFFF)).toNat = t.middle := by
  have hmsw := t.msw.toNat_lt
  have hlsw := t.lsw.toNat_lt
  have hhigh : ((t.msw &&& 0xFFFF) <<< 16).toNat = (t.msw.toNat % 65536) <<< 16 := by
    have hand : (t.msw &&& 0xFFFF).toNat = t.msw.toNat % 65536 := by
      rw [UInt32.toNat_and]
      exact Nat.and_two_pow_sub_one_eq_mod t.msw.toNat 16
    rw [UInt32.toNat_shiftLeft, hand]
    simp only [Nat.shiftLeft_eq, UInt32.reduceToNat, Nat.reduceMod, Nat.reducePow]
    omega
  have hlow : ((t.lsw >>> 16) &&& 0xFFFF).toNat = t.lsw.toNat / 65536 := by
    have hshift : (t.lsw >>> 16).toNat = t.lsw.toNat / 65536 := by
      rw [UInt32.toNat_shiftRight]
      simp only [Nat.shiftRight_eq_div_pow, UInt32.reduceToNat, Nat.reduceMod, Nat.reducePow]
    rw [UInt32.toNat_and, hshift]
    have hmod := Nat.and_two_pow_sub_one_eq_mod (t.lsw.toNat / 65536) 16
    have hlt : t.lsw.toNat / 65536 < 2 ^ 16 := by omega
    rw [Nat.mod_eq_of_lt hlt] at hmod
    exact hmod
  have hlt : t.lsw.toNat / 65536 < 2 ^ 16 := by omega
  rw [UInt32.toNat_or, hhigh, hlow, ← Nat.shiftLeft_add_eq_or_of_lt hlt, Nat.shiftLeft_eq]
  unfold RtpNtpTime.middle
  omega

/-- The time since a sender report, in units of 1/65536 seconds. -/
def RtcpSrPacket.since (sr : RtcpSrPacket) (now : RtpTime) : UInt32 := truncU32 ((now - sr.recvTime) * 65536)

/-- LSR and DLSR as a report block at the time `now` has to have them when `sr` is the last sender
report for what the block is about. -/
def lastSrDue (sr : Option RtcpSrPacket) (now : RtpTime) : ℕ × UInt32 :=
  match sr with
  | none => (0, 0)
  | some sr => (sr.ntpTime.middle, sr.since now)

theorem lastSrFields_due (sr : Option RtcpSrPacket) (now : RtpTime) :
    ((SourceStats.lastSrFields sr now).1.toNat, (SourceStats.lastSrFields sr now).2) = lastSrDue sr now := by
  cases sr with
  | none => rfl
  | some sr =>
    have hmiddle := middle_toNat sr.ntpTime
    exact Prod.ext hmiddle rfl

/-- The sender report of a call, if it is for a subflow of a source; the id 0 stands for the stream. -/
def Call.srFor (ssrc : UInt32) (id : UInt16) : Call → Option RtcpSrPacket
  | .rtcp (.sr pkt subflowId) _ => if ssrc = pkt.senderSsrc ∧ id = subflowId then some pkt else none
  | _ => none

theorem Call.srFor_sr (ssrc : UInt32) (id : UInt16) (pkt : RtcpSrPacket) (subflowId : UInt16) (i : ℕ) :
    (Call.rtcp (.sr pkt subflowId) i).srFor ssrc id =
      if ssrc = pkt.senderSsrc ∧ id = subflowId then some pkt else none := rfl

/-- The last sender report for a subflow of a source. -/
def lastSr (H : List ReceiverEvent) (ssrc : UInt32) (id : UInt16) : Option RtcpSrPacket :=
  ((callsOf H).filterMap (Call.srFor ssrc id)).getLast?

theorem lastSr_visit (H : List ReceiverEvent) (d : ReceiverData) (c : Call) (ssrc : UInt32) (id : UInt16) :
    lastSr (H ++ [.visit d c]) ssrc id = (c.srFor ssrc id).or (lastSr H ssrc id) := by
  unfold lastSr callsOf
  rw [List.filterMap_append, List.filterMap_append]
  cases h : c.srFor ssrc id <;> simp [ReceiverEvent.call?, h]

theorem lastSr_of_call?_none {H : List ReceiverEvent} {e : ReceiverEvent} (h : e.call? = none)
    (ssrc : UInt32) (id : UInt16) : lastSr (H ++ [e]) ssrc id = lastSr H ssrc id := by
  unfold lastSr callsOf
  rw [List.filterMap_append]
  simp [h]

namespace Source

variable (src : Source)

/-- The sender report stored for a subflow, or for the stream. -/
def storedSr (id : UInt16) : Option RtcpSrPacket :=
  if id = 0 then src.lastSenderReport
  else (src.subflows.find? fun sf => sf.subflowId = id).bind Subflow.lastSenderReport

theorem findSubflow_storedSr (id : UInt16) (addr : Endpoint) (iface : ℕ) (w : World) (j : UInt16) :
    (src.findSubflow id addr iface w).2.1.storedSr j = src.storedSr j := by
  unfold findSubflow
  cases hfind : src.findSubflow? id with
  | some k => rfl
  | none =>
    have habsent : src.subflows.find? (fun sf => sf.subflowId = id) = none := by
      simpa [findSubflow?] using hfind
    dsimp only
    unfold storedSr
    by_cases hj : j = 0
    · rw [if_pos hj, if_pos hj]
    · rw [if_neg hj, if_neg hj, List.find?_append, List.find?_singleton]
      by_cases hid : j = id
      · rw [hid, habsent, Option.none_or, if_pos (by simp [Subflow.new])]
        rfl
      · rw [if_neg (by simpa [Subflow.new] using Ne.symm hid), Option.or_none]

/-- Replacing a subflow by one with the same id. -/
theorem storedSr_set {k : ℕ} {id : UInt16} {sf' : Subflow} (hk : src.findSubflow? id = some k)
    (hid : sf'.subflowId = id) (j : UInt16) :
    { src with subflows := src.subflows.set k sf' }.storedSr j =
      if j = id ∧ j ≠ 0 then sf'.lastSenderReport else src.storedSr j := by
  unfold storedSr
  dsimp only
  rw [find?_set_subflow hk hid]
  by_cases hj : j = 0
  · rw [if_pos hj, if_pos hj, if_neg fun h => h.2 hj]
  · rw [if_neg hj, if_neg hj]
    by_cases hid : j = id
    · rw [if_pos hid, if_pos ⟨hid, hj⟩]
      rfl
    · rw [if_neg hid, if_neg fun h => hid h.1]

theorem storedSr_getElem {k : ℕ} {id : UInt16} {sf : Subflow} (hk : src.findSubflow? id = some k)
    (hget : src.subflows[k]? = some sf) (hid : id ≠ 0) : src.storedSr id = sf.lastSenderReport := by
  obtain ⟨hlt, hp, hbefore⟩ := List.findIdx?_eq_some_iff_getElem.mp hk
  have hsf : src.subflows[k] = sf := (List.getElem?_eq_some_iff.mp hget).2
  have hfirst : src.subflows.find? (fun sf => sf.subflowId = id) = some sf := by
    rw [List.find?_eq_some_iff_getElem]
    exact ⟨hsf ▸ hp, k, hlt, hsf, fun j hj => by simpa using hbefore j hj⟩
  unfold storedSr
  rw [if_neg hid, hfirst]
  rfl

/-- An RTP packet leaves the sender reports as they are. -/
theorem processOnSubflow_storedSr (pack : RtpPacket) (tsunit : ℚ) (iface : ℕ) (w : World) (j : UInt16) :
    (src.processOnSubflow pack tsunit iface w).2.1.storedSr j = src.storedSr j := by
  obtain ⟨-, hfind, sf, hget, hid, -⟩ := src.findSubflow_stat pack.subflowId pack.fromAddress iface w
  have hstored := src.findSubflow_storedSr pack.subflowId pack.fromAddress iface w
  unfold processOnSubflow
  generalize src.findSubflow pack.subflowId pack.fromAddress iface w = found at hfind hget hstored ⊢
  obtain ⟨k, src₁, w₁⟩ := found
  dsimp only at hfind hget hstored ⊢
  rw [hget]
  dsimp only
  have hid' : (sf.processRtpPacket pack tsunit).1.subflowId = pack.subflowId := hid
  rw [src₁.storedSr_set hfind hid', ← hstored]
  split
  · rename_i hj
    rw [hj.1]
    exact (src₁.storedSr_getElem hfind hget (hj.1 ▸ hj.2)).symm
  · rfl

theorem processPacket_storedSr (pack : RtpPacket) (tsunit : ℚ) (iface : ℕ) (w : World) (j : UInt16) :
    (src.processPacket pack tsunit iface w).2.1.storedSr j = src.storedSr j := by
  unfold processPacket
  generalize src.stat.processPacket pack false tsunit = r₀
  obtain ⟨stat, pack₀⟩ := r₀
  dsimp only
  have hstored := { src with stat }.processOnSubflow_storedSr pack₀ tsunit iface w j
  generalize { src with stat }.processOnSubflow pack₀ tsunit iface w = r₁ at hstored ⊢
  obtain ⟨pack₁, src₁, w₁⟩ := r₁
  dsimp only at hstored ⊢
  split <;> exact hstored

/-- A sender report replaces the one for the same subflow. -/
theorem processSrPacket_storedSr (pkt : RtcpSrPacket) (id : UInt16) (iface : ℕ) (w : World)
    (j : UInt16) : (src.processSrPacket pkt id iface w).1.storedSr j =
      if j = id then some pkt else src.storedSr j := by
  unfold processSrPacket
  by_cases hid : id = 0
  · rw [if_pos hid]
    unfold storedSr
    by_cases hj : j = 0
    · rw [if_pos hj, if_pos (hj.trans hid.symm)]
    · rw [if_neg hj, if_neg hj, if_neg fun h => hj (h.trans hid)]
  · rw [if_neg hid]
    obtain ⟨-, hfind, sf, hget, hsf, -⟩ := src.findSubflow_stat id pkt.recvFrom iface w
    have hstored := src.findSubflow_storedSr id pkt.recvFrom iface w
    generalize src.findSubflow id pkt.recvFrom iface w = found at hfind hget hstored ⊢
    obtain ⟨k, src₁, w₁⟩ := found
    dsimp only at hfind hget hstored ⊢
    rw [hget]
    dsimp only
    have hsf' : (sf.processSrPacket pkt).subflowId = id := hsf
    rw [src₁.storedSr_set hfind hsf', hstored]
    by_cases hj : j = id
    · rw [if_pos hj, if_pos ⟨hj, hj ▸ hid⟩]
      rfl
    · rw [if_neg hj, if_neg fun h => hj h.1]

theorem reported_storedSr (j : UInt16) : src.reported.storedSr j = src.storedSr j := by
  unfold storedSr
  rw [find?_reported]
  cases src.subflows.find? fun sf => sf.subflowId = j with
  | none => rfl
  | some sf => rfl

end Source

/-- Every source stores the last sender reports. -/
structure StoresSrs (H : List ReceiverEvent) (d : ReceiverData) : Prop where
  ordered : Keyed.Ordered Source.key d.sources
  stored : ∀ ssrc id, (d.getSource ssrc).storedSr id = lastSr H ssrc id

/-- The report in `out` is the one that `src`, which stores the last sender reports, has built when it was
polled in the world `w`. -/
structure Source.SentWithSrs (src : Source) (w : World) (H : List ReceiverEvent) (s : UInt32)
    (out : OutDatagram) : Prop where
  polled : .poll src ∈ H
  ssrc : src.ssrc = s
  data : out.data = (src.buildReport w).1 ++ (src.buildReport w).2.1
  fits : (src.buildReport w).2.1.length ≤ maxPacketSize
  stored : ∀ id, src.storedSr id = lastSr H s id

/-- A report that is sent comes from one of the sources in `met`. -/
def SentByOne (met : List (Source × World)) (H : List ReceiverEvent) : ReceiverEvent → Prop
  | .sent s out => ∃ src w, (src, w) ∈ met ∧ src.SentWithSrs w H s out
  | _ => True

namespace StoresSrs

variable {H : List ReceiverEvent} {d : ReceiverData}

theorem concat (h : StoresSrs H d) {e : ReceiverEvent} (he : e.call? = none) : StoresSrs (H ++ [e]) d := by
  refine ⟨h.ordered, ?_⟩
  intro ssrc id
  rw [lastSr_of_call?_none he]
  exact h.stored ssrc id

/-- A source is stored that has the same sender reports but for what the call brings. -/
theorem setSource (h : StoresSrs H d) {src : Source} {c : Call}
    (hcall : ∀ id, src.storedSr id = (c.srFor src.ssrc id).or (lastSr H src.ssrc id))
    (hother : ∀ ssrc id, ssrc ≠ src.ssrc → c.srFor ssrc id = none) :
    StoresSrs (H ++ [.visit d c]) (d.setSource src) := by
  refine ⟨h.ordered.insert _, ?_⟩
  intro ssrc id
  rw [ReceiverData.getSource_setSource h.ordered, lastSr_visit]
  by_cases hs : ssrc = src.ssrc
  · rw [if_pos hs, hs]
    exact hcall id
  · rw [if_neg hs, hother ssrc id hs, Option.none_or]
    exact h.stored ssrc id

theorem onRtpPacket (h : StoresSrs H d) (w : World) (pkt : RtpPacket) (iface : ℕ) :
    StoresSrs (H ++ [.visit d (.rtp pkt iface)]) (d.onRtpPacket w pkt iface).2.2.1 := by
  have hstored := (d.getSource pkt.ssrc).processPacket_storedSr pkt d.timestampUnit iface w
  have hssrc : ((d.getSource pkt.ssrc).processPacket pkt d.timestampUnit iface w).2.1.ssrc = pkt.ssrc := by
    rw [Source.processPacket_ssrc, d.getSource_ssrc]
  unfold ReceiverData.onRtpPacket
  generalize (d.getSource pkt.ssrc).processPacket pkt d.timestampUnit iface w = r at hstored hssrc ⊢
  obtain ⟨pkt', src, w'⟩ := r
  dsimp only at hstored hssrc ⊢
  apply h.setSource
  · intro id
    rw [hstored id, h.stored, hssrc]
    rfl
  · exact fun _ _ _ => rfl

theorem onRtcpSrPacket (h : StoresSrs H d) (w : World) (pkt : RtcpSrPacket) (subflowId : UInt16)
    (iface : ℕ) : StoresSrs (H ++ [.visit d (.rtcp (.sr pkt subflowId) iface)])
      (d.onRtcpSrPacket w pkt subflowId iface).1 := by
  have hstored := (d.getSource pkt.senderSsrc).processSrPacket_storedSr pkt subflowId iface w
  have hssrc : ((d.getSource pkt.senderSsrc).processSrPacket pkt subflowId iface w).1.ssrc =
      pkt.senderSsrc := by
    rw [Source.processSrPacket_ssrc, d.getSource_ssrc]
  unfold ReceiverData.onRtcpSrPacket
  generalize (d.getSource pkt.senderSsrc).processSrPacket pkt subflowId iface w = r at hstored hssrc ⊢
  obtain ⟨src, w'⟩ := r
  dsimp only at hstored hssrc ⊢
  apply h.setSource
  · intro id
    rw [hstored id, h.stored, hssrc, Call.srFor_sr]
    by_cases hid : id = subflowId
    · rw [if_pos hid, if_pos ⟨rfl, hid⟩]
      rfl
    · rw [if_neg hid, if_neg fun hc => hid hc.2]
      rfl
  · intro ssrc id hs
    exact if_neg fun hc => hs (hc.1.trans hssrc.symm)

/-- A handler call. -/
theorem next (h : StoresSrs H d) (packets : List RtpPacket) (w : World) (c : Call) :
    StoresSrs (H ++ [receiverHandlers.visit d c]) (receiverHandlers.next d packets w c).1 := by
  cases c with
  | rtp pkt i => exact h.onRtpPacket w pkt i
  | rtcp call i =>
    cases call with
    | sr pkt id => exact h.onRtcpSrPacket w pkt id i
    | rr pkt id ssrc =>
      refine ⟨h.ordered, ?_⟩
      intro ssrc' id'
      have hlast := lastSr_visit H d (.rtcp (.rr pkt id ssrc) i) ssrc' id'
      exact (h.stored ssrc' id').trans hlast.symm

theorem poll {before after : List Source} {src : Source} {w : World} {met : List (Source × World)}
    (h : StoresSrs H d) (hd : d.sources = before ++ src :: after) (hmet : (src, w) ∈ met) :
    (src.poll w).Sat (SentByOne met) H fun H' r =>
      StoresSrs H' { d with sources := before ++ r.1 :: after } := by
  have hpoll : StoresSrs (H ++ [.poll src]) d := h.concat rfl
  have hsrc : src ∈ d.sources := by simp [hd]
  have hget := ReceiverData.getSource_of_mem h.ordered hsrc
  refine src.poll_sat (Q := fun H' src' => StoresSrs H' { d with sources := before ++ src' :: after }) w
    trivial ?_ (fun _ => trivial) ?_
  · intro _
    rw [← hd]
    exact hpoll
  · intro sf _ hfits _
    have hreport : StoresSrs (H ++ [.poll src] ++ [src.reportEvent w]) d := hpoll.concat rfl
    constructor
    · refine ⟨src, w, hmet, by simp, rfl, rfl, hfits, ?_⟩
      intro id
      rw [← hreport.stored, hget]
    · have hssrc : src.reported.ssrc = src.ssrc := rfl
      have hsent := hreport.concat (e := .sent src.ssrc (src.reportDatagram w sf)) rfl
      rw [ReceiverData.setSource_replace h.ordered hd hssrc]
      refine ⟨h.ordered.insert _, ?_⟩
      intro ssrc id
      rw [ReceiverData.getSource_setSource h.ordered, ← hsent.stored]
      by_cases hs : ssrc = src.reported.ssrc
      · rw [if_pos hs, src.reported_storedSr, hs, hssrc, hget]
      · rw [if_neg hs]

end StoresSrs

namespace Receiver

/-- The sources that a call polls, each with the world in which it is polled. -/
def met (r : Receiver) : Step → List (Source × World)
  | .poll fuel io => (Session.poll receiverHandlers fuel io r).res.toList.flatMap fun p =>
      sourcesMet p.1.obj.sources p.1.world
  | _ => []

/-- The source is polled in the world `w` by the call that is under way. -/
def PolledIn (H : List ((Receiver × Step) ⊕ ReceiverEvent)) (src : Source) (w : World) : Prop :=
  ∃ r e, lastCall? H = some (r, e) ∧ (src, w) ∈ met r e

section

variable {H : List ReceiverEvent} {r : Receiver}

theorem poll_srs (h : StoresSrs H r.obj) (fuel : ℕ) (io : PollInput) :
    (Receiver.poll fuel io r).Sat (SentByOne (met r (.poll fuel io))) H fun H' r' => StoresSrs H' r'.obj := by
  have hbrings : io.Brings fun _ => True := fun _ _ _ _ => trivial
  have hkeeps : ∀ f ∈ r.interfaces, f.Keeps fun _ => True := fun _ _ _ _ => trivial
  have hsession : (Session.poll receiverHandlers fuel io r).Sat (SentByOne (met r (.poll fuel io))) H
      fun H' p => StoresSrs H' p.1.obj ∧ ∀ f ∈ p.1.interfaces, f.Keeps fun _ => True := by
    refine Session.poll_obj (I := fun H d _ => StoresSrs H d) ?_ hbrings hkeeps h
    intro H d packets w raw c i _ _ hd
    exact ⟨by cases c <;> trivial, hd.next packets w c⟩
  unfold Receiver.poll
  apply Exec.sat_bind hsession.res
  intro H₁ p h₁
  obtain ⟨r₁, status⟩ := p
  obtain ⟨⟨hI₁, -⟩, hres⟩ := h₁
  have hmet : met r (.poll fuel io) = sourcesMet r₁.obj.sources r₁.world := by
    rw [met, hres, Option.toList_some, List.flatMap_singleton]
  rw [hmet]
  apply Exec.sat_bind (pollSources_sat_met (J := StoresSrs)
    (fun H d before src after w hd hin hd' => hd'.poll hd hin) hI₁)
  intro H₂ p₂ hI₂
  obtain ⟨srcs, w⟩ := p₂
  exact Exec.sat_pure hI₂

theorem step_srs (h : StoresSrs H r.obj) (e : Step) :
    (step r e).Sat (SentByOne (met r e)) H fun H' r' => StoresSrs H' r'.obj := by
  cases e with
  | addInterface addr opened =>
    apply Exec.sat_pure
    unfold Session.addInterface
    split
    · exact h
    · exact h
  | suspendInterface addr suspend => exact Exec.sat_pure h
  | poll fuel io => exact poll_srs h fuel io
  | fetchPacket =>
    unfold Receiver.step Session.fetchPacket
    cases r.packets with
    | nil => exact Exec.sat_pure h
    | cons p ps =>
      refine Exec.sat_bind (Q := fun H' _ => StoresSrs H' r.obj)
        (Exec.sat_tell trivial (h.concat rfl)) ?_
      exact fun _ _ h' => Exec.sat_pure h'

end

theorem storesSrs_new (timestampUnit : ℚ) (ssrc : UInt32) (w : World) :
    StoresSrs [] (new timestampUnit ssrc w).obj where
  ordered := List.Pairwise.nil
  stored := by
    intro _ id
    unfold ReceiverData.getSource Source.storedSr
    split
    · rfl
    · rfl

/-- In every run, with its calls noted: which source has built a report, and in which world. -/
theorem run_sentWithSrs {timestampUnit : ℚ} {ssrc : UInt32} {w : World}
    {H : List ((Receiver × Step) ⊕ ReceiverEvent)} {r : Option Receiver}
    (hrun : Run (noting step) (fun _ _ _ => True) (new timestampUnit ssrc w) H r) {n : ℕ} {s : UInt32}
    {out : OutDatagram} (hn : H[n]? = some (.inr (.sent s out))) :
    ∃ src w, PolledIn (H.take n) src w ∧ src.SentWithSrs w (told (H.take n)) s out := by
  let good : List ((Receiver × Step) ⊕ ReceiverEvent) → (Receiver × Step) ⊕ ReceiverEvent → Prop :=
    fun H a => ∀ s out, a = .inr (.sent s out) →
      ∃ src w, PolledIn H src w ∧ src.SentWithSrs w (told H) s out
  have hstep : ∀ H (r : Receiver) e, StoresSrs (told H) r.obj → True →
      (noting step r e).Sat good H fun H' r' => StoresSrs (told H') r'.obj := by
    intro H r e h _
    refine Exec.sat_noting ?_ (step_srs h e) ?_ ?_
    · intro s out heq
      cases heq
    · intro L a ha s out heq
      cases heq
      obtain ⟨src, w, hmet, hsent⟩ := ha
      refine ⟨src, w, ⟨r, e, lastCall?_noted H r e L, hmet⟩, ?_⟩
      rw [told_noted]
      exact hsent
    · intro L r' h'
      rw [told_noted]
      exact h'
  exact Run.sat_getElem (I := fun H (r : Receiver) => StoresSrs (told H) r.obj)
    (storesSrs_new timestampUnit ssrc w) hstep hrun hn s out rfl

end Receiver

/-- A block has the LSR and DLSR of the sender report that the source stores for its stream. -/
theorem rrSent_srFields (st : SourceStats) (ssrc : UInt32) (sr : Option RtcpSrPacket) (w : World)
    (recvFrom : Endpoint) (recvtime : RtpTime) :
    ((st.rrSent ssrc sr w recvFrom recvtime).lsr.toNat, (st.rrSent ssrc sr w recvFrom recvtime).dlsr) =
      lastSrDue sr w.now := by
  rw [← lastSrFields_due]
  rfl

theorem subflowCalls_length (src : Source) (recvFrom : Endpoint) (recvtime : RtpTime) (sfs : List Subflow)
    (w : World) : (src.subflowCalls recvFrom recvtime sfs w).length = sfs.length := by
  induction sfs generalizing w with
  | nil => rfl
  | cons sf sfs ih =>
    unfold Source.subflowCalls
    rw [List.length_cons, List.length_cons, ih]

/-- The call for the block of the subflow `k`, and when the block was written. -/
theorem subflowCalls_getElem? {src : Source} {recvFrom : Endpoint} {recvtime : RtpTime}
    {sfs : List Subflow} {w : World} {k : ℕ} {c : RtcpCall}
    (hc : (src.subflowCalls recvFrom recvtime sfs w)[k]? = some c) : ∃ sf rr, sfs[k]? = some sf ∧
      c = .rr rr sf.subflowId src.senderSsrc ∧
      (rr.lsr.toNat, rr.dlsr) = lastSrDue src.lastSenderReport (w.clock k) := by
  induction sfs generalizing w k with
  | nil => cases hc
  | cons sf sfs ih =>
    unfold Source.subflowCalls at hc
    cases k with
    | zero =>
      rw [List.getElem?_cons_zero] at hc
      obtain rfl := Option.some.inj hc
      have hrr := rrSent_srFields sf.recvStat src.ssrc src.lastSenderReport w recvFrom recvtime
      exact ⟨sf, _, rfl, rfl, hrr⟩
    | succ k =>
      rw [List.getElem?_cons_succ] at hc
      obtain ⟨sf', rr, hget, hcall, hrr⟩ := ih hc
      exact ⟨sf', rr, hget, hcall, hrr⟩

/-- Two last sender reports make the same LSR and DLSR at the time `now`: both have the same middle
part of the NTP time and came as long ago, or one is missing and these are zero for the other. -/
def SameSrFields : Option RtcpSrPacket → Option RtcpSrPacket → RtpTime → Prop
  | some a, some b, now => a.ntpTime.middle = b.ntpTime.middle ∧ a.since now = b.since now
  | some a, none, now => a.ntpTime.middle = 0 ∧ a.since now = 0
  | none, some b, now => b.ntpTime.middle = 0 ∧ b.since now = 0
  | none, none, _ => True

theorem sameSrFields_iff (a b : Option RtcpSrPacket) (now : RtpTime) :
    lastSrDue a now = lastSrDue b now ↔ SameSrFields a b now := by
  cases a with
  | none =>
    cases b with
    | none => exact iff_of_true rfl trivial
    | some b => exact eq_comm.trans Prod.ext_iff
  | some a =>
    cases b with
    | none => exact Prod.ext_iff
    | some b => exact Prod.ext_iff

def RtcpCall.rr? : RtcpCall → Option (RtcpRrPacket × UInt16 × UInt32)
  | .rr pkt subflowId senderSsrc => some (pkt, subflowId, senderSsrc)
  | .sr _ _ => none

theorem RtcpCall.eq_rr {c : RtcpCall} {pkt : RtcpRrPacket} {id : UInt16} {ssrc : UInt32}
    (h : c.rr? = some (pkt, id, ssrc)) : c = .rr pkt id ssrc := by
  cases c with
  | rr _ _ _ =>
    cases h
    rfl
  | sr _ _ => cases h

namespace Receiver

/-- In every run, whatever sender reports came, every source stores the last one for its stream and for
each subflow. The report that it sends has LSR and DLSR of the last one for the stream in the block
about the stream; in the block about a subflow, they are those of the last one for the subflow
exactly when the last one for the stream makes the same. The time of the block `k` is the reading `k + 1`
of the clock from when the source was polled, behind the one that `source::poll` itself takes. -/
theorem sent_srs_due_iff {timestampUnit : ℚ} {ssrc : UInt32} {w₀ : World}
    {H : List ((Receiver × Step) ⊕ ReceiverEvent)} {r : Option Receiver}
    (hrun : Run (noting step) (fun _ _ _ => True) (new timestampUnit ssrc w₀) H r)
    {n : ℕ} {s : UInt32} {out : OutDatagram} (hn : H[n]? = some (.inr (.sent s out))) :
    ∃ src w, PolledIn (H.take n) src w ∧ .poll src ∈ told (H.take n) ∧ src.ssrc = s ∧
      out.data = (src.buildReport w).1 ++ (src.buildReport w).2.1 ∧
      (∀ id, src.storedSr id = lastSr (told (H.take n)) s id) ∧
      ∀ (raw : RawPacket) (fuel : ℕ), raw.data = out.data → raw.dataLen < fuel →
        (raw.rtcpCalls fuel).1.length = src.subflows.length + 1 ∧
        ∀ k c, (raw.rtcpCalls fuel).1[k]? = some c → ∃ rr id, c = .rr rr id src.senderSsrc ∧
          (0 :: src.subflows.map Subflow.subflowId)[k]? = some id ∧
          (k = 0 → (rr.lsr.toNat, rr.dlsr) =
            lastSrDue (lastSr (told (H.take n)) s 0) (w.clock (k + 1))) ∧
          ((rr.lsr.toNat, rr.dlsr) = lastSrDue (lastSr (told (H.take n)) s id) (w.clock (k + 1)) ↔
            SameSrFields (lastSr (told (H.take n)) s 0) (lastSr (told (H.take n)) s id)
              (w.clock (k + 1))) := by
  obtain ⟨src, w, hpolled, hpoll, hssrc, hdata, hfits, hstored⟩ := run_sentWithSrs hrun hn
  generalize told (H.take n) = L at hpoll hstored ⊢
  have hstream : src.lastSenderReport = lastSr L s 0 := hstored 0
  refine ⟨src, w, hpolled, hpoll, hssrc, hdata, hstored, ?_⟩
  intro raw fuel hraw hfuel
  rw [src.buildReport_calls w hfits (hraw.trans hdata) hfuel]
  dsimp only
  have hblock : ∀ (rr : RtcpRrPacket) (id : UInt16) (now : RtpTime),
      (rr.lsr.toNat, rr.dlsr) = lastSrDue src.lastSenderReport now →
      ((rr.lsr.toNat, rr.dlsr) = lastSrDue (lastSr L s id) now ↔
        SameSrFields (lastSr L s 0) (lastSr L s id) now) := by
    intro rr id now hrr
    rw [hrr, hstream, sameSrFields_iff]
  constructor
  · rw [List.length_cons, subflowCalls_length]
  · intro k c hc
    cases k with
    | zero =>
      cases hc
      have hrr := rrSent_srFields src.stat src.ssrc src.lastSenderReport w.tick raw.fromAddr raw.recvtime
      refine ⟨_, 0, rfl, rfl, fun _ => ?_, hblock _ 0 _ hrr⟩
      rw [hrr, hstream]
      rfl
    | succ k =>
      obtain ⟨sf, rr, hsf, rfl, hrr⟩ := subflowCalls_getElem? hc
      refine ⟨rr, sf.subflowId, rfl, ?_, fun h0 => absurd h0 (Nat.succ_ne_zero k), hblock rr _ _ hrr⟩
      rw [List.getElem?_cons_succ, List.getElem?_map, hsf]
      rfl

/-- The receiver report as its receiver holds it. -/
def receivedReport (out : OutDatagram) : RawPacket := ⟨out.data, fun _ => 0, ⟨0x0A000002, 22001⟩, true, 1⟩

/-- A sender report on the stream whose NTP time is five seconds. -/
def timedReport : List UInt8 :=
  [0x80, 200, 0, 6, 0, 0, 0xDE, 0xAD, 0, 0, 0, 5] ++ List.replicate 16 0

/-- The same report on the stream and on subflow 1. -/
def timedCompound : List UInt8 :=
  timedReport ++ [0x80, 211, 0, 10, 0, 0, 0xDE, 0xAD, 0, 0, 0xDE, 0xAD, 0, 8, 0, 1] ++ timedReport

def packetThenTimedCompound : List Step :=
  [.addInterface ⟨0x0A000002, 22000⟩ true,
    .poll 10 (.arrive false ⟨0x0A000001, 23000⟩ [subflowPacket]),
    .poll 10 (.arrive true ⟨0x0A000001, 23001⟩ [timedCompound])]

def packetThenTimedCompoundLog : List ((Receiver × Step) ⊕ ReceiverEvent) :=
  (packetThenTimedCompound.foldlM (noting step) (new 1 1 (.ticking 1000))).log

/-- The last sender reports on the stream and on subflow 1 came together and say the same. The block about
subflow 1 is written three seconds later. -/
theorem timedCompound_srs_due : ∃ out src w sr rr,
    packetThenTimedCompoundLog[9]? = some (.inr (.sent 0xDEAD out)) ∧
    PolledIn (packetThenTimedCompoundLog.take 9) src w ∧
    lastSr (told (packetThenTimedCompoundLog.take 9)) 0xDEAD 1 = some sr ∧
    ((receivedReport out).rtcpCalls 200).1[1]? = some (.rr rr 1 src.senderSsrc) ∧
    (rr.lsr.toNat, rr.dlsr) = (sr.ntpTime.middle, sr.since (w.clock 2)) ∧
    rr.lsr = 0x00050000 ∧ rr.dlsr = 3 * 65536 := by
  have hsome : ∃ so ∈ (packetThenTimedCompoundLog[9]?.bind Sum.getRight?).bind ReceiverEvent.sent?,
      so.1 = 0xDEAD ∧ (receivedReport so.2).dataLen < 200 ∧
      (∃ sr ∈ lastSr (told (packetThenTimedCompoundLog.take 9)) 0xDEAD 1,
        lastSr (told (packetThenTimedCompoundLog.take 9)) 0xDEAD 0 = some sr) ∧
      ∃ rp ∈ ((receivedReport so.2).rtcpCalls 200).1[1]?.bind RtcpCall.rr?,
        rp.2.1 = 1 ∧ rp.1.lsr = 0x00050000 ∧ rp.1.dlsr = 3 * 65536 := by decide +kernel
  obtain ⟨⟨s, out⟩, hso, hs, hlen, ⟨sr, hsr, hstream⟩, ⟨rr, id, peer⟩, hrp, hid, hlsr, hdlsr⟩ := hsome
  obtain ⟨e, he, hep⟩ := Option.bind_eq_some_iff.mp hso
  obtain ⟨a, ha, hae⟩ := Option.bind_eq_some_iff.mp he
  rw [Sum.getRight?_eq_some_iff.mp hae, ReceiverEvent.eq_sent hep] at ha
  obtain ⟨c, hc, hcr⟩ := Option.bind_eq_some_iff.mp hrp
  rw [RtcpCall.eq_rr hcr] at hc
  dsimp only at hs hid hlsr hdlsr
  subst hs hid
  have hrun : Run (noting step) (fun _ _ _ => True) (new 1 1 (.ticking 1000)) packetThenTimedCompoundLog _ :=
    Run.foldlM _ packetThenTimedCompound
  obtain ⟨src, w, hpolled, -, -, -, -, hcalls⟩ := sent_srs_due_iff hrun ha
  obtain ⟨rr', id', heq, -, -, hiff⟩ := (hcalls (receivedReport out) 200 rfl hlen).2 1 _ hc
  cases heq
  rw [hstream, Option.mem_def.mp hsr] at hiff
  have hdue := hiff.mpr ⟨rfl, rfl⟩
  exact ⟨out, src, w, sr, rr, ha, hpolled, hsr, hc, hdue, hlsr, hdlsr⟩

def packetThenTimedReport : List Step :=
  [.addInterface ⟨0x0A000002, 22000⟩ true,
    .poll 10 (.arrive false ⟨0x0A000001, 23000⟩ [subflowPacket]),
    .poll 10 (.arrive true ⟨0x0A000001, 23001⟩ [timedReport])]

def packetThenTimedReportLog : List ReceiverEvent :=
  (packetThenTimedReport.foldlM step (new 1 1 (.ticking 1000))).log

/-- The block about a subflow without sender reports repeats the one about the stream. -/
theorem subflow_block_of_stream_sr :
    ¬ ∀ (timestampUnit : ℚ) (ssrc : UInt32) (w : World) (H : List ReceiverEvent)
      (r : Option Receiver), Run step (fun _ _ _ => True) (new timestampUnit ssrc w) H r →
        ∀ n s out, H[n]? = some (.sent s out) → ∀ (raw : RawPacket) (fuel : ℕ),
          raw.data = out.data → raw.dataLen < fuel →
          ∀ rr id peer, (raw.rtcpCalls fuel).1[1]? = some (.rr rr id peer) →
            rr.lsr.toNat = ((lastSr (H.take n) s id).map fun sr => sr.ntpTime.middle).getD 0 := by
  intro h
  have hall := h 1 1 (.ticking 1000) _ _ (Run.foldlM _ packetThenTimedReport) 5
  have hsome : ∃ so ∈ packetThenTimedReportLog[5]?.bind ReceiverEvent.sent?,
      (receivedReport so.2).dataLen < 200 ∧
      ∃ rp ∈ ((receivedReport so.2).rtcpCalls 200).1[1]?.bind RtcpCall.rr?, rp.1.lsr.toNat ≠
        ((lastSr (packetThenTimedReportLog.take 5) so.1 rp.2.1).map fun sr => sr.ntpTime.middle).getD 0 := by
    decide +kernel
  obtain ⟨⟨s, out⟩, hso, hlen, ⟨rr, id, peer⟩, hrp, hne⟩ := hsome
  obtain ⟨e, he, hep⟩ := Option.bind_eq_some_iff.mp hso
  rw [ReceiverEvent.eq_sent hep] at he
  obtain ⟨c, hc, hcr⟩ := Option.bind_eq_some_iff.mp hrp
  rw [RtcpCall.eq_rr hcr] at hc
  exact hne (hall s out he (receivedReport out) 200 rfl hlen rr id peer hc)

end Receiver

end Mprtp
