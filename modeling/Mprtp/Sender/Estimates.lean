import Mprtp.Sender.Divisors
import Mprtp.Sender.Steps

/-! The estimates of a sender follow its log: what each operation does to them. -/
namespace Mprtp

open ExtRat

namespace SenderData

/-- The bitrates of the subflows and of the stream are what the log says. -/
structure Estimates (H : List SenderEvent) (d : SenderData) : Prop where
  subflow : ∀ (k : ℕ) (sf : Subflow), d.subflows[k]? = some sf → sf.Tracked (Live k H)
  beyond : ∀ k, d.subflows.length ≤ k → ¬ Live k H
  stream : d.streamBitrate = 0 ↔ Idle H

/-- Every report that is stored was received before `T`. -/
def ReportedBefore (T : RtpTime) (d : SenderData) : Prop :=
  ∀ sf ∈ d.subflows, ∀ last, sf.lastReceiverReport = some last → last.recvTime < T

/-- During a poll that handles datagrams received from `T` on and before `U`, a subflow that has
sent since its last report had that before `T`. -/
structure InPoll (T U : RtpTime) (d : SenderData) : Prop where
  before : d.ReportedBefore U
  sent : ∀ sf ∈ d.subflows, sf.packetCountTt ≠ 0 →
    ∀ last, sf.lastReceiverReport = some last → last.recvTime < T

/-- The estimates, and the reports that they come from, are the same. -/
structure Kept (d d' : SenderData) : Prop where
  length : d'.subflows.length = d.subflows.length
  subflow : ∀ (k : ℕ) (sf' : Subflow), d'.subflows[k]? = some sf' →
    ∃ sf : Subflow, d.subflows[k]? = some sf ∧ sf.Kept sf'
  stream : d'.streamBitrate = d.streamBitrate

variable {d d' d'' : SenderData} {H : List SenderEvent} {T U : RtpTime} {w : World}

theorem Kept.of_eq (hs : d'.subflows = d.subflows) (hb : d'.streamBitrate = d.streamBitrate) :
    d.Kept d' where
  length := by rw [hs]
  subflow := by
    intro k sf hk
    exact ⟨sf, hs ▸ hk, .refl sf⟩
  stream := hb

theorem Kept.trans (h : d.Kept d') (h' : d'.Kept d'') : d.Kept d'' where
  length := h'.length.trans h.length
  subflow := by
    intro k sf'' hk
    obtain ⟨sf', hk', hs'⟩ := h'.subflow k sf'' hk
    obtain ⟨sf, hk, hs⟩ := h.subflow k sf' hk'
    exact ⟨sf, hk, hs.trans hs'⟩
  stream := h'.stream.trans h.stream

theorem Kept.set {k : ℕ} {sf sf' : Subflow} (hk : d.subflows[k]? = some sf) (hs : sf.Kept sf') :
    d.Kept { d with subflows := d.subflows.set k sf' } where
  length := List.length_set
  subflow := by
    intro j sf'' hj
    rcases SenderData.getElem?_put hj with ⟨rfl, rfl⟩ | ⟨-, hj⟩
    · exact ⟨sf, hk, hs⟩
    · exact ⟨sf'', hj, .refl sf''⟩
  stream := rfl

theorem Kept.of_reweighted {sfs : List Subflow} (hs : d.subflows.Forall₂ Subflow.Reweighted sfs)
    (b : Bool) :
    d.Kept { d with subflows := sfs, recalcDistribution := b } where
  length := hs.length_eq.symm
  subflow := by
    intro k sf' hk
    obtain ⟨hlt, rfl⟩ := List.getElem?_eq_some_iff.mp hk
    have hlt' : k < d.subflows.length := hs.length_eq ▸ hlt
    obtain ⟨p, hp⟩ := hs.get hlt' hlt
    refine ⟨_, List.getElem?_eq_getElem hlt', ?_⟩
    rw [List.get_eq_getElem, List.get_eq_getElem] at hp
    rw [hp]
    exact ⟨rfl, rfl, rfl, rfl, rfl, rfl⟩
  stream := rfl

theorem Kept.estimates (h : d.Kept d') (he : d.Estimates H) : d'.Estimates H where
  subflow := by
    intro k sf' hk
    obtain ⟨sf, hk', hs⟩ := h.subflow k sf' hk
    exact hs.tracked (he.subflow k sf hk')
  beyond := by
    intro k hk
    exact he.beyond k (h.length ▸ hk)
  stream := by
    rw [h.stream]
    exact he.stream

theorem Kept.reportedBefore (h : d.Kept d') (hr : d.ReportedBefore T) : d'.ReportedBefore T := by
  intro sf' hsf' last hlast
  obtain ⟨k, hk⟩ := List.getElem?_of_mem hsf'
  obtain ⟨sf, hk', hs⟩ := h.subflow k sf' hk
  rw [hs.report] at hlast
  exact hr sf (List.mem_of_getElem? hk') last hlast

theorem ReportedBefore.mono (h : d.ReportedBefore T) (hle : T ≤ U) : d.ReportedBefore U :=
  fun sf hsf last hlast => (h sf hsf last hlast).trans_le hle

/-- An event that measures nothing. -/
theorem Estimates.concat (h : d.Estimates H) {e : SenderEvent} (hm : e.measured? = none)
    (hs : e.second? = none) : d.Estimates (H ++ [e]) := by
  have hlive : ∀ k, Live k (H ++ [e]) ↔ Live k H := by
    intro k
    apply live_concat_of_not_measured
    intro m hm'
    rw [hm] at hm'
    cases hm'
  refine ⟨?_, ?_, ?_⟩
  · intro k sf hk
    rw [hlive]
    exact h.subflow k sf hk
  · intro k hk
    rw [hlive]
    exact h.beyond k hk
  · rw [idle_concat_of_none hs]
    exact h.stream

/-- Storing a subflow at an index whose bitrates are what the longer log says. -/
theorem Estimates.set (h : d.Estimates H) {e : SenderEvent} {k : ℕ} {sf : Subflow}
    (hlt : k < d.subflows.length) (hsf : sf.Tracked (Live k (H ++ [e])))
    (hm : ∀ m, e.measured? = some m → m.subflow = k) (hs : e.second? = none) (b : Bool) :
    { d with subflows := d.subflows.set k sf, recalcDistribution := b }.Estimates (H ++ [e]) := by
  have hlive : ∀ j, k ≠ j → (Live j (H ++ [e]) ↔ Live j H) := by
    intro j hj
    apply live_concat_of_not_measured
    intro m hm' hmj
    exact hj ((hm m hm').symm.trans hmj)
  refine ⟨?_, ?_, ?_⟩
  · intro j sf' hj
    rcases SenderData.getElem?_put (d := d) hj with ⟨rfl, rfl⟩ | ⟨hjk, hj⟩
    · exact hsf
    · rw [hlive j (Ne.symm hjk)]
      exact h.subflow j sf' hj
  · intro j hj
    rw [List.length_set] at hj
    rw [hlive j (by omega)]
    exact h.beyond j hj
  · rw [idle_concat_of_none hs]
    exact h.stream

/-- A report that makes bitrates be computed was received after the last one. -/
theorem InPoll.measures (h : d.InPoll T U) {pkt : RtcpRrPacket} (hT : T ≤ pkt.recvTime) (w : World)
    {id : UInt16} {m : Measured} (hm : d.measured? pkt id = some m) :
    0 < m.sf.packetCountTt.toNat ∧ m.last.recvTime < m.pkt.recvTime := by
  rcases d.onRtcpRrPacket_cases w pkt id with ⟨-, hnone⟩ | ⟨k, sf, hst⟩ | ⟨m', hms⟩
  · rw [hnone] at hm
    cases hm
  · rw [hst.notMeasured] at hm
    cases hm
  · rw [hms.measured] at hm
    cases hm
    have hmem : m.sf ∈ d.subflows := List.mem_of_getElem? hms.subflow
    refine ⟨Nat.pos_of_ne_zero (toNat_ne_zero_iff.mpr hms.sent), ?_⟩
    rw [hms.report]
    exact (h.sent m.sf hmem hms.sent m.last hms.last).trans_le hT

/-- A receiver report: it computes bitrates as the log says. -/
theorem Estimates.onRtcpRrPacket (h : d.Estimates H) (hp : d.InPoll T U) {pkt : RtcpRrPacket}
    (hT : T ≤ pkt.recvTime) (w : World) (id : UInt16) (ssrc : UInt32) (i : ℕ) :
    (d.onRtcpRrPacket w pkt id).1.Estimates (H ++ [.visit d (.rtcp (.rr pkt id ssrc) i)]) := by
  rcases d.onRtcpRrPacket_cases w pkt id with ⟨hres, hm⟩ | ⟨k, sf, hst⟩ | ⟨m, hms⟩
  · rw [hres]
    exact h.concat hm rfl
  · obtain ⟨hlt, -⟩ := List.getElem?_eq_some_iff.mp hst.subflow
    rw [hst.result]
    have hnone : ∀ m, SenderEvent.measured? (.visit d (.rtcp (.rr pkt id ssrc) i)) = some m →
        m.subflow = k := by
      intro m hm
      exact absurd (hst.notMeasured.symm.trans hm) (by simp)
    refine h.set hlt ?_ hnone rfl true
    have hlive := live_concat_of_not_measured (H := H) (k := k)
      (e := .visit d (.rtcp (.rr pkt id ssrc) i)) (by
        intro m hm
        exact absurd (hst.notMeasured.symm.trans hm) (by simp))
    exact (h.subflow k sf hst.subflow).congr hlive.symm rfl rfl rfl rfl rfl
  · obtain ⟨hlt, -⟩ := List.getElem?_eq_some_iff.mp hms.subflow
    have hlt' : m.last.recvTime < pkt.recvTime := hms.report ▸ (hp.measures hT w hms.measured).2
    rw [hms.result]
    refine h.set hlt ?_ ?_ rfl true
    · have ht := (h.subflow _ _ hms.subflow).measure hms.sent hlt' w
      have hlive : Live m.subflow (H ++ [.visit d (.rtcp (.rr pkt id ssrc) i)]) ↔ _ :=
        live_concat_of_measured hms.measured rfl
      rw [hms.report] at hlive
      exact ht.congr hlive.symm rfl rfl rfl rfl rfl
    · intro m' hm'
      rw [Option.some.inj (hms.measured.symm.trans hm')]

theorem InPoll.set (h : d.InPoll T U) {k : ℕ} {sf : Subflow}
    (hlast : ∀ last, sf.lastReceiverReport = some last → last.recvTime < U)
    (hsent : sf.packetCountTt = 0) (b : Bool) :
    { d with subflows := d.subflows.set k sf, recalcDistribution := b }.InPoll T U where
  before := by
    intro sf' hsf'
    rcases List.mem_or_eq_of_mem_set hsf' with hsf' | rfl
    · exact h.before sf' hsf'
    · exact hlast
  sent := by
    intro sf' hsf' hne
    rcases List.mem_or_eq_of_mem_set hsf' with hsf' | rfl
    · exact h.sent sf' hsf' hne
    · exact absurd hsent hne

theorem InPoll.onRtcpRrPacket (h : d.InPoll T U) {pkt : RtcpRrPacket} (hU : pkt.recvTime < U)
    (w : World) (id : UInt16) : (d.onRtcpRrPacket w pkt id).1.InPoll T U := by
  have hlast : ∀ last, some pkt = some last → last.recvTime < U := by
    intro last h'
    cases h'
    exact hU
  rcases d.onRtcpRrPacket_cases w pkt id with ⟨hres, -⟩ | ⟨k, sf, hst⟩ | ⟨m, hms⟩
  · rw [hres]
    exact h
  · rw [hst.result]
    exact h.set hlast rfl true
  · rw [hms.result]
    exact h.set hlast rfl true

/-- The calculation of the stream bitrate, for a whole second or none. -/
theorem Estimates.measureStreamBitrate (h : d.Estimates H) (curtime : RtpTime) :
    (d.measureStreamBitrate curtime).Estimates (H ++ [.measure d curtime]) := by
  have hlive : ∀ k, Live k (H ++ [.measure d curtime]) ↔ Live k H := by
    intro k
    apply live_concat_of_not_measured
    intro m hm
    cases hm
  by_cases hsec : d.sbTime ≠ 0 ∧ d.sbTime + 1 ≤ curtime
  · have hidle : Idle (H ++ [.measure d curtime]) ↔ d.sbSize = 0 :=
      idle_concat_of_some (if_pos hsec)
    have htime : curtime - d.sbTime ≠ 0 := by linarith [hsec.2]
    unfold SenderData.measureStreamBitrate
    rw [if_neg hsec.1, if_pos hsec.2]
    refine ⟨fun k sf hk => ?_, fun k hk => ?_, ?_⟩
    · rw [hlive]
      exact h.subflow k sf hk
    · rw [hlive]
      exact h.beyond k hk
    · dsimp only
      rw [hidle, fin_div_fin htime, fin_eq_zero, div_eq_zero_iff, or_iff_left htime,
        Nat.cast_eq_zero]
      exact not_iff_not.mp toNat_ne_zero_iff
  · have hkept : d.Kept (d.measureStreamBitrate curtime) := by
      unfold SenderData.measureStreamBitrate
      split
      · exact .of_eq rfl rfl
      · rename_i h0
        rw [if_neg fun hle => hsec ⟨h0, hle⟩]
        exact .of_eq rfl rfl
    exact hkept.estimates (h.concat rfl (if_neg hsec))

theorem measureStreamBitrate_subflows (d : SenderData) (curtime : RtpTime) :
    (d.measureStreamBitrate curtime).subflows = d.subflows := by
  obtain ⟨streamBitrate, sbSize, sbTime, hfields⟩ := d.measureStreamBitrate_fields curtime
  rw [hfields]

theorem Unmoved.kept (h : d.Unmoved d') : d.Kept d' := .of_eq h.subflows h.stream

/-- A new subflow is not live. -/
theorem Estimates.addSubflow (h : d.Estimates H) (iface : ℕ) (remote : Endpoint) (w : World) :
    (d.addSubflow iface remote w).Estimates H where
  subflow := by
    intro k sf hk
    unfold SenderData.addSubflow at hk
    dsimp only at hk
    by_cases hlt : k < d.subflows.length
    · rw [List.getElem?_append_left hlt] at hk
      exact h.subflow k sf hk
    · have hdead := h.beyond k (not_lt.mp hlt)
      have hmem := List.mem_of_getElem? (List.getElem?_append_right (not_lt.mp hlt) ▸ hk)
      rw [List.mem_singleton.mp hmem]
      have htrack := Subflow.tracked_new d.nextSubflowId iface remote w
      exact htrack.congr (iff_of_false id hdead) rfl rfl rfl rfl rfl
  beyond := by
    intro k hk
    unfold SenderData.addSubflow at hk
    rw [List.length_append] at hk
    exact h.beyond k (Nat.le_of_add_right_le hk)
  stream := h.stream

theorem ReportedBefore.addSubflow (h : d.ReportedBefore T) (iface : ℕ) (remote : Endpoint)
    (w : World) : (d.addSubflow iface remote w).ReportedBefore T := by
  intro sf hsf last hlast
  rcases List.mem_append.mp hsf with hsf | hsf
  · exact h sf hsf last hlast
  · rw [List.mem_singleton.mp hsf] at hlast
    cases hlast

end SenderData

theorem Subflow.Kept.sendto (sf : Subflow) (data : List UInt8) (len : UInt32) (rtcp : Bool)
    (ret : ℤ) : sf.Kept (sf.sendto data len rtcp ret).2 := by
  unfold Subflow.sendto
  dsimp only
  split
  · exact .refl sf
  · split
    · exact ⟨rfl, rfl, rfl, rfl, rfl, rfl⟩
    · exact ⟨rfl, rfl, rfl, rfl, rfl, rfl⟩

end Mprtp
