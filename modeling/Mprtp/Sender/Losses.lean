import Mprtp.Sender.Numbers

/-! Reports that tell of no loss, and the congestion indicator they leave at 0. -/
namespace Mprtp

namespace Subflow

/-- Without loss the indicator only goes down, and not below 0. -/
theorem measure_indicator {sf : Subflow} (h : sf.congestionIndicator = 0) {last pkt : RtcpRrPacket}
    (hpkt : pkt.fractionlost = 0) (w : World) : (sf.measure last pkt w).1.congestionIndicator = 0 := by
  have hnot : ¬ sf.congestionIndicator > 0 := by omega
  unfold measure withoutLoss
  dsimp only
  rw [if_pos hpkt, if_neg hnot]
  exact h

theorem sendto_indicator (sf : Subflow) (data : List UInt8) (len : UInt32) (ret : ℤ) :
    (sf.sendto data len false ret).2.congestionIndicator = sf.congestionIndicator := by
  unfold sendto
  dsimp only
  rw [if_neg (by decide)]
  split
  · rfl
  · rfl

end Subflow

/-- No report on a subflow has told of a loss. -/
def NoLossTold (L : List SenderEvent) : Prop :=
  ∀ d pkt id ssrc i, .visit d (.rtcp (.rr pkt id ssrc) i) ∈ L → id ≠ 0 → pkt.fractionlost = 0

theorem NoLossTold.before {L : List SenderEvent} {e : SenderEvent} (h : NoLossTold (L ++ [e])) :
    NoLossTold L := fun d pkt id ssrc i hmem => h d pkt id ssrc i (List.mem_append_left _ hmem)

/-- All subflows are neither congested nor lossy. -/
def SenderData.Untroubled (d : SenderData) : Prop := ∀ sf ∈ d.subflows, sf.congestionIndicator = 0

namespace SenderData.Untroubled

variable {d d' : SenderData}

theorem congr (h : d.Untroubled) (hs : d'.subflows = d.subflows) : d'.Untroubled := by
  unfold Untroubled
  rw [hs]
  exact h

theorem put (h : d.Untroubled) {k : ℕ} {sf : Subflow} (hsf : sf.congestionIndicator = 0) :
    (d.put k sf).Untroubled := by
  intro sf' hsf'
  rcases List.mem_or_eq_of_mem_set hsf' with hsf' | rfl
  · exact h sf' hsf'
  · exact hsf

theorem onRtcpRrPacket (h : d.Untroubled) {pkt : RtcpRrPacket} {id : UInt16}
    (hpkt : id ≠ 0 → pkt.fractionlost = 0) (w : World) : (d.onRtcpRrPacket w pkt id).1.Untroubled := by
  by_cases hid : id = 0
  · unfold SenderData.onRtcpRrPacket
    rw [if_pos hid]
    exact h
  · rcases d.onRtcpRrPacket_cases w pkt id with ⟨hres, -⟩ | ⟨k, sf, hst⟩ | ⟨m, hms⟩
    · rw [hres]
      exact h
    · have hstored : (sf.store pkt).congestionIndicator = 0 := h sf (List.mem_of_getElem? hst.subflow)
      rw [hst.result]
      exact (h.put hstored).congr rfl
    · have hsf := h m.sf (List.mem_of_getElem? hms.subflow)
      have hstored : ((m.sf.measure m.last pkt w).1.store pkt).congestionIndicator = 0 :=
        Subflow.measure_indicator hsf (hpkt hid) w
      rw [hms.result]
      exact (h.put hstored).congr rfl

end SenderData.Untroubled

namespace Sender

theorem keptByData_untroubled : KeptByData (fun _ => True) (fun _ _ => True)
    fun L d => NoLossTold L → d.Untroubled where
  rr := by
    intro L d w raw fuel pkt id ssrc i _ _ h
    refine ⟨trivial, ?_⟩
    intro hL
    have hpkt := hL d pkt id ssrc i (by simp)
    exact (h hL.before).onRtcpRrPacket hpkt w
  visit := fun L d c _ h => ⟨trivial, fun hL => h hL.before⟩
  sends := by
    intro L d w data ret k sf timestamp r hs h
    refine ⟨trivial, ?_⟩
    intro hL
    have hsf := h hL.before sf (List.mem_of_getElem? hs.subflow)
    rw [← sf.sendto_indicator (d.rtpDatagram sf timestamp data) (UInt32.ofNat data.length) ret] at hsf
    exact ((h hL.before).put hsf).congr hs.unmoved.subflows
  sendsReport := fun L d w k sf pkt r hs h =>
    ⟨trivial, fun hL => (h hL.before).congr hs.unmoved.subflows⟩
  measure := fun L d curtime h =>
    ⟨trivial, fun hL => (h hL.before).congr (d.measureStreamBitrate_numbers curtime).1⟩
  recalc := by
    intro L d sfs hsfs h
    refine ⟨trivial, ?_⟩
    intro hL
    have hmap : sfs.map Subflow.congestionIndicator = d.subflows.map Subflow.congestionIndicator :=
      Subflow.Reweighted.map_eq (fun _ _ => rfl) hsfs
    have hzero : ∀ ci ∈ d.subflows.map Subflow.congestionIndicator, ci = 0 := by
      rw [List.forall_mem_map]
      exact h hL.before
    rw [← hmap, List.forall_mem_map] at hzero
    exact hzero
  connect := fun L d ssrc destAddr h => h
  addSubflow := by
    intro L d iface remote w h hL sf hsf
    rcases List.mem_append.mp hsf with hsf | hsf
    · exact h hL sf hsf
    · rw [List.mem_singleton.mp hsf]
      rfl

/-- As long as no report tells of a loss, no subflow gets congested or lossy. -/
theorem run_untroubled {isPathValid : Endpoint → Endpoint → Bool} {timestampUnit : ℚ} {w : World}
    {H : List SenderEvent} {s : Sender}
    (hrun : Run (step isPathValid) (fun _ _ _ => True) (new timestampUnit w) H (some s))
    (hH : NoLossTold H) : s.obj.Untroubled := by
  have h₀ : (new timestampUnit w).obj.Untroubled := by
    intro sf hsf
    cases hsf
  exact keptByData_untroubled.run (fun _ => h₀) hrun hH

end Sender

/-- A report that a sender handles was in a datagram that satisfies `P`. -/
def SenderEvent.Heard (P : List UInt8 → Prop) : SenderEvent → Prop
  | .visit _ (.rtcp (.rr pkt id ssrc) _) =>
    ∃ (raw : RawPacket) (fuel : ℕ), P raw.data ∧ .rr pkt id ssrc ∈ (raw.rtcpCalls fuel).1
  | _ => True

theorem Sender.keptByData_heard (P : List UInt8 → Prop) :
    KeptByData P (fun _ e => e.Heard P) fun _ _ => True where
  rr := fun L d w raw fuel pkt id ssrc i hraw hcall _ => ⟨⟨raw, fuel, hraw, hcall⟩, trivial⟩
  visit := by
    intro L d c hc _
    refine ⟨?_, trivial⟩
    cases c with
    | rtp pkt j => trivial
    | rtcp call j =>
      cases call with
      | sr pkt id => trivial
      | rr pkt id ssrc => exact absurd rfl (hc pkt id ssrc j)
  sends := fun _ _ _ _ _ _ _ _ _ _ _ => ⟨trivial, trivial⟩
  sendsReport := fun _ _ _ _ _ _ _ _ _ => ⟨trivial, trivial⟩
  measure := fun _ _ _ _ => ⟨trivial, trivial⟩
  recalc := fun _ _ _ _ _ => ⟨trivial, trivial⟩
  connect := fun _ _ _ _ _ => trivial
  addSubflow := fun _ _ _ _ _ _ => trivial

end Mprtp
