import Mprtp.Lib.Since
import Mprtp.Sender.Clock
import Mprtp.Sender.Runs
import Mprtp.Sender.Wire

/-! What the stream bitrate measures: the bytes that were sent since the measurement before, over the time
that has passed since. -/
namespace Mprtp

namespace SenderData

variable {d d' : SenderData}

/-- The stream bitrate is measured at the time `curtime`. -/
def MeasureDue (d : SenderData) (curtime : RtpTime) : Prop := d.sbTime ≠ 0 ∧ d.sbTime + 1 ≤ curtime

instance (d : SenderData) (curtime : RtpTime) : Decidable (d.MeasureDue curtime) :=
  inferInstanceAs (Decidable (_ ∧ _))

theorem measureStreamBitrate_of_due {curtime : RtpTime} (h : d.MeasureDue curtime) :
    d.measureStreamBitrate curtime = { d with
      streamBitrate := .fin d.sbSize.toNat / .fin (curtime - d.sbTime)
      sbSize := 0
      sbTime := curtime } := by
  unfold measureStreamBitrate
  rw [if_neg h.1, if_pos h.2]

theorem measureStreamBitrate_of_not {curtime : RtpTime} (h : ¬ d.MeasureDue curtime) :
    (d.measureStreamBitrate curtime).streamBitrate = d.streamBitrate ∧
      (d.measureStreamBitrate curtime).sbSize = d.sbSize ∧
      (d.sbTime ≠ 0 → (d.measureStreamBitrate curtime).sbTime = d.sbTime) := by
  unfold measureStreamBitrate
  split
  · exact ⟨rfl, rfl, fun hne => absurd ‹_› hne⟩
  · rw [if_neg fun hle => h ⟨‹_›, hle⟩]
    exact ⟨rfl, rfl, fun _ => rfl⟩

end SenderData

namespace Sender

open SenderData

/-- The bytes that an entry adds to the count: a datagram of `send_data` that the socket takes, and a sender
report. -/
def countedBytes : (Sender × Step) ⊕ SenderEvent → ℕ
  | .inl (_, .sendData data ret) => if ret = (24 + data.length : ℕ) then 24 + data.length else 0
  | .inr (.sent _ out) => if out.rtcp then out.data.length else 0
  | _ => 0

def bytesCounted (H : List ((Sender × Step) ⊕ SenderEvent)) : ℕ := (H.map countedBytes).sum

theorem bytesCounted_concat (H : List ((Sender × Step) ⊕ SenderEvent)) (e : (Sender × Step) ⊕ SenderEvent) :
    bytesCounted (H ++ [e]) = bytesCounted H + countedBytes e := by
  unfold bytesCounted
  rw [List.map_append, List.sum_append, List.map_singleton, List.sum_singleton]

/-- The entry is a poll that measures the stream bitrate. -/
def IsMeasurement : (Sender × Step) ⊕ SenderEvent → Prop
  | .inr (.measure d curtime) => d.MeasureDue curtime
  | _ => False

instance : DecidablePred IsMeasurement
  | .inr (.measure d curtime) => inferInstanceAs (Decidable (d.MeasureDue curtime))
  | .inr (.visit ..) | .inr (.sent ..) | .inr (.recalc ..) | .inl _ => inferInstanceAs (Decidable False)

variable {d d' : SenderData} {G : List ((Sender × Step) ⊕ SenderEvent)}

/-- The sender counts the bytes since its last measurement, and has the bitrate of that. -/
def Metered (T : RtpTime) (G : List ((Sender × Step) ⊕ SenderEvent)) (d : SenderData) : Prop :=
  ∀ d₀ c post, Last IsMeasurement G (.inr (.measure d₀ c)) post →
    T ≤ c ∧ d.sbTime = c ∧ d.sbSize.toNat = bytesCounted post % 2 ^ 32 ∧
      d.streamBitrate = .fin d₀.sbSize.toNat / .fin (c - d₀.sbTime)

/-- An entry that is no measurement. -/
theorem Metered.count {T : RtpTime} (hpos : 0 < T) (h : Metered T G d) {e : (Sender × Step) ⊕ SenderEvent}
    (he : ¬ IsMeasurement e) (htime : d.sbTime ≠ 0 → d'.sbTime = d.sbTime)
    (hsize : d'.sbSize = d.sbSize + UInt32.ofNat (countedBytes e)) (hrate : d'.streamBitrate = d.streamBitrate) :
    Metered T (G ++ [e]) d' := by
  intro d₀ c post hlast
  rcases last_concat hlast with ⟨rfl, -⟩ | ⟨-, post', rfl, hlast'⟩
  · exact absurd hlast.entry he
  · obtain ⟨hT, hc, hbytes, hbitrate⟩ := h d₀ c post' hlast'
    have hne : d.sbTime ≠ 0 := hc ▸ (hpos.trans_le hT).ne'
    refine ⟨hT, (htime hne).trans hc, ?_, hrate.trans hbitrate⟩
    rw [hsize, UInt32.toNat_add, hbytes, UInt32.toNat_ofNat', bytesCounted_concat]
    omega

theorem Metered.quiet {T : RtpTime} (hpos : 0 < T) (h : Metered T G d) {e : (Sender × Step) ⊕ SenderEvent}
    (he : ¬ IsMeasurement e) (hbytes : countedBytes e = 0) : Metered T (G ++ [e]) d :=
  h.count hpos he (fun _ => rfl) (by rw [hbytes]; exact (UInt32.add_zero _).symm) rfl

theorem Metered.same {T : RtpTime} (h : Metered T G d) (htime : d'.sbTime = d.sbTime)
    (hsize : d'.sbSize = d.sbSize) (hrate : d'.streamBitrate = d.streamBitrate) : Metered T G d' := by
  intro d₀ c post hlast
  rw [htime, hsize, hrate]
  exact h d₀ c post hlast

/-- A poll that comes to its measurement. -/
theorem Metered.measure {T : RtpTime} (hpos : 0 < T) (h : Metered T G d) {curtime : RtpTime} (hT : T ≤ curtime) :
    Metered T (G ++ [.inr (.measure d curtime)]) (d.measureStreamBitrate curtime) := by
  by_cases hm : d.MeasureDue curtime
  · intro d₀ c post hlast
    rw [measureStreamBitrate_of_due hm]
    rcases last_concat hlast with ⟨he, rfl⟩ | ⟨hnot, -⟩
    · cases he
      exact ⟨hT, rfl, rfl, rfl⟩
    · exact absurd hm hnot
  · obtain ⟨hrate, hsize, htime⟩ := measureStreamBitrate_of_not hm
    exact h.count hpos hm htime (by rw [hsize]; exact (UInt32.add_zero _).symm) hrate

theorem updateStreamBitrate_meter (d : SenderData) (size : UInt32) (w : World) :
    let d' := (d.updateStreamBitrate size w).1
    d'.sbSize = d.sbSize + size ∧ (d.sbTime ≠ 0 → d'.sbTime = d.sbTime) ∧ d'.streamBitrate = d.streamBitrate := by
  unfold updateStreamBitrate
  dsimp only
  split
  · exact ⟨rfl, fun hne => absurd ‹_› hne, rfl⟩
  · exact ⟨rfl, fun _ => rfl, rfl⟩

theorem getNextTimestamp_meter (d : SenderData) (w : World) : (d.getNextTimestamp w).1.sbSize = d.sbSize ∧
    (d.getNextTimestamp w).1.sbTime = d.sbTime ∧ (d.getNextTimestamp w).1.streamBitrate = d.streamBitrate := by
  obtain ⟨lastPacketTime, timestamp, hfields⟩ := d.getNextTimestamp_fields w
  rw [hfields]
  exact ⟨rfl, rfl, rfl⟩

theorem countSent_meter (d : SenderData) (dataLen pktLen : ℕ) (w : World) :
    let d' := (d.countSent dataLen pktLen w).1
    d'.sbSize = d.sbSize + UInt32.ofNat pktLen ∧ (d.sbTime ≠ 0 → d'.sbTime = d.sbTime) ∧
      d'.streamBitrate = d.streamBitrate := by
  unfold countSent
  by_cases h0 : d.packetCount = 0
  · rw [if_pos h0]
    exact updateStreamBitrate_meter _ (UInt32.ofNat pktLen) w.tick
  · rw [if_neg h0]
    exact updateStreamBitrate_meter _ (UInt32.ofNat pktLen) w

/-- A sender report. -/
theorem Metered.report {T : RtpTime} (hpos : 0 < T) (h : Metered T G d) {w : World} {k : ℕ} {sf : Subflow}
    {pkt : List UInt8} {r : SenderData × World} (hs : d.SendsReport w k sf pkt r) :
    Metered T (G ++ [.inr (.sent k (Interface.sendto sf.iface pkt sf.remote true))]) r.1 := by
  rcases d.sendSenderReport_eq w with hstuck | ⟨k', sf', -, -, -, heq⟩
  · have hresult := hs.result
    rw [hstuck] at hresult
    cases hresult
  · obtain ⟨hsize, htime, hrate⟩ := updateStreamBitrate_meter (d.stamped w)
      (UInt32.ofNat (d.builtReport w).length) ((d.stamped w).selectSubflow (d.getNextTimestamp w).2).2
    obtain ⟨hsize', htime', hrate'⟩ := getNextTimestamp_meter d w
    have hresult := hs.result.symm.trans heq
    dsimp only at hsize htime hrate hresult
    have hpkt : pkt = d.builtReport w := by
      injection hresult with hlog _
      injection hlog with hsent _
      injection hsent with _ hout
      injection hout
    have hr : r.1.sbSize = d.sbSize + UInt32.ofNat pkt.length ∧ (d.sbTime ≠ 0 → r.1.sbTime = d.sbTime) ∧
        r.1.streamBitrate = d.streamBitrate := by
      injection hresult with _ hres
      cases hres
      rw [hpkt]
      refine ⟨?_, ?_, ?_⟩
      · exact hsize.trans (congrArg (· + _) hsize')
      · intro hne
        exact (htime (by rwa [SenderData.stamped, htime'])).trans htime'
      · exact hrate.trans hrate'
    exact h.count hpos (fun hno => hno) hr.2.1 hr.1 hr.2.2

/-- What is measured or distributed keeps to the count. -/
def KeepsMeter (T : RtpTime) (H : List ((Sender × Step) ⊕ SenderEvent)) : (Sender × Step) ⊕ SenderEvent → Prop
  | .inr (.measure d _) | .inr (.recalc d _) => Metered T H d
  | _ => True

/-- What a sender does between the sending of data, in a log that goes on from `G`. -/
theorem keptByClock_metered {T : RtpTime} (hpos : 0 < T) (G : List ((Sender × Step) ⊕ SenderEvent)) :
    KeptByClock T (fun L e => KeepsMeter T (G ++ L.map .inr) (.inr e))
      (fun L d _ => Metered T (G ++ L.map .inr) d) fun _ L d _ => Metered T (G ++ L.map .inr) d where
  leads := fun L d w w' _ h => h
  same := fun L d d' w hs h => h.same hs.measured hs.size hs.stream
  visit := by
    intro L d w c h
    rw [List.map_append, ← List.append_assoc]
    exact ⟨trivial, h.quiet hpos (fun hno => hno) rfl⟩
  report := by
    intro L d w curtime _ _ h
    apply sendDueReport_sat
    · intro k sf pkt r hs
      rw [List.map_append, ← List.append_assoc]
      exact ⟨trivial, h.report hpos hs⟩
    · exact h
  measure := by
    intro L d w curtime hT h
    rw [List.map_append, ← List.append_assoc]
    exact ⟨h, h.measure hpos hT⟩
  recalc := by
    intro L d w divisors h
    rw [List.map_append, ← List.append_assoc]
    exact ⟨h, h.quiet hpos (fun hno => hno) rfl⟩

variable {isPathValid : Endpoint → Endpoint → Bool} {H : List ((Sender × Step) ⊕ SenderEvent)}

theorem sendData_metered {T : RtpTime} (hpos : 0 < T) {s : Sender} (h : Metered T H s.obj) {data : List UInt8}
    {ret : ℤ} {r : Bool × SenderData × World} (hres : (s.obj.sendData s.world data ret).res = some r) :
    Metered T (H ++ [.inl (s, .sendData data ret)]) r.2.1 := by
  rcases s.obj.sendData_eq s.world data ret with hstuck | ⟨k, sf, -, -, heq⟩
  · rw [hstuck] at hres
    cases hres
  · obtain ⟨hsize, htime, hrate⟩ := getNextTimestamp_meter
      { s.obj with sequesnceNumber := s.obj.sequesnceNumber + 1 } (s.obj.selectSubflow s.world).2
    change (s.obj.numbered s.world).1.sbSize = s.obj.sbSize at hsize
    change (s.obj.numbered s.world).1.sbTime = s.obj.sbTime at htime
    change (s.obj.numbered s.world).1.streamBitrate = s.obj.streamBitrate at hrate
    have hlen : (s.obj.rtpDatagram sf (s.obj.numbered s.world).1.timestamp data).length = 24 + data.length :=
      rtpBytes_length ..
    dsimp only at heq
    rw [hlen] at heq
    generalize s.obj.rtpDatagram sf (s.obj.numbered s.world).1.timestamp data = pkt at heq
    generalize s.obj.numbered s.world = r' at heq hsize htime hrate
    obtain ⟨d, w⟩ := r'
    dsimp only at heq hsize htime hrate
    rw [heq] at hres
    by_cases hret : ret = (24 + data.length : ℕ)
    · have hbytes : countedBytes (.inl (s, .sendData data ret)) = 24 + data.length := if_pos hret
      obtain ⟨hsize', htime', hrate'⟩ := countSent_meter
        (d.put k (sf.sendto pkt (UInt32.ofNat data.length) false ret).2) data.length (24 + data.length) w
      rw [if_pos hret] at hres
      cases hres
      refine h.count hpos (fun hno => hno) ?_ ?_ ?_
      · intro hne
        exact (htime' (by rwa [← htime] at hne)).trans htime
      · rw [hbytes, ← hsize]
        exact hsize'
      · exact hrate'.trans hrate
    · have hbytes : countedBytes (.inl (s, .sendData data ret)) = 0 := if_neg hret
      rw [if_neg hret] at hres
      cases hres
      have hquiet := h.quiet hpos (e := .inl (s, .sendData data ret)) (fun hno => hno) hbytes
      exact hquiet.same htime hsize hrate

theorem noting_metered {T : RtpTime} {s : Sender} (hpos : 0 < T) (h : Metered T H s.obj) (hw : s.world.From T)
    (e : Step) : (noting (step isPathValid) s e).Sat (KeepsMeter T) H
      fun H' s' => Metered T H' s'.obj ∧ s'.world.From T := by
  refine Exec.sat_noting_own trivial ?_
  by_cases hdata : ∃ data ret, e = .sendData data ret
  · obtain ⟨data, ret, rfl⟩ := hdata
    refine Exec.sat_bind (Q := fun L p => Metered T (H ++ [.inl (s, .sendData data ret)] ++ L.map .inr) p.2.obj ∧
      p.2.world.From T) ?_ fun _ _ h => Exec.sat_pure h
    refine Exec.sat_bind (Q := fun L r => Metered T (H ++ [.inl (s, .sendData data ret)] ++ L.map .inr) r.2.1 ∧
      r.2.2.From T) ?_ fun _ _ h => Exec.sat_pure h
    apply sendData_sat
    intro k sf timestamp r hs
    have hres : (s.obj.sendData s.world data ret).res = some r := by rw [hs.result]
    have hdata := (sendData_metered hpos h hres).quiet hpos (fun hno => hno) rfl
      (e := .inr (.sent k (Interface.sendto sf.iface (s.obj.rtpDatagram sf timestamp data) sf.remote false)))
    exact ⟨trivial, hdata, hs.leads T hw⟩
  · have hbegin : Metered T (H ++ [.inl (s, e)] ++ []) s.obj := by
      rw [List.append_nil]
      refine h.quiet hpos (fun hno => hno) ?_
      cases e with
      | sendData data ret => exact absurd ⟨data, ret, rfl⟩ hdata
      | _ => rfl
    exact (keptByClock_metered hpos (H ++ [.inl (s, e)])).step isPathValid (H := []) hbegin hw
      fun data ret he => hdata ⟨data, ret, he⟩

theorem run_metered {timestampUnit : ℚ} {w : World} {r : Option Sender} (hclock : StrictMono w.clock)
    (hpos : 0 < w.now)
    (hrun : Run (noting (step isPathValid)) (fun _ _ _ => True) (new timestampUnit w) H r) :
    ∀ n e, H[n]? = some e → KeepsMeter w.now (H.take n) e := by
  have h₀ : Metered w.now [] (new timestampUnit w).obj ∧ (new timestampUnit w).world.From w.now :=
    ⟨fun d₀ c post hlast => absurd hlast not_last_nil, hclock, le_refl _⟩
  intro n e hn
  exact Run.sat_getElem h₀ (fun _ _ e h _ => noting_metered hpos h.1 h.2 e) hrun hn

/-- In every run: after the stream bitrate was measured at the time `c`, the first poll that is one second later
or more measures it again, and no poll before; it is then the number of bytes sent in between over the time in
between; and the distribution uses what was measured last. -/
theorem streamBitrate_measured {timestampUnit : ℚ} {w : World} {r : Option Sender} (hclock : StrictMono w.clock)
    (hpos : 0 < w.now) (hrun : Run (noting (step isPathValid)) (fun _ _ _ => True) (new timestampUnit w) H r)
    {m n : ℕ} {d : SenderData} {c : RtpTime} {e : SenderEvent} (hmn : m < n)
    (hm : H[m]? = some (.inr (.measure d c))) (hn : H[n]? = some (.inr e)) (hdue : d.MeasureDue c)
    (hmid : ∀ e ∈ (H.take n).drop (m + 1), ¬ IsMeasurement e) :
    (∀ d' c', e = .measure d' c' → (d'.MeasureDue c' ↔ c + 1 ≤ c') ∧ (c + 1 ≤ c' →
      (d'.measureStreamBitrate c').streamBitrate =
        .fin ((bytesCounted ((H.take n).drop (m + 1)) % 2 ^ 32 : ℕ) : ℚ) / .fin (c' - c))) ∧
    ∀ d' divisors, e = .recalc d' divisors →
      d'.streamBitrate = (d.measureStreamBitrate c).streamBitrate := by
  have hkeeps := run_metered hclock hpos hrun n _ hn
  have hlast : Last IsMeasurement (H.take n) (.inr (.measure d c)) ((H.take n).drop (m + 1)) := by
    have hget : (H.take n)[m]? = some (.inr (.measure d c)) := by
      rw [List.getElem?_take_of_lt hmn]
      exact hm
    obtain ⟨hlt, hentry⟩ := List.getElem?_eq_some_iff.mp hget
    refine ⟨hdue, ⟨(H.take n).take m, ?_⟩, hmid⟩
    rw [← hentry, ← List.drop_eq_getElem_cons hlt, List.take_append_drop]
  constructor
  · rintro d' c' rfl
    obtain ⟨hT, htime, hsize, -⟩ := hkeeps d c _ hlast
    have hne : d'.sbTime ≠ 0 := htime ▸ (hpos.trans_le hT).ne'
    have hiff : d'.MeasureDue c' ↔ c + 1 ≤ c' := by
      unfold MeasureDue
      rw [htime] at hne ⊢
      exact and_iff_right hne
    refine ⟨hiff, fun hle => ?_⟩
    rw [measureStreamBitrate_of_due (hiff.mpr hle), htime, hsize]
  · rintro d' divisors rfl
    obtain ⟨-, -, -, hrate⟩ := hkeeps d c _ hlast
    rw [hrate, measureStreamBitrate_of_due hdue]

def reportedTwiceCalls : List ((Sender × Step) ⊕ SenderEvent) :=
  ((reportedTwice 8).foldlM (noting (step fun _ _ => true)) (new 1 (.ticking 1000))).log

/-- A packet of 25 bytes and a sender report of 72 in three seconds. -/
theorem reportedTwice_streamBitrate : ∃ d c d' c', reportedTwiceCalls[6]? = some (.inr (.measure d c)) ∧
    reportedTwiceCalls[13]? = some (.inr (.measure d' c')) ∧ c + 1 ≤ c' ∧
    (d'.measureStreamBitrate c').streamBitrate = .fin ((97 : ℕ) : ℚ) / .fin (c' - c) ∧ c' - c = 3 := by
  have hrun : Run (noting (step fun _ _ => true)) (fun _ _ _ => True) (new 1 (.ticking 1000)) reportedTwiceCalls _ :=
    Run.foldlM (new 1 (.ticking 1000)) (reportedTwice 8)
  have hsome : ∃ p ∈ (reportedTwiceCalls[6]?.bind Sum.getRight?).bind SenderEvent.measure?,
      p.1.MeasureDue p.2 ∧ ∃ p' ∈ (reportedTwiceCalls[13]?.bind Sum.getRight?).bind SenderEvent.measure?,
        p.2 + 1 ≤ p'.2 ∧ p'.2 - p.2 = 3 := by
    decide +kernel
  have hmid : ∀ e ∈ (reportedTwiceCalls.take 13).drop 7, ¬ IsMeasurement e := by decide +kernel
  have hbytes : bytesCounted ((reportedTwiceCalls.take 13).drop 7) % 2 ^ 32 = 97 := by decide +kernel
  obtain ⟨⟨d, c⟩, hd, hdue, ⟨d', c'⟩, hd', hle, hdiff⟩ := hsome
  have hm := getElem?_of_measure hd
  have hn := getElem?_of_measure hd'
  have hpos : (0 : RtpTime) < (World.ticking 1000).now := by decide +kernel
  obtain ⟨-, hrate⟩ := (streamBitrate_measured (World.ticking_strictMono 1000) hpos hrun (by decide)
    hm hn hdue hmid).1 d' c' rfl
  rw [hbytes] at hrate
  exact ⟨d, c, d', c', hm, hn, hle, hrate hle, hdiff⟩

end Sender

end Mprtp
