import Mprtp.Lib.Drift
import Mprtp.Lib.Wrap
import Mprtp.Sender.Rules

/-! The timestamps of a sender against the times at which `get_next_timestamp` is called. -/
namespace Mprtp

namespace SenderData

/-- Behind the first packet, sent at `t₀` with the timestamp `T₀`, the calls of `get_next_timestamp` at
the times `ts` have made these timestamps in units of `u`; `m` packets were sent. -/
structure Timed (u t₀ : ℚ) (T₀ : UInt32) (ts : List RtpTime) (m : ℕ) (d : SenderData) : Prop where
  unit : d.timestampUnit = u
  count : d.packetCount = UInt32.ofNat m
  last : d.lastPacketTime = ts.getLastD t₀
  timestamp : d.timestamp = T₀ + UInt32.ofInt (ticks (spacings u t₀ ts))

/-- What the timestamps rest on is the same. -/
structure SameStamp (d d' : SenderData) : Prop where
  unit : d'.timestampUnit = d.timestampUnit
  count : d'.packetCount = d.packetCount
  last : d'.lastPacketTime = d.lastPacketTime
  timestamp : d'.timestamp = d.timestamp

variable {d d' : SenderData} {w : World} {u t₀ : ℚ} {T₀ : UInt32} {ts : List RtpTime} {m : ℕ}

theorem SameStamp.trans {d₁ d₂ d₃ : SenderData} (h : d₁.SameStamp d₂) (h' : d₂.SameStamp d₃) :
    d₁.SameStamp d₃ where
  unit := h'.unit.trans h.unit
  count := h'.count.trans h.count
  last := h'.last.trans h.last
  timestamp := h'.timestamp.trans h.timestamp

theorem Timed.congr (h : d.Timed u t₀ T₀ ts m) (hs : d.SameStamp d') : d'.Timed u t₀ T₀ ts m where
  unit := hs.unit.trans h.unit
  count := hs.count.trans h.count
  last := hs.last.trans h.last
  timestamp := hs.timestamp.trans h.timestamp

/-- A call of `get_next_timestamp` behind the first packet rounds the time since the last one. -/
theorem Timed.getNextTimestamp (hu : 0 < u) (h : d.Timed u t₀ T₀ ts m) (hm : 0 < m) (hfew : m < 2 ^ 32)
    (hle : ts.getLastD t₀ ≤ w.now) : (d.getNextTimestamp w).1.Timed u t₀ T₀ (ts ++ [w.now]) m := by
  have hcount : d.packetCount ≠ 0 := by
    intro h0
    have hzero := congrArg UInt32.toNat (h.count.symm.trans h0)
    rw [UInt32.toNat_ofNat_of_lt' hfew] at hzero
    exact hm.ne' hzero
  have hspacing : 0 ≤ (w.now - ts.getLastD t₀) / u := div_nonneg (sub_nonneg.mpr hle) hu.le
  have htrunc : truncU32 ((w.now - d.lastPacketTime) / d.timestampUnit + 1 / 2) =
      UInt32.ofInt (round ((w.now - ts.getLastD t₀) / u)) := by
    rw [h.last, h.unit, truncU32, if_pos (by linarith), round_eq]
  unfold SenderData.getNextTimestamp
  rw [if_neg hcount]
  refine ⟨h.unit, h.count, List.getLastD_concat.symm, ?_⟩
  dsimp only
  rw [htrunc, h.timestamp, spacings_concat, ticks_concat, UInt32.ofInt_add, UInt32.add_assoc]

/-- The first call, with no packet sent so far, takes the time as it is. -/
theorem getNextTimestamp_first (h : d.packetCount = 0) :
    (d.getNextTimestamp w).1.timestampUnit = d.timestampUnit ∧
      (d.getNextTimestamp w).1.packetCount = 0 ∧ (d.getNextTimestamp w).1.lastPacketTime = w.now := by
  unfold getNextTimestamp
  rw [if_pos h]
  exact ⟨rfl, h, rfl⟩

theorem selectSubflow_now : (d.selectSubflow w).2.now = w.now := by
  unfold selectSubflow
  dsimp only
  split <;> rfl

theorem updateStreamBitrate_stamp (size : UInt32) : d.SameStamp (d.updateStreamBitrate size w).1 := by
  obtain ⟨sbSize, sbTime, hfields⟩ := d.updateStreamBitrate_fields size w
  rw [hfields]
  exact ⟨rfl, rfl, rfl, rfl⟩

/-- A packet more was sent. -/
def counted (d : SenderData) : SenderData := { d with packetCount := d.packetCount + 1 }

theorem Timed.counted (h : d.Timed u t₀ T₀ ts m) : d.counted.Timed u t₀ T₀ ts (m + 1) := by
  refine ⟨h.unit, ?_, h.last, h.timestamp⟩
  have hcount : d.counted.packetCount = d.packetCount + 1 := rfl
  rw [hcount, h.count, UInt32.ofNat_add]
  rfl

theorem countSent_stamp (dataLen pktLen : ℕ) : d.counted.SameStamp (d.countSent dataLen pktLen w).1 := by
  obtain ⟨lastSenderReportTime, sbSize, sbTime, hfields⟩ := d.countSent_fields dataLen pktLen w
  rw [hfields]
  exact ⟨rfl, rfl, rfl, rfl⟩

/-- `send_data` counts the packet when it is sent, and leaves the timestamp as it is in the packet. -/
theorem sendData_stamp {data : List UInt8} {ret : ℤ} {r : Bool × SenderData × World}
    (hres : (d.sendData w data ret).res = some r) :
    (if r.1 then (d.numbered w).1.counted else (d.numbered w).1).SameStamp r.2.1 := by
  rcases d.sendData_eq w data ret with hstuck | ⟨k, sf, -, -, heq⟩
  · rw [hstuck] at hres
    cases hres
  · dsimp only at heq
    rw [heq] at hres
    generalize d.numbered w = r₁ at hres ⊢
    obtain ⟨d₁, w₁⟩ := r₁
    dsimp only at hres ⊢
    split at hres
    · cases hres
      rw [if_pos rfl]
      have hput (sf' : Subflow) : d₁.counted.SameStamp (d₁.put k sf').counted := ⟨rfl, rfl, rfl, rfl⟩
      exact (hput _).trans (countSent_stamp _ _)
    · cases hres
      rw [if_neg Bool.false_ne_true]
      exact ⟨rfl, rfl, rfl, rfl⟩

theorem Timed.sendData (hu : 0 < u) (h : d.Timed u t₀ T₀ ts m) (hm : 0 < m) (hfew : m < 2 ^ 32)
    (hle : ts.getLastD t₀ ≤ w.now) {data : List UInt8} {ret : ℤ} {r : Bool × SenderData × World}
    (hres : (d.sendData w data ret).res = some r) :
    r.2.1.Timed u t₀ T₀ (ts ++ [w.now]) (m + if r.1 then 1 else 0) := by
  have hstart : { d with sequesnceNumber := d.sequesnceNumber + 1 }.Timed u t₀ T₀ ts m :=
    h.congr ⟨rfl, rfl, rfl, rfl⟩
  have hnumbered : (d.numbered w).1.Timed u t₀ T₀ (ts ++ [w.now]) m := by
    rw [← d.selectSubflow_now] at hle ⊢
    exact hstart.getNextTimestamp hu hm hfew hle
  have hstamp := sendData_stamp hres
  by_cases hr : r.1 = true
  · rw [if_pos hr] at hstamp ⊢
    exact hnumbered.counted.congr hstamp
  · rw [if_neg hr] at hstamp ⊢
    exact hnumbered.congr hstamp

/-- The first packet of the stream. -/
theorem sendData_first (h : d.packetCount = 0) {data : List UInt8} {ret : ℤ} {d' : SenderData} {w' : World}
    (hres : (d.sendData w data ret).res = some (true, d', w')) :
    d'.Timed d.timestampUnit w.now d'.timestamp [] 1 := by
  have hstart : { d with sequesnceNumber := d.sequesnceNumber + 1 }.packetCount = 0 := h
  obtain ⟨hunit, hcount, hlast⟩ := getNextTimestamp_first (w := (d.selectSubflow w).2) hstart
  rw [selectSubflow_now] at hlast
  have hstamp := sendData_stamp hres
  rw [if_pos rfl] at hstamp
  refine ⟨hstamp.unit.trans hunit, ?_, hstamp.last.trans hlast, ?_⟩
  · have hnumbered : (d.numbered w).1.packetCount = 0 := hcount
    have hcounted : (d.numbered w).1.counted.packetCount = (d.numbered w).1.packetCount + 1 := rfl
    rw [hstamp.count, hcounted, hnumbered]
    rfl
  · exact (UInt32.add_zero _).symm

theorem Timed.sendSenderReport (hu : 0 < u) (h : d.Timed u t₀ T₀ ts m) (hm : 0 < m) (hfew : m < 2 ^ 32)
    (hle : ts.getLastD t₀ ≤ w.now) {r : SenderData × World} (hres : (d.sendSenderReport w).res = some r) :
    r.1.Timed u t₀ T₀ (ts ++ [w.now]) m := by
  have hstamped : (d.stamped w).Timed u t₀ T₀ (ts ++ [w.now]) m := h.getNextTimestamp hu hm hfew hle
  rcases d.sendSenderReport_eq w with hstuck | ⟨k, sf, -, -, -, heq⟩
  · rw [hstuck] at hres
    cases hres
  · rw [heq] at hres
    cases hres
    exact hstamped.congr ((updateStreamBitrate_stamp _).trans ⟨rfl, rfl, rfl, rfl⟩)

theorem onRtcpRrPacket_stamp (w : World) (pkt : RtcpRrPacket) (id : UInt16) :
    d.SameStamp (d.onRtcpRrPacket w pkt id).1 := by
  obtain ⟨subflows, recalcDistribution, hfields⟩ := d.onRtcpRrPacket_fields w pkt id
  rw [hfields]
  exact ⟨rfl, rfl, rfl, rfl⟩

theorem measureStreamBitrate_stamp (curtime : RtpTime) : d.SameStamp (d.measureStreamBitrate curtime) := by
  obtain ⟨streamBitrate, sbSize, sbTime, hfields⟩ := d.measureStreamBitrate_fields curtime
  rw [hfields]
  exact ⟨rfl, rfl, rfl, rfl⟩

theorem redistribute_stamp (hres : d.redistribute.res = some d') : d.SameStamp d' := by
  unfold redistribute at hres
  split at hres
  · cases hres
    exact ⟨rfl, rfl, rfl, rfl⟩
  · cases hres
    exact ⟨rfl, rfl, rfl, rfl⟩

end SenderData

namespace Sender

/-- When a poll calls `get_next_timestamp` for a report. -/
def reportTime? (fuel : ℕ) (io : PollInput) (s : Sender) : Option RtpTime :=
  (Session.poll senderHandlers fuel io s).res.bind fun r =>
    if r.1.obj.ReportDue r.1.world.now then some r.1.world.tick.now else none

/-- When a step calls `get_next_timestamp`. -/
def callTime? (s : Sender) : Step → Option RtpTime
  | .sendData _ _ => some s.world.now
  | .poll fuel io => reportTime? fuel io s
  | _ => none

/-- The step sends a packet, and all of it. -/
def accepts (s : Sender) : Step → Bool
  | .sendData data ret => (sendData s data ret).res.any Prod.fst
  | _ => false

/-- The times of the calls in a run. -/
def callTimes (H : List ((Sender × Step) ⊕ SenderEvent)) : List RtpTime :=
  H.filterMap (Sum.elim (fun p => callTime? p.1 p.2) fun _ => none)

/-- How many packets were sent in a run. -/
def acceptedIn (H : List ((Sender × Step) ⊕ SenderEvent)) : ℕ :=
  H.countP (Sum.elim (fun p => accepts p.1 p.2) fun _ => false)

theorem callTimes_noted (H : List ((Sender × Step) ⊕ SenderEvent)) (s : Sender) (e : Step)
    (L : List SenderEvent) :
    callTimes (H ++ [.inl (s, e)] ++ L.map .inr) = callTimes H ++ (callTime? s e).toList :=
  filterMap_noted (fun _ => rfl) H s e L

theorem acceptedIn_noted (H : List ((Sender × Step) ⊕ SenderEvent)) (s : Sender) (e : Step)
    (L : List SenderEvent) :
    acceptedIn (H ++ [.inl (s, e)] ++ L.map .inr) = acceptedIn H + if accepts s e then 1 else 0 :=
  countP_noted (fun _ => rfl) H s e L

variable {s s' : Sender} {u t₀ : ℚ} {T₀ : UInt32} {ts : List RtpTime} {m : ℕ}

theorem sendData_res (s : Sender) (data : List UInt8) (ret : ℤ) : (sendData s data ret).res =
    (s.obj.sendData s.world data ret).res.map fun r => (r.1, { s with obj := r.2.1, world := r.2.2 }) := by
  unfold Sender.sendData
  rw [Exec.res_bind]
  cases (s.obj.sendData s.world data ret).res <;> rfl

/-- The handlers leave the timestamps alone. -/
theorem session_timed (h : s.obj.Timed u t₀ T₀ ts m) {fuel : ℕ} {io : PollInput} {r : Sender × ℤ}
    (hres : (Session.poll senderHandlers fuel io s).res = some r) : r.1.obj.Timed u t₀ T₀ ts m := by
  have hbrings : io.Brings fun _ => True := fun _ _ _ _ => trivial
  have hkeeps : ∀ f ∈ s.interfaces, f.Keeps fun _ => True := fun _ _ _ _ => trivial
  let J : List SenderEvent → SenderData → Prop := fun _ d => d.Timed u t₀ T₀ ts m
  have hsat : (Session.poll senderHandlers fuel io s).Sat (fun _ _ => True) []
      fun H' r => J H' r.1.obj ∧ ∀ f ∈ r.1.interfaces, f.Keeps fun _ => True :=
    session_sat (fun H d w _ _ pkt id ssrc i _ _ hd => ⟨trivial, hd.congr (d.onRtcpRrPacket_stamp w pkt id)⟩)
      (fun _ _ _ _ hd => ⟨trivial, hd⟩) h hkeeps fuel hbrings
  exact (hsat.2 r hres).1

theorem sendDueReport_timed {d : SenderData} {w : World} {curtime : RtpTime} {r : SenderData × World}
    (hu : 0 < u) (h : d.Timed u t₀ T₀ ts m) (hm : 0 < m) (hfew : m < 2 ^ 32)
    (hle : d.ReportDue curtime → ts.getLastD t₀ ≤ w.now) (hres : (d.sendDueReport curtime w).res = some r) :
    r.1.Timed u t₀ T₀ (ts ++ (if d.ReportDue curtime then some w.now else none).toList) m := by
  have hsend : d.sendDueReport curtime w =
      if d.ReportDue curtime then d.sendSenderReport w else pure (d, w) := rfl
  rw [hsend] at hres
  by_cases hdue : d.ReportDue curtime
  · rw [if_pos hdue] at hres ⊢
    exact h.sendSenderReport hu hm hfew (hle hdue) hres
  · rw [if_neg hdue] at hres ⊢
    cases hres
    rw [Option.toList_none, List.append_nil]
    exact h

theorem poll_timed (hu : 0 < u) (h : s.obj.Timed u t₀ T₀ ts m) (hm : 0 < m) (hfew : m < 2 ^ 32)
    {fuel : ℕ} {io : PollInput} (hle : ∀ t ∈ reportTime? fuel io s, ts.getLastD t₀ ≤ t)
    (hres : (poll fuel io s).res = some s') :
    s'.obj.Timed u t₀ T₀ (ts ++ (reportTime? fuel io s).toList) m := by
  unfold poll at hres
  rw [Exec.res_bind] at hres
  obtain ⟨⟨s₁, status⟩, hsession, hres⟩ := Option.bind_eq_some_iff.mp hres
  dsimp only at hres
  rw [Exec.res_bind] at hres
  obtain ⟨⟨d, w⟩, hreport, hres⟩ := Option.bind_eq_some_iff.mp hres
  rw [Exec.res_bind] at hres
  obtain ⟨-, -, hres⟩ := Option.bind_eq_some_iff.mp hres
  rw [Exec.res_bind] at hres
  obtain ⟨d', hredistribute, hres⟩ := Option.bind_eq_some_iff.mp hres
  cases hres
  have htime : reportTime? fuel io s =
      if s₁.obj.ReportDue s₁.world.now then some s₁.world.tick.now else none := by
    unfold reportTime?
    rw [hsession]
    rfl
  rw [htime] at hle ⊢
  have hreported := sendDueReport_timed hu (session_timed h hsession) hm hfew
    (fun hdue => hle _ (by rw [if_pos hdue]; rfl)) hreport
  exact (hreported.congr (SenderData.measureStreamBitrate_stamp _)).congr
    (SenderData.redistribute_stamp hredistribute)

theorem connect_timed (h : s.obj.Timed u t₀ T₀ ts m) (isPathValid : Endpoint → Endpoint → Bool)
    (ssrc : UInt32) (destination : List Endpoint) :
    (s.connect isPathValid ssrc destination).2.obj.Timed u t₀ T₀ ts m := by
  have hstart : { s.obj with ssrc, destAddr := destination }.Timed u t₀ T₀ ts m :=
    h.congr ⟨rfl, rfl, rfl, rfl⟩
  unfold connect
  split
  · exact h
  · exact connectPaths_rule (I := fun d _ => d.Timed u t₀ T₀ ts m)
      (fun _ _ _ _ hd => hd.congr ⟨rfl, rfl, rfl, rfl⟩) isPathValid s.interfaces _ hstart

/-- Every step makes its calls, and counts the packet that it sends. -/
theorem step_timed {isPathValid : Endpoint → Endpoint → Bool} (hu : 0 < u) (h : s.obj.Timed u t₀ T₀ ts m)
    (hm : 0 < m) (hfew : m < 2 ^ 32) {e : Step} (hle : ∀ t ∈ callTime? s e, ts.getLastD t₀ ≤ t)
    (hres : (step isPathValid s e).res = some s') :
    s'.obj.Timed u t₀ T₀ (ts ++ (callTime? s e).toList) (m + if accepts s e then 1 else 0) := by
  have hidle (d : SenderData) (hd : d.Timed u t₀ T₀ ts m) : d.Timed u t₀ T₀ (ts ++ []) m := by
    rw [List.append_nil]
    exact hd
  cases e with
  | sendData data ret =>
    unfold step at hres
    rw [Exec.res_bind, sendData_res] at hres
    obtain ⟨⟨sent, s₁⟩, hsent, hres⟩ := Option.bind_eq_some_iff.mp hres
    cases hres
    obtain ⟨r, hr, hrs⟩ := Option.map_eq_some_iff.mp hsent
    cases hrs
    have haccepts : accepts s (.sendData data ret) = r.1 := by
      change (sendData s data ret).res.any Prod.fst = r.1
      rw [sendData_res, hr]
      rfl
    rw [haccepts]
    exact h.sendData hu hm hfew (hle _ rfl) hr
  | poll fuel io => exact poll_timed hu h hm hfew hle hres
  | connect ssrc destination =>
    cases hres
    exact hidle _ (connect_timed h isPathValid ssrc destination)
  | addInterface addr opened =>
    cases hres
    have hobj : (s.addInterface addr opened).obj = s.obj := by
      unfold Session.addInterface
      split <;> rfl
    exact hidle _ (hobj ▸ h)
  | suspendInterface addr suspend =>
    cases hres
    exact hidle _ h
  | fetchPacket =>
    cases hres
    have hobj : s.fetchPacket.2.obj = s.obj := by
      unfold Session.fetchPacket
      split <;> rfl
    exact hidle _ (hobj ▸ h)

variable {isPathValid : Endpoint → Endpoint → Bool} {H : List ((Sender × Step) ⊕ SenderEvent)}

theorem run_timed (hu : 0 < u) (h₀ : s.obj.Timed u t₀ T₀ [] 1)
    (hrun : Run (noting (step isPathValid)) (fun _ _ _ => True) s H (some s'))
    (horder : InOrder t₀ (callTimes H)) (hfew : 1 + acceptedIn H < 2 ^ 32) :
    s'.obj.Timed u t₀ T₀ (callTimes H) (1 + acceptedIn H) := by
  let I : List ((Sender × Step) ⊕ SenderEvent) → Sender → Prop := fun H s =>
    InOrder t₀ (callTimes H) → 1 + acceptedIn H < 2 ^ 32 →
      s.obj.Timed u t₀ T₀ (callTimes H) (1 + acceptedIn H)
  have hstep : ∀ H s e, I H s → True → (noting (step isPathValid) s e).Sat (fun _ _ => True) H I := by
    intro H s e hI _
    let J : List SenderEvent → Sender → Prop := fun _ s' =>
      InOrder t₀ (callTimes H ++ (callTime? s e).toList) →
        1 + (acceptedIn H + if accepts s e then 1 else 0) < 2 ^ 32 →
          s'.obj.Timed u t₀ T₀ (callTimes H ++ (callTime? s e).toList)
            (1 + (acceptedIn H + if accepts s e then 1 else 0))
    have hJ : (step isPathValid s e).Sat (fun _ _ => True) (told H) J := by
      refine ⟨fun _ _ _ _ => trivial, fun s' hres => ?_⟩
      intro horder hfew
      have hbefore : InOrder t₀ (callTimes H) ∧ ∀ t ∈ callTime? s e, (callTimes H).getLastD t₀ ≤ t := by
        cases hcall : callTime? s e with
        | none =>
          rw [hcall, Option.toList_none, List.append_nil] at horder
          exact ⟨horder, fun _ ht => by cases ht⟩
        | some t =>
          rw [hcall] at horder
          obtain ⟨hord, hle⟩ := horder.concat
          exact ⟨hord, fun _ ht => by cases ht; exact hle⟩
      have hless : 1 + acceptedIn H < 2 ^ 32 := by omega
      rw [← Nat.add_assoc]
      exact step_timed hu (hI hbefore.1 hless) (by omega) hless hbefore.2 hres
    refine Exec.sat_noting trivial hJ (fun _ _ _ => trivial) ?_
    intro L s' hs'
    change InOrder t₀ (callTimes _) → 1 + acceptedIn _ < 2 ^ 32 → s'.obj.Timed u t₀ T₀ (callTimes _) _
    rw [callTimes_noted, acceptedIn_noted]
    exact hs'
  exact (Run.sat (I := I) (fun _ _ => h₀) hstep hrun).2 s' rfl horder hfew

/-- Behind the first packet, sent at the time `t₀` with the timestamp `T₀`, the timestamps follow the
times of the calls to within a unit while the roundings of the spacings add up to no more. -/
theorem timestamp_near_iff {s₀ s₁ : Sender} {data : List UInt8} {ret : ℤ}
    (hu : 0 < s₀.obj.timestampUnit) (hfirst : s₀.obj.packetCount = 0)
    (hsent : (sendData s₀ data ret).res = some (true, s₁))
    (hrun : Run (noting (step isPathValid)) (fun _ _ _ => True) s₁ H (some s))
    (horder : InOrder s₀.world.now (callTimes H)) (hfew : 1 + acceptedIn H < 2 ^ 32) :
    let u := s₀.obj.timestampUnit
    let t₀ := s₀.world.now
    let T₀ := s₁.obj.timestamp
    let tₙ := (callTimes H).getLastD t₀
    (∃ k : ℤ, |(s.obj.timestamp.toNat : ℚ) + 2 ^ 32 * k - (T₀.toNat + (tₙ - t₀) / u)| ≤ 1) ↔
      ∃ k : ℤ, |drift (spacings u t₀ (callTimes H)) + 2 ^ 32 * k| ≤ 1 := by
  rw [sendData_res] at hsent
  obtain ⟨r, hr, hrs⟩ := Option.map_eq_some_iff.mp hsent
  obtain ⟨sent, d, w⟩ := r
  cases hrs
  have hstart := SenderData.sendData_first hfirst hr
  have htimed := run_timed hu hstart hrun horder hfew
  have hmod : (s.obj.timestamp.toNat : ℤ) ≡ d.timestamp.toNat +
      ticks (spacings s₀.obj.timestampUnit s₀.world.now (callTimes H)) [ZMOD 2 ^ 32] := by
    have hticks := UInt32.toNat_ofInt
      (ticks (spacings s₀.obj.timestampUnit s₀.world.now (callTimes H)))
    rw [htimed.timestamp, UInt32.toNat_add]
    unfold Int.ModEq
    omega
  have hiff := near_iff_drift (1 : ℚ) hmod
  rw [sum_spacings] at hiff
  push_cast at hiff
  exact hiff

/-- A sender with a path, before its first packet; its clock goes on by `step` with each reading. -/
def pacedSender (u step : ℚ) : Sender :=
  let s := (new u ⟨fun n => 1000 + n * step, fun _ => 0, 0⟩).addInterface ⟨0x0A000001, 23000⟩ true
  (connect (fun _ _ => true) s 0xDEAD [⟨0x0A000002, 22000⟩]).2

/-- Its first packet is sent. -/
def pacedStart (u step : ℚ) : Sender :=
  ((sendData (pacedSender u step) [65] 25).res.map Prod.snd).getD (pacedSender u step)

/-- Then four more. -/
def pacedRun (u step : ℚ) : Exec ((Sender × Step) ⊕ SenderEvent) Sender :=
  [.sendData [66] 25, .sendData [67] 25, .sendData [68] 25, .sendData [69] 25].foldlM
    (noting (Sender.step fun _ _ => true)) (pacedStart u step)

theorem pacedStart_sent {u step : ℚ}
    (h : (sendData (pacedSender u step) [65] 25).res.map Prod.fst = some true) :
    (sendData (pacedSender u step) [65] 25).res = some (true, pacedStart u step) := by
  obtain ⟨⟨sent, s⟩, hres, rfl⟩ := Option.map_eq_some_iff.mp h
  unfold pacedStart
  rw [hres]
  rfl

/-- With nine eighths of a unit between two readings of the clock the timestamps fall behind, by less than a
unit so far. -/
theorem pacedRun_near : ∃ s, (pacedRun 1 (9 / 8)).res = some s ∧
    ∃ k : ℤ, |(s.obj.timestamp.toNat : ℚ) + 2 ^ 32 * k - ((pacedStart 1 (9 / 8)).obj.timestamp.toNat +
      ((callTimes (pacedRun 1 (9 / 8)).log).getLastD 1000 - 1000) / 1)| ≤ 1 := by
  have hsent : (sendData (pacedSender 1 (9 / 8)) [65] 25).res = some (true, pacedStart 1 (9 / 8)) :=
    pacedStart_sent (by decide +kernel)
  have hsome : (pacedRun 1 (9 / 8)).res.isSome = true := by decide +kernel
  obtain ⟨s, hs⟩ := Option.isSome_iff_exists.mp hsome
  have hrun : Run (noting (Sender.step fun _ _ => true)) (fun _ _ _ => True) (pacedStart 1 (9 / 8))
      (pacedRun 1 (9 / 8)).log (pacedRun 1 (9 / 8)).res := Run.foldlM _ _
  rw [hs] at hrun
  have horder : InOrder (pacedSender 1 (9 / 8)).world.now (callTimes (pacedRun 1 (9 / 8)).log) := by
    unfold InOrder
    decide +kernel
  have hnear := timestamp_near_iff (by decide +kernel) (by decide +kernel) hsent hrun horder
    (by decide +kernel)
  have hnow : (pacedSender 1 (9 / 8)).world.now = 1000 := by decide +kernel
  have hunit : (pacedSender 1 (9 / 8)).obj.timestampUnit = 1 := by decide +kernel
  rw [hnow, hunit] at hnear
  exact ⟨s, hs, hnear.mpr ⟨0, by decide +kernel⟩⟩

/-- At 8000 units a second, with 20000 packets a second behind the first one, the timestamps fall behind. -/
theorem pacedRun_falls_behind :
    ¬ ∀ (isPathValid : Endpoint → Endpoint → Bool) (s₀ s₁ s : Sender) (data : List UInt8) (ret : ℤ)
      (H : List ((Sender × Step) ⊕ SenderEvent)), 0 < s₀.obj.timestampUnit → s₀.obj.packetCount = 0 →
        (sendData s₀ data ret).res = some (true, s₁) →
        Run (noting (step isPathValid)) (fun _ _ _ => True) s₁ H (some s) →
        InOrder s₀.world.now (callTimes H) → 1 + acceptedIn H < 2 ^ 32 →
          ∃ k : ℤ, |(s.obj.timestamp.toNat : ℚ) + 2 ^ 32 * k - (s₁.obj.timestamp.toNat +
            ((callTimes H).getLastD s₀.world.now - s₀.world.now) / s₀.obj.timestampUnit)| ≤ 1 := by
  intro h
  have hsent : (sendData (pacedSender (1 / 8000) (1 / 20000)) [65] 25).res =
      some (true, pacedStart (1 / 8000) (1 / 20000)) := pacedStart_sent (by decide +kernel)
  have hoff : (pacedRun (1 / 8000) (1 / 20000)).res.map (fun s => (s.obj.timestamp.toNat : ℚ) -
      ((pacedStart (1 / 8000) (1 / 20000)).obj.timestamp.toNat +
        ((callTimes (pacedRun (1 / 8000) (1 / 20000)).log).getLastD
            (pacedSender (1 / 8000) (1 / 20000)).world.now -
          (pacedSender (1 / 8000) (1 / 20000)).world.now) /
            (pacedSender (1 / 8000) (1 / 20000)).obj.timestampUnit)) = some (-7 / 5) := by
    decide +kernel
  obtain ⟨s, hs, hoff⟩ := Option.map_eq_some_iff.mp hoff
  have hrun : Run (noting (Sender.step fun _ _ => true)) (fun _ _ _ => True)
      (pacedStart (1 / 8000) (1 / 20000)) (pacedRun (1 / 8000) (1 / 20000)).log
      (pacedRun (1 / 8000) (1 / 20000)).res := Run.foldlM _ _
  rw [hs] at hrun
  have horder : InOrder (pacedSender (1 / 8000) (1 / 20000)).world.now
      (callTimes (pacedRun (1 / 8000) (1 / 20000)).log) := by
    unfold InOrder
    decide +kernel
  obtain ⟨k, hk⟩ := h _ _ _ s _ _ _ (by decide +kernel) (by decide +kernel) hsent hrun horder
    (by decide +kernel)
  rw [add_sub_right_comm, hoff, abs_le] at hk
  obtain ⟨hlow, hhigh⟩ := hk
  rcases Int.lt_or_le 0 k with hpos | hneg
  · have hone : (1 : ℚ) ≤ k := by exact_mod_cast hpos
    linarith
  · have hzero : (k : ℚ) ≤ 0 := by exact_mod_cast hneg
    linarith

end Sender

end Mprtp
