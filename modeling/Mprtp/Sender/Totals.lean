import Mprtp.Sender.Reports
import Mprtp.Sender.Rules
import Mprtp.Sender.Wire
import Mprtp.Lib.Sums

/-! The packet and octet counters of the stream against those of the subflows, and against the
calls of `send_data` that returned true. -/
namespace Mprtp

namespace SenderData

/-- The sum of a counter over the subflows. -/
def total (d : SenderData) (f : Subflow → UInt32) : ℕ := (d.subflows.map fun sf => (f sf).toNat).sum

/-- The counters of the stream are the sums of those of the subflows, and they count the packets with
the payloads `accepted`, modulo 2^32. -/
structure Totals (d : SenderData) (accepted : List (List UInt8)) : Prop where
  packets : d.packetCount.toNat = d.total Subflow.packetCount % 2 ^ 32
  octets : d.octetCount.toNat = d.total Subflow.octetCount % 2 ^ 32
  acceptedPackets : d.packetCount.toNat = accepted.length % 2 ^ 32
  acceptedOctets : d.octetCount.toNat = (accepted.map List.length).sum % 2 ^ 32

/-- The counters of the stream and of the subflows are the same. -/
structure SameCounts (d d' : SenderData) : Prop where
  packetCount : d'.packetCount = d.packetCount
  octetCount : d'.octetCount = d.octetCount
  packets : d'.subflows.map Subflow.packetCount = d.subflows.map Subflow.packetCount
  octets : d'.subflows.map Subflow.octetCount = d.subflows.map Subflow.octetCount

theorem total_congr {d d' : SenderData} {f : Subflow → UInt32}
    (h : d'.subflows.map f = d.subflows.map f) : d'.total f = d.total f := by
  unfold total
  have hmap := congrArg (List.map UInt32.toNat) h
  rw [List.map_map, List.map_map] at hmap
  exact congrArg List.sum hmap

variable {d d' : SenderData} {accepted : List (List UInt8)}

theorem Totals.congr (h : d.Totals accepted) (hs : d.SameCounts d') : d'.Totals accepted := by
  constructor
  · rw [hs.packetCount, total_congr hs.packets]
    exact h.packets
  · rw [hs.octetCount, total_congr hs.octets]
    exact h.octets
  · rw [hs.packetCount]
    exact h.acceptedPackets
  · rw [hs.octetCount]
    exact h.acceptedOctets

/-- Other fields may change. -/
theorem SameCounts.of_subflows (hp : d'.packetCount = d.packetCount)
    (ho : d'.octetCount = d.octetCount) (hs : d'.subflows = d.subflows) : d.SameCounts d' where
  packetCount := hp
  octetCount := ho
  packets := by rw [hs]
  octets := by rw [hs]

/-- A subflow is replaced by one with its counters. -/
theorem SameCounts.set {k : ℕ} {sf sf' : Subflow} (hk : d.subflows[k]? = some sf)
    (hpackets : sf'.packetCount = sf.packetCount) (hoctets : sf'.octetCount = sf.octetCount)
    (recalc : Bool) :
    d.SameCounts { d with subflows := d.subflows.set k sf', recalcDistribution := recalc } := by
  have hmap : ∀ f : Subflow → UInt32, f sf' = f sf →
      (d.subflows.set k sf').map f = d.subflows.map f := by
    intro f hf
    obtain ⟨hlt, hget⟩ := List.getElem?_eq_some_iff.mp hk
    rw [List.map_set, hf, ← List.map_set, ← hget, List.set_getElem_self]
  exact ⟨rfl, rfl, hmap _ hpackets, hmap _ hoctets⟩

/-- A packet with the payload `data` is counted for the stream and for a subflow. -/
theorem Totals.sent (h : d.Totals accepted) {k : ℕ} {sf sf' : Subflow} {data : List UInt8}
    (hk : d.subflows[k]? = some sf) (hsubflows : d'.subflows = d.subflows.set k sf')
    (hp : sf'.packetCount = sf.packetCount + 1)
    (ho : sf'.octetCount = sf.octetCount + UInt32.ofNat data.length)
    (hdp : d'.packetCount = d.packetCount + 1)
    (hdo : d'.octetCount = d.octetCount + UInt32.ofNat data.length) :
    d'.Totals (accepted ++ [data]) := by
  obtain ⟨hpackets, hoctets, haccepted, hsizes⟩ := h
  have htotal : ∀ f : Subflow → UInt32,
      d'.total f + (f sf).toNat = d.total f + (f sf').toNat := by
    intro f
    unfold total
    rw [hsubflows]
    exact sum_map_set (fun sf => (f sf).toNat) hk
  have h₁ := htotal Subflow.packetCount
  have h₂ := htotal Subflow.octetCount
  rw [hp, UInt32.toNat_add, UInt32.toNat_one] at h₁
  rw [ho, UInt32.toNat_add, UInt32.toNat_ofNat'] at h₂
  constructor
  · rw [hdp, UInt32.toNat_add, UInt32.toNat_one]
    omega
  · rw [hdo, UInt32.toNat_add, UInt32.toNat_ofNat']
    omega
  · rw [hdp, UInt32.toNat_add, UInt32.toNat_one, List.length_append, List.length_singleton]
    omega
  · rw [hdo, UInt32.toNat_add, UInt32.toNat_ofNat', List.map_append, List.map_singleton,
      List.sum_append, List.sum_singleton]
    omega

theorem countSent_counts (d : SenderData) (dataLen pktLen : ℕ) (w : World) :
    (d.countSent dataLen pktLen w).1.subflows = d.subflows ∧
      (d.countSent dataLen pktLen w).1.packetCount = d.packetCount + 1 ∧
      (d.countSent dataLen pktLen w).1.octetCount = d.octetCount + UInt32.ofNat dataLen := by
  obtain ⟨lastSenderReportTime, sbSize, sbTime, hfields⟩ := d.countSent_fields dataLen pktLen w
  rw [hfields]
  exact ⟨rfl, rfl, rfl⟩

theorem sendto_counts (sf : Subflow) (data : List UInt8) (len : UInt32) (ret : ℤ) :
    let sf' := (sf.sendto data len false ret).2
    if ret = data.length then
      sf'.packetCount = sf.packetCount + 1 ∧ sf'.octetCount = sf.octetCount + len
    else sf'.packetCount = sf.packetCount ∧ sf'.octetCount = sf.octetCount := by
  unfold Subflow.sendto
  by_cases hret : ret = data.length
  · simp only [Bool.false_eq_true, if_false, if_pos hret, and_self]
  · simp only [Bool.false_eq_true, if_false, if_neg hret, and_self]

/-- `send_data` counts on both levels, or on none of them. -/
theorem Totals.sendData (h : d.Totals accepted) {w : World} {data : List UInt8} {ret : ℤ}
    {r : Bool × SenderData × World} (hres : (d.sendData w data ret).res = some r) :
    r.2.1.Totals (if r.1 then accepted ++ [data] else accepted) := by
  rcases d.sendData_eq w data ret with hstuck | ⟨k, sf, -, hk, heq⟩
  · rw [hstuck] at hres
    cases hres
  · obtain ⟨-, hpackets, hoctets, hsubflows⟩ :=
      { d with sequesnceNumber := d.sequesnceNumber + 1 }.getNextTimestamp_keeps (d.selectSubflow w).2
    change (d.numbered w).1.packetCount = d.packetCount at hpackets
    change (d.numbered w).1.octetCount = d.octetCount at hoctets
    change (d.numbered w).1.subflows = d.subflows at hsubflows
    generalize d.numbered w = r at heq hpackets hoctets hsubflows
    obtain ⟨d₂, w₂⟩ := r
    dsimp only at heq hpackets hoctets hsubflows
    generalize d.rtpDatagram sf d₂.timestamp data = pkt at heq
    have hcounts := sendto_counts sf pkt (UInt32.ofNat data.length) ret
    dsimp only at hcounts
    rw [heq] at hres
    by_cases hret : ret = pkt.length
    · rw [if_pos hret] at hres hcounts
      obtain ⟨hsf, hsp, hso⟩ :=
        (d₂.put k (sf.sendto pkt (UInt32.ofNat data.length) false ret).2).countSent_counts
          data.length pkt.length w₂
      cases hres
      rw [if_pos rfl]
      refine h.sent hk ?_ hcounts.1 hcounts.2 ?_ ?_
      · rw [hsf, ← hsubflows]
      · rw [hsp, ← hpackets]
      · rw [hso, ← hoctets]
    · rw [if_neg hret] at hres hcounts
      cases hres
      rw [if_neg Bool.false_ne_true]
      have hset := SameCounts.set hk hcounts.1 hcounts.2 d.recalcDistribution
      exact h.congr ⟨hpackets, hoctets, by rw [← hset.packets, ← hsubflows],
        by rw [← hset.octets, ← hsubflows]⟩

theorem measure_counts (sf : Subflow) (last pkt : RtcpRrPacket) (w : World) :
    ((sf.measure last pkt w).1.store pkt).packetCount = sf.packetCount ∧
      ((sf.measure last pkt w).1.store pkt).octetCount = sf.octetCount := by
  unfold Subflow.measure Subflow.withoutLoss Subflow.withLoss Subflow.relax
  dsimp only
  repeat' split
  all_goals exact ⟨rfl, rfl⟩

/-- A receiver report counts nothing. -/
theorem onRtcpRrPacket_counts (d : SenderData) (w : World) (pkt : RtcpRrPacket) (id : UInt16) :
    d.SameCounts (d.onRtcpRrPacket w pkt id).1 := by
  rcases d.onRtcpRrPacket_cases w pkt id with ⟨hres, -⟩ | ⟨k, sf, hst⟩ | ⟨m, hms⟩
  · rw [hres]
    exact .of_subflows rfl rfl rfl
  · have hpackets : (sf.store pkt).packetCount = sf.packetCount := rfl
    have hoctets : (sf.store pkt).octetCount = sf.octetCount := rfl
    rw [hst.result]
    exact .set hst.subflow hpackets hoctets true
  · obtain ⟨hpackets, hoctets⟩ := measure_counts m.sf m.last pkt w
    rw [hms.result]
    exact .set hms.subflow hpackets hoctets true

theorem reweighted_counts {sfs : List Subflow} (h : d.subflows.Forall₂ Subflow.Reweighted sfs) :
    d.SameCounts { d with subflows := sfs, recalcDistribution := false } where
  packetCount := rfl
  octetCount := rfl
  packets := Subflow.Reweighted.map_eq (fun _ _ => rfl) h
  octets := Subflow.Reweighted.map_eq (fun _ _ => rfl) h

theorem addSubflow_totals (h : d.Totals accepted) (iface : ℕ) (remote : Endpoint) (w : World) :
    (d.addSubflow iface remote w).Totals accepted := by
  have htotal : ∀ f : Subflow → UInt32, f (Subflow.new d.nextSubflowId iface remote w).1 = 0 →
      (d.addSubflow iface remote w).total f = d.total f := by
    intro f hf
    unfold total addSubflow
    rw [List.map_append, List.map_singleton, hf, List.sum_append]
    rfl
  refine ⟨?_, ?_, h.acceptedPackets, h.acceptedOctets⟩
  · rw [htotal _ rfl]
    exact h.packets
  · rw [htotal _ rfl]
    exact h.octets

theorem measureStreamBitrate_counts (d : SenderData) (curtime : RtpTime) :
    d.SameCounts (d.measureStreamBitrate curtime) := by
  obtain ⟨streamBitrate, sbSize, sbTime, hfields⟩ := d.measureStreamBitrate_fields curtime
  rw [hfields]
  exact .of_subflows rfl rfl rfl

theorem sendSenderReport_counts {w : World} {r : SenderData × World}
    (hres : (d.sendSenderReport w).res = some r) : d.SameCounts r.1 := by
  obtain ⟨-, hpackets, hoctets, hsubflows⟩ := d.getNextTimestamp_keeps w
  have hsame : ∀ size w', d.SameCounts ((d.stamped w).updateStreamBitrate size w').1 := by
    intro size w'
    obtain ⟨sbSize, sbTime, hfields⟩ := (d.stamped w).updateStreamBitrate_fields size w'
    rw [hfields]
    exact .of_subflows hpackets hoctets hsubflows
  rcases d.sendSenderReport_eq w with hstuck | ⟨k, sf, -, -, -, heq⟩
  · rw [hstuck] at hres
    cases hres
  · rw [heq] at hres
    cases hres
    have hkept := hsame (UInt32.ofNat (d.builtReport w).length)
      ((d.stamped w).selectSubflow (d.getNextTimestamp w).2).2
    exact ⟨hkept.packetCount, hkept.octetCount, hkept.packets, hkept.octets⟩

end SenderData

/-- A sender report with the totals of its subflows. -/
def ReportsTotals : SenderEvent → Prop
  | .sent _ out => out.rtcp = true → ∃ (d : SenderData) (accepted : List (List UInt8))
      (ntp : RtpNtpTime), d.Totals accepted ∧ out.data = d.reportBytes ntp ∧
        (d.reportBytes ntp).length ≤ maxPacketSize
  | _ => True

namespace Sender

/-- All but the sending of data keeps the totals. -/
theorem keptBetweenSends_totals (accepted : List (List UInt8)) :
    KeptBetweenSends (fun _ => True) (fun _ => ReportsTotals)
      fun _ s => s.obj.Totals accepted where
  session := by
    intro H s fuel io _ h
    have hbrings : io.Brings fun _ => True := fun _ _ _ _ => trivial
    have hcalls : ∀ (_ : List SenderEvent) d (packets : List RtpPacket) w (raw : RawPacket) c i, True →
        c.Of raw i → d.Totals accepted → ReportsTotals (senderHandlers.visit d c) ∧
          (senderHandlers.next d packets w c).1.Totals accepted := by
      intro _ d packets w raw c i _ _ hd
      refine ⟨trivial, ?_⟩
      cases c with
      | rtp pkt j => exact hd
      | rtcp call j =>
        cases call with
        | sr pkt id => exact hd
        | rr pkt id ssrc => exact hd.congr (d.onRtcpRrPacket_counts w pkt id)
    have hsat : (Session.poll senderHandlers fuel io s).Sat (fun _ => ReportsTotals) H _ :=
      Session.poll_obj (I := fun _ d _ => d.Totals accepted) hcalls hbrings (fun _ _ _ _ => trivial) h
    exact hsat.mono (fun _ _ hg => hg) fun _ _ hr => hr.1
  tick := fun _ _ h => h
  sendsReport := by
    intro H s k sf pkt r hs h
    have hlog : .sent k (Interface.sendto sf.iface pkt sf.remote true) ∈
        (s.obj.sendSenderReport s.world).log := by
      rw [hs.result]
      exact List.mem_singleton.mpr rfl
    have hsent := s.obj.sendSenderReport_sent s.world hlog
    obtain ⟨-, hpackets, hoctets, hsubflows⟩ := s.obj.getNextTimestamp_keeps s.world
    have hstamped := h.congr (.of_subflows hpackets hoctets hsubflows)
    have hres : (s.obj.sendSenderReport s.world).res = some r := by rw [hs.result]
    exact ⟨fun _ => ⟨_, accepted, _, hstamped, hsent⟩,
      h.congr (SenderData.sendSenderReport_counts hres)⟩
  measure := fun H s curtime h => ⟨trivial, h.congr (s.obj.measureStreamBitrate_counts curtime)⟩
  recalc := fun H s sfs hsfs h => ⟨trivial, h.congr (SenderData.reweighted_counts hsfs)⟩
  connect := fun H s ssrc destAddr h => h.congr (.of_subflows rfl rfl rfl)
  addSubflow := fun H s iface remote h => SenderData.addSubflow_totals h iface remote s.world
  addInterface := by
    intro H s addr opened h
    unfold Session.addInterface
    split <;> exact h
  suspendInterface := fun H s addr suspend h => h
  fetchPacket := by
    intro H s h
    unfold Session.fetchPacket
    split <;> exact h

/-- A step, and the payloads for which `send_data` has returned true so far. -/
def stepAccepting (isPathValid : Endpoint → Endpoint → Bool) (p : Sender × List (List UInt8)) :
    Step → Exec SenderEvent (Sender × List (List UInt8))
  | .sendData data ret => do
    let (sent, s) ← sendData p.1 data ret
    return (s, if sent then p.2 ++ [data] else p.2)
  | e => do
    let s ← step isPathValid p.1 e
    return (s, p.2)

variable {isPathValid : Endpoint → Endpoint → Bool} {timestampUnit : ℚ} {w : World}
  {H : List SenderEvent}

/-- The sender does not know that its results are collected. -/
theorem map_stepAccepting (p : Sender × List (List UInt8)) (e : Step) :
    Prod.fst <$> stepAccepting isPathValid p e = step isPathValid p.1 e := by
  cases e <;> simp only [stepAccepting, step, map_pure, bind_pure_comp, Functor.map_map, id_map']

/-- So every run of a sender is one in which they are. -/
theorem exists_accepting_run {r : Option Sender}
    (hrun : Run (step isPathValid) (fun _ _ _ => True) (new timestampUnit w) H r) :
    ∃ r', Run (stepAccepting isPathValid) (fun _ _ _ => True) (new timestampUnit w, []) H r' ∧
      r'.map Prod.fst = r :=
  Run.lift map_stepAccepting hrun

theorem sendData_totals {s : Sender} {accepted : List (List UInt8)} (h : s.obj.Totals accepted)
    (data : List UInt8) (ret : ℤ) : (s.obj.sendData s.world data ret).Sat (fun _ => ReportsTotals) H
      fun _ r => r.2.1.Totals (if r.1 then accepted ++ [data] else accepted) := by
  apply sendData_sat
  intro k sf timestamp r hs
  have hr : (s.obj.sendData s.world data ret).res = some r := by rw [hs.result]
  exact ⟨fun hrtcp => absurd hrtcp Bool.false_ne_true, h.sendData hr⟩

theorem stepAccepting_totals {p : Sender × List (List UInt8)} (h : p.1.obj.Totals p.2) (e : Step) :
    (stepAccepting isPathValid p e).Sat (fun _ => ReportsTotals) H
      fun _ p' => p'.1.obj.Totals p'.2 := by
  obtain ⟨s, accepted⟩ := p
  by_cases hdata : ∃ data ret, e = .sendData data ret
  · obtain ⟨data, ret, rfl⟩ := hdata
    change (do
      let (sent, s') ← sendData s data ret
      return (s', if sent then accepted ++ [data] else accepted) :
        Exec SenderEvent (Sender × List (List UInt8))).Sat _ H _
    apply Exec.sat_bind (Q := fun _ q => q.2.obj.Totals (if q.1 then accepted ++ [data] else accepted))
    · apply Exec.sat_bind (sendData_totals h data ret)
      intro H' r h'
      exact Exec.sat_pure h'
    · intro H' q h'
      exact Exec.sat_pure h'
  · have hmeets : e.Meets fun _ => True := by cases e <;> trivial
    have hstep : stepAccepting isPathValid (s, accepted) e = (do
        let s ← step isPathValid s e
        return (s, accepted)) := by
      cases e with
      | sendData data ret => exact absurd ⟨data, ret, rfl⟩ hdata
      | _ => rfl
    rw [hstep]
    have hsat := (keptBetweenSends_totals accepted).step (H := H) isPathValid h hmeets
      fun data ret he => hdata ⟨data, ret, he⟩
    apply Exec.sat_bind hsat
    intro H' s' h'
    exact Exec.sat_pure h'

/-- In every run, the counters of the stream are the sums of those of the subflows and count the
calls of `send_data` that returned true and their payloads, modulo 2^32; and in every sender report
the totals are the sums of what it says about the subflows. -/
theorem counters_eq_totals {r : Option (Sender × List (List UInt8))}
    (hrun : Run (stepAccepting isPathValid) (fun _ _ _ => True) (new timestampUnit w, []) H r) :
    (∀ s accepted, r = some (s, accepted) →
      s.obj.packetCount.toNat = s.obj.total Subflow.packetCount % 2 ^ 32 ∧
        s.obj.octetCount.toNat = s.obj.total Subflow.octetCount % 2 ^ 32 ∧
        s.obj.packetCount.toNat = accepted.length % 2 ^ 32 ∧
        s.obj.octetCount.toNat = (accepted.map List.length).sum % 2 ^ 32) ∧
    ∀ k out, .sent k out ∈ H → out.rtcp = true →
      ∀ raw : RawPacket, raw.data = out.data → ∀ fuel, raw.dataLen < fuel →
        ∃ (sr : RtcpSrPacket) (subflows : List (RtcpSrPacket × UInt16)),
          raw.rtcpCalls fuel = (.sr sr 0 :: subflows.map fun p => .sr p.1 p.2, true) ∧
          sr.packetCount.toNat = (subflows.map fun p => p.1.packetCount.toNat).sum % 2 ^ 32 ∧
          sr.octetCount.toNat = (subflows.map fun p => p.1.octetCount.toNat).sum % 2 ^ 32 := by
  have h₀ : (new timestampUnit w).obj.Totals [] := ⟨rfl, rfl, rfl, rfl⟩
  obtain ⟨hlog, hend⟩ := Run.sat (I := fun _ p => p.1.obj.Totals p.2) h₀
    (fun _ _ e h _ => stepAccepting_totals h e) hrun
  constructor
  · intro s accepted hr
    have h := hend (s, accepted) hr
    exact ⟨h.packets, h.octets, h.acceptedPackets, h.acceptedOctets⟩
  · intro k out hmem hrtcp raw hdata fuel hfuel
    obtain ⟨pre, post, rfl⟩ := List.append_of_mem hmem
    obtain ⟨d, accepted, ntp, h, hbytes, hfits⟩ := hlog pre _ post rfl hrtcp
    have hcalls := d.reportBytes_decoded ntp hfits (hdata.trans hbytes) hfuel
    refine ⟨d.srSent d.packetCount d.octetCount ntp raw.fromAddr raw.recvtime, d.subflows.map fun sf =>
      (d.srSent sf.packetCount sf.octetCount ntp raw.fromAddr raw.recvtime, sf.subflowId), ?_, ?_, ?_⟩
    · rw [hcalls, List.map_map]
      rfl
    · rw [List.map_map]
      exact h.packets
    · rw [List.map_map]
      exact h.octets

/-- Two paths, a packet that is sent, one that is not, and another one; then a report is due. -/
def failingSends : List Step :=
  [.addInterface ⟨0x0A000001, 23000⟩ true, .connect 0xDEAD [⟨0x0A000002, 22000⟩, ⟨0x0B000002, 22000⟩],
    .sendData [65] 25, .sendData [66, 67] (-1), .sendData [68, 69, 70] 27,
    .poll 10 fun _ _ => {}, .poll 10 fun _ _ => {}]

def failingSendsRun : Exec SenderEvent (Sender × List (List UInt8)) :=
  failingSends.foldlM (stepAccepting fun _ _ => true) (new 1 (.ticking 1000), [])

/-- The report that a log entry is about. -/
def sentReport? : SenderEvent → Option (ℕ × OutDatagram)
  | .sent k out => if out.rtcp then some (k, out) else none
  | _ => none

theorem eq_sent_of_sentReport? {e : SenderEvent} {k : ℕ} {out : OutDatagram}
    (h : sentReport? e = some (k, out)) : e = .sent k out ∧ out.rtcp = true := by
  cases e with
  | sent k' out' =>
    change (if out'.rtcp then some (k', out') else none) = some (k, out) at h
    split at h
    · rename_i hrtcp
      obtain ⟨rfl, rfl⟩ := Prod.mk.inj (Option.some.inj h)
      exact ⟨rfl, hrtcp⟩
    · cases h
  | _ => cases h

theorem failingSends_counters : ∃ s accepted, failingSendsRun.res = some (s, accepted) ∧
    accepted = [[65], [68, 69, 70]] ∧ s.obj.packetCount.toNat = 2 ∧
      s.obj.total Subflow.octetCount % 2 ^ 32 = 4 ∧
      ∃ k out, ∃ (sr sr₁ sr₂ : RtcpSrPacket) (id₁ id₂ : UInt16), .sent k out ∈ failingSendsRun.log ∧
        (twoPathsRaw out).rtcpCalls 200 = ([.sr sr 0, .sr sr₁ id₁, .sr sr₂ id₂], true) ∧
        sr.packetCount.toNat = (sr₁.packetCount.toNat + sr₂.packetCount.toNat) % 2 ^ 32 := by
  have hsome : failingSendsRun.res.map Prod.snd = some [[65], [68, 69, 70]] := by decide +kernel
  obtain ⟨⟨s, accepted⟩, hres, rfl⟩ := Option.map_eq_some_iff.mp hsome
  obtain ⟨hstate, hreports⟩ := counters_eq_totals (Run.foldlM (new 1 (.ticking 1000), []) failingSends)
  obtain ⟨-, hoctets, hpackets, hsizes⟩ := hstate s _ hres
  have hthree : ∃ p ∈ failingSendsRun.log.filterMap sentReport?, p.2.data.length < 200 ∧
      ((twoPathsRaw p.2).rtcpCalls 200).1.length = 3 := by decide +kernel
  obtain ⟨⟨k, out⟩, hmem, hfuel, hlen⟩ := hthree
  obtain ⟨e, he, hreport⟩ := List.mem_filterMap.mp hmem
  obtain ⟨rfl, hrtcp⟩ := eq_sent_of_sentReport? hreport
  obtain ⟨sr, subflows, hcalls, hsum, -⟩ := hreports k out he hrtcp (twoPathsRaw out) rfl 200 hfuel
  rw [hcalls, List.length_cons, List.length_map] at hlen
  obtain ⟨p₁, p₂, rfl⟩ := List.length_eq_two.mp (Nat.succ.inj hlen)
  exact ⟨s, _, hres, rfl, hpackets, hoctets ▸ hsizes, k, out, sr, p₁.1, p₂.1, p₁.2, p₂.2, he, hcalls, hsum⟩

end Sender

end Mprtp
