import Mprtp.Receiver.Runs

/-! The reports that `source::poll` sends: whether there is a subflow to send them on, where
they go and whether they fit their buffer. -/
namespace Mprtp

def ReceiverEvent.polled? : ReceiverEvent → Option Source
  | .poll src => some src
  | _ => none

def ReceiverEvent.sent? : ReceiverEvent → Option (UInt32 × OutDatagram)
  | .sent ssrc out => some (ssrc, out)
  | _ => none

theorem ReceiverEvent.eq_poll {e : ReceiverEvent} {src : Source} (h : e.polled? = some src) :
    e = .poll src := by
  cases e with
  | poll _ =>
    cases h
    rfl
  | _ => cases h

theorem ReceiverEvent.eq_sent {e : ReceiverEvent} {ssrc : UInt32} {out : OutDatagram}
    (h : e.sent? = some (ssrc, out)) : e = .sent ssrc out := by
  cases e with
  | sent _ _ =>
    cases h
    rfl
  | _ => cases h

/-- The endpoint that belongs to the RTP endpoint `e` for RTCP. -/
def rtcpEndpoint (e : Endpoint) : Endpoint := ⟨e.ip, e.port + 1⟩

theorem rtcpEndpoint_inj {e e' : Endpoint} : rtcpEndpoint e = rtcpEndpoint e' ↔ e = e' := by
  unfold rtcpEndpoint
  rw [Endpoint.mk.injEq, UInt16.add_left_inj]
  cases e
  cases e'
  rw [Endpoint.mk.injEq]

/-- The packet comes from a path of its SSRC: RTP from an endpoint of `paths`, a sender report
from the RTCP endpoint that belongs to one. -/
def Call.FromPath (paths : UInt32 → List Endpoint) : Call → Prop
  | .rtp pkt _ => pkt.fromAddress ∈ paths pkt.ssrc
  | .rtcp (.sr pkt _) _ => pkt.recvFrom ∈ (paths pkt.senderSsrc).map rtcpEndpoint
  | .rtcp (.rr _ _ _) _ => True

instance (paths : UInt32 → List Endpoint) (c : Call) : Decidable (c.FromPath paths) :=
  match c with
  | .rtp _ _ => inferInstanceAs (Decidable (_ ∈ _))
  | .rtcp (.sr _ _) _ => inferInstanceAs (Decidable (_ ∈ _))
  | .rtcp (.rr _ _ _) _ => inferInstanceAs (Decidable True)

theorem mention_addr_mem {paths : UInt32 → List Endpoint} {H : List ReceiverEvent} {ssrc : UInt32}
    (hpaths : ∀ c ∈ callsOf H, c.FromPath paths) {m : Mention} (hm : m ∈ mentions H ssrc)
    (hrtp : m.rtp = true) : m.addr ∈ paths ssrc := by
  obtain ⟨c, hc, hcm⟩ := List.mem_filterMap.mp hm
  have hpath := hpaths c hc
  cases c with
  | rtp pkt i =>
    rw [Call.mention_rtp] at hcm
    split at hcm
    · rename_i hs
      cases hcm
      rw [← hs]
      exact hpath
    · cases hcm
  | rtcp call i =>
    cases call with
    | sr pkt id =>
      rw [Call.mention_sr] at hcm
      split at hcm
      · cases hcm
        cases hrtp
      · cases hcm
    | rr pkt id s => cases hcm

/-- A report that is sent was built by a source that had one to send. -/
def BuiltWhenPolled (H : List ReceiverEvent) : ReceiverEvent → Prop
  | .sent _ out => ∃ src w, .poll src ∈ H ∧ src.sendRr = true ∧
      out.data = (src.buildReport w).1 ++ (src.buildReport w).2.1
  | _ => True

namespace Receiver

theorem keptByParts_built : KeptByParts (fun _ => True) BuiltWhenPolled fun _ _ _ => True where
  rtp := fun _ _ _ _ _ _ _ _ _ _ => ⟨trivial, trivial⟩
  sr := fun _ _ _ _ _ _ _ _ => ⟨trivial, trivial⟩
  rr := fun _ _ _ _ _ _ _ _ => ⟨trivial, trivial⟩
  sources := by
    intro H d packets w _
    refine pollSources_sat (J := fun _ _ => True) ?_ trivial w
    intro H d before src after w _ _
    refine src.poll_sat (Q := fun _ _ => True) w trivial (fun _ => trivial) (fun _ => trivial) ?_
    intro sf hrr _ _
    exact ⟨⟨src, w, by simp, hrr, rfl⟩, trivial⟩
  fetched := fun _ _ _ _ _ => ⟨trivial, trivial⟩

section

variable {timestampUnit : ℚ} {ssrc : UInt32} {w : World} {H : List ReceiverEvent}
  {r : Option Receiver}

theorem run_built (hrun : Run step (fun _ _ _ => True) (new timestampUnit ssrc w) H r)
    {n : ℕ} {e : ReceiverEvent} (hn : H[n]? = some e) : BuiltWhenPolled (H.take n) e :=
  (keptByParts_built.run trivial hrun).1 n e hn

/-- In every run, a source that is polled has a subflow exactly when an RTP packet or a
sender report on a subflow was handled for its SSRC before. -/
theorem poll_has_subflow_iff
    (hrun : Run step (fun _ _ _ => True) (new timestampUnit ssrc w) H r)
    {n : ℕ} {src : Source} (hn : H[n]? = some (.poll src)) :
    src.subflows ≠ [] ↔ mentions (H.take n) src.ssrc ≠ [] := by
  have htold : Told (H.take n) (.poll src) := run_told hrun hn
  have hnil := htold.subflows_eq_nil_iff
  exact not_congr hnil

end

/-- A sender report on the whole stream, from the SSRC 0xDEAD. -/
def streamReport : List UInt8 :=
  [0x80, 200, 0, 6, 0, 0, 0xDE, 0xAD] ++ List.replicate 20 0

/-- An RTP packet of subflow 1 of the same SSRC. -/
def subflowPacket : List UInt8 :=
  [0x90, 0, 0, 100, 0, 0, 0, 0, 0, 0, 0xDE, 0xAD, 0xBE, 0xDE, 0, 2, 4, 4, 0, 1, 0, 7, 0, 0, 65]

/-- The datagrams of one sender, and the status of the poll behind them. -/
def fromSender (datagrams : List (List UInt8)) (status : ℤ) : PollOutcome where
  recvd := datagrams.map fun data => some ⟨data, fun _ => 0, ⟨0x0A000001, 23000⟩⟩
  status := status

/-- A packet of a subflow of its own on each interface. -/
def packetOnEach : PollInput := fun i rtcp =>
  if rtcp then {} else fromSender [subflowPacket.set 19 (UInt8.ofNat (i + 1))] 0

/-- A packet, then a sender report. -/
def packetThenReport : List Step :=
  [.addInterface ⟨0x0A000002, 22000⟩ true,
    .poll 10 (.arrive false ⟨0x0A000001, 23000⟩ [subflowPacket]),
    .poll 10 (.arrive true ⟨0x0A000001, 23001⟩ [streamReport])]

def packetThenReportLog : List ReceiverEvent :=
  (packetThenReport.foldlM step (new 1 1 (.ticking 1000))).log

theorem packetThenReport_has_subflow : ∃ src, packetThenReportLog[3]? = some (.poll src) ∧
    src.sendRr = true ∧ src.subflows ≠ [] := by
  have hsome : ∃ src ∈ packetThenReportLog[3]?.bind ReceiverEvent.polled?,
      src.sendRr = true ∧ mentions (packetThenReportLog.take 3) src.ssrc ≠ [] := by decide +kernel
  obtain ⟨src, hsrc, hrr, hm⟩ := hsome
  obtain ⟨e, he, hep⟩ := Option.bind_eq_some_iff.mp hsrc
  rw [ReceiverEvent.eq_poll hep] at he
  have hiff := poll_has_subflow_iff (Run.foldlM (new 1 1 (.ticking 1000)) packetThenReport) he
  exact ⟨src, he, hrr, hiff.mpr hm⟩

def reportOnly : List Step :=
  [.addInterface ⟨0x0A000002, 22000⟩ true,
    .poll 10 (.arrive true ⟨0x0A000001, 23001⟩ [streamReport])]

/-- A source known only by a report on its stream is asked for a subflow it does not have. -/
theorem poll_without_subflow :
    ¬ ∀ (timestampUnit : ℚ) (ssrc : UInt32) (w : World) (H : List ReceiverEvent)
      (r : Option Receiver), Run step (fun _ _ _ => True) (new timestampUnit ssrc w) H r →
        ∀ src, .poll src ∈ H → src.sendRr = true → src.subflows ≠ [] := by
  intro h
  have hall := h 1 1 (.ticking 1000) _ _ (Run.foldlM _ reportOnly)
  have hsome : ∃ src ∈ (reportOnly.foldlM step (new 1 1 (.ticking 1000))).log.filterMap
      ReceiverEvent.polled?, src.sendRr = true ∧ src.subflows = [] := by decide +kernel
  obtain ⟨src, hsrc, hrr, hnil⟩ := hsome
  obtain ⟨e, he, hep⟩ := List.mem_filterMap.mp hsrc
  rw [ReceiverEvent.eq_poll hep] at he
  exact hall src he hrr hnil

/-- In every run in which the packets of every SSRC come from the paths of its peer, a receiver
report goes to the RTCP endpoint of a path exactly when the packet that first named a subflow of
the SSRC was an RTP packet, or came from an RTCP endpoint that is the RTP endpoint of a path as
well. -/
theorem sent_to_rtcpEndpoint_iff {timestampUnit : ℚ} {ssrc : UInt32} {w : World}
    {H : List ReceiverEvent} {r : Option Receiver}
    (hrun : Run step (fun _ _ _ => True) (new timestampUnit ssrc w) H r)
    {paths : UInt32 → List Endpoint} (hpaths : ∀ c ∈ callsOf H, c.FromPath paths)
    {n : ℕ} {s : UInt32} {out : OutDatagram} (hn : H[n]? = some (.sent s out)) :
    out.dest ∈ (paths s).map rtcpEndpoint ↔
      ∃ m, (mentions (H.take n) s).head? = some m ∧ (m.rtp = true ∨ m.addr ∈ paths s) := by
  obtain ⟨addr, haddr, hdest⟩ : Told (H.take n) (.sent s out) := run_told hrun hn
  obtain ⟨m, hm, rfl⟩ := Option.map_eq_some_iff.mp haddr
  have hdest' : out.dest ∈ (paths s).map rtcpEndpoint ↔ m.addr ∈ paths s := by
    rw [hdest, List.mem_map]
    constructor
    · intro h
      obtain ⟨e, he, hee⟩ := h
      exact (rtcpEndpoint_inj.mp hee) ▸ he
    · exact fun he => ⟨m.addr, he, rfl⟩
  have hrtp : m.rtp = true → m.addr ∈ paths s := by
    have htake : ∀ c ∈ callsOf (H.take n), c.FromPath paths := fun c hc =>
      hpaths c (((List.take_sublist n H).filterMap _).subset hc)
    exact mention_addr_mem htake (List.mem_of_mem_head? hm)
  rw [hdest']
  constructor
  · exact fun he => ⟨m, hm, Or.inr he⟩
  · intro h
    obtain ⟨m', hm', hor⟩ := h
    obtain rfl : m = m' := Option.some.inj (hm.symm.trans hm')
    exact hor.elim hrtp id

/-- The paths of a peer with one RTP endpoint. -/
def onePath : UInt32 → List Endpoint := fun _ => [⟨0x0A000001, 23000⟩]

theorem packetThenReport_sent_to_rtcpEndpoint : ∃ s out,
    packetThenReportLog[5]? = some (.sent s out) ∧ out.dest ∈ (onePath s).map rtcpEndpoint := by
  have hsome : ∃ so ∈ packetThenReportLog[5]?.bind ReceiverEvent.sent?,
      ∃ m ∈ (mentions (packetThenReportLog.take 5) so.1).head?, m.rtp = true := by decide +kernel
  obtain ⟨⟨s, out⟩, hso, m, hm, hrtp⟩ := hsome
  obtain ⟨e, he, hep⟩ := Option.bind_eq_some_iff.mp hso
  rw [ReceiverEvent.eq_sent hep] at he
  have hpaths : ∀ c ∈ callsOf packetThenReportLog, c.FromPath onePath := by decide +kernel
  have hiff :=
    sent_to_rtcpEndpoint_iff (Run.foldlM (new 1 1 (.ticking 1000)) packetThenReport) hpaths he
  exact ⟨s, out, he, hiff.mpr ⟨m, hm, Or.inl hrtp⟩⟩

/-- A compound with reports on the stream and on subflow 1. -/
def compoundReport : List UInt8 :=
  streamReport ++ [0x80, 211, 0, 10, 0, 0, 0xDE, 0xAD, 0, 0, 0xDE, 0xAD, 0, 8, 0, 1] ++ streamReport

def compoundOnly : List Step :=
  [.addInterface ⟨0x0A000002, 22000⟩ true,
    .poll 10 (.arrive true ⟨0x0A000001, 23001⟩ [compoundReport])]

/-- A subflow that a sender report has created is answered two ports up. -/
theorem sent_behind_rtcpEndpoint :
    ¬ ∀ (timestampUnit : ℚ) (ssrc : UInt32) (w : World) (H : List ReceiverEvent)
      (r : Option Receiver) (paths : UInt32 → List Endpoint),
        Run step (fun _ _ _ => True) (new timestampUnit ssrc w) H r →
        (∀ c ∈ callsOf H, c.FromPath paths) →
        ∀ s out, .sent s out ∈ H → out.dest ∈ (paths s).map rtcpEndpoint := by
  intro h
  have hall := h 1 1 (.ticking 1000) _ _ onePath (Run.foldlM _ compoundOnly) (by decide +kernel)
  have hsome : ∃ so ∈ (compoundOnly.foldlM step (new 1 1 (.ticking 1000))).log.filterMap
      ReceiverEvent.sent?, so.2.dest ∉ (onePath so.1).map rtcpEndpoint := by decide +kernel
  obtain ⟨⟨s, out⟩, hso, hdest⟩ := hsome
  obtain ⟨e, he, hep⟩ := List.mem_filterMap.mp hso
  rw [ReceiverEvent.eq_sent hep] at he
  exact hdest (hall s out he)

end Receiver

end Mprtp
