import Mprtp.Source.Report
import Mprtp.Stat.Intervals
import Mprtp.Receiver

/-! The report that a source sends, decoded by its receiver. -/
namespace Mprtp

namespace SourceStats

/-- The report block of `fill_receiver_report` as its receiver reads it: the lost packets are cut to
24 bits. -/
def rrSent (st : SourceStats) (ssrc : UInt32) (sr : Option RtcpSrPacket) (w : World)
    (recvFrom : Endpoint) (recvtime : RtpTime) : RtcpRrPacket :=
  let rr := (st.fillReceiverReport ssrc sr w).1
  { recvTime := recvtime
    recvFrom := recvFrom
    ssrc := rr.ssrc
    fractionlost := rr.fractionlost
    packetslost := st.packlost % 0x1000000
    exthighseqnr := rr.exthighseqnr
    jitter := rr.jitter
    lsr := rr.lsr
    dlsr := rr.dlsr }

end SourceStats

namespace Source

variable (src : Source) (stat : SourceStats) (w : World) {recvFrom : Endpoint} {recvtime : RtpTime}

theorem countOf_makeRrPacket : countOf (alone (src.makeRrPacket stat w).1 0) = 1 := by
  change countOf (UInt8.ofNat (rtpVersion * 64 + 1)) = 1
  decide

theorem complete_makeRrPacket : Complete (src.makeRrPacket stat w).1 where
  header := by
    rw [makeRrPacket_length]
    decide
  sr := by
    intro h
    change rtcpTypeRr = rtcpTypeSr at h
    exact absurd h (by decide)
  rr := by
    intro _
    rw [countOf_makeRrPacket, makeRrPacket_length]

theorem packetBytes_makeRrPacket : packetBytes (alone (src.makeRrPacket stat w).1) 0 = 32 := by
  unfold makeRrPacket
  dsimp only
  rw [List.append_assoc, rtcpHeader_packetBytes]
  rfl

/-- A block reads back as it was written. -/
theorem rrAt_bytes {m : ℕ → UInt8} {p : ℕ} {st : SourceStats} {ssrc : UInt32}
    {sr : Option RtcpSrPacket} (h : BytesAt m p (st.fillReceiverReport ssrc sr w).1.bytes) :
    rrAt m recvFrom recvtime p = st.rrSent ssrc sr w recvFrom recvtime := by
  unfold RtcpReceiverReport.bytes at h
  simp only [bytesAt_append, bytesAt_cons, List.length_append, List.length_cons, List.length_nil,
    bytes32_length] at h
  obtain ⟨⟨⟨⟨⟨h₀, h₄, h₅, h₆, h₇, -⟩, h₈⟩, h₁₂⟩, h₁₆⟩, h₂₀⟩ := h
  unfold rrAt
  rw [h₀.be32, h₄, h₅, h₆, h₇, h₈.be32, h₁₂.be32, h₁₆.be32, h₂₀.be32]
  have hlost := or_bytes24 st.packlost
  unfold SourceStats.rrSent
  rw [← hlost]
  rfl

theorem reportCalls_makeRrPacket (id : UInt16) :
    reportCalls recvFrom recvtime id (src.makeRrPacket stat w).1 =
      [.rr (stat.rrSent src.ssrc src.lastSenderReport w recvFrom recvtime) id src.senderSsrc] := by
  have hat := bytesAt_memOf (src.makeRrPacket stat w).1 fun _ => 0
  have hcount := src.countOf_makeRrPacket stat w
  have htype : alone (src.makeRrPacket stat w).1 1 = rtcpTypeRr := rfl
  unfold reportCalls
  rw [if_neg (by rw [htype]; decide), if_pos htype, processRrPacket_eval, hcount]
  unfold alone
  generalize memOf (src.makeRrPacket stat w).1 (fun _ => 0) = m at hat ⊢
  unfold makeRrPacket at hat
  simp only [bytesAt_append, List.length_append, rtcpHeader_length, bytes32_length] at hat
  obtain ⟨⟨-, hsender⟩, hblock⟩ := hat
  rw [hsender.be32, rrAt_bytes w hblock]
  rfl

/-- The blocks for the subflows, in order; each reads the clock once. -/
def reportBlocks (src : Source) : List Subflow → World → List MprtcpBlock
  | [], _ => []
  | sf :: sfs, w =>
    .subflow sf.subflowId (src.makeRrPacket sf.recvStat w).1 :: reportBlocks src sfs w.tick

/-- The calls for the blocks of the subflows. -/
def subflowCalls (src : Source) (recvFrom : Endpoint) (recvtime : RtpTime) :
    List Subflow → World → List RtcpCall
  | [], _ => []
  | sf :: sfs, w =>
    .rr (sf.recvStat.rrSent src.ssrc src.lastSenderReport w recvFrom recvtime) sf.subflowId
      src.senderSsrc :: subflowCalls src recvFrom recvtime sfs w.tick

theorem subflowBlocks_eq (sfs : List Subflow) :
    (src.subflowBlocks sfs w).1 = (src.reportBlocks sfs w).flatMap MprtcpBlock.bytes := by
  induction sfs generalizing w with
  | nil => rfl
  | cons sf sfs ih =>
    unfold reportBlocks subflowBlocks
    rw [List.flatMap_cons, ← ih w.tick]
    rfl

theorem reportBlocks_wellFormed (sfs : List Subflow) :
    ∀ block ∈ src.reportBlocks sfs w, block.WellFormed := by
  induction sfs generalizing w with
  | nil =>
    intro block hblock
    cases hblock
  | cons sf sfs ih =>
    intro block hblock
    rcases List.mem_cons.mp hblock with rfl | hblock
    · refine ⟨src.complete_makeRrPacket sf.recvStat w, ?_, ?_⟩
      · rw [makeRrPacket_length]
        decide
      · rw [makeRrPacket_length]
        decide
    · exact ih w.tick block hblock

theorem reportBlocks_calls (sfs : List Subflow) :
    (src.reportBlocks sfs w).flatMap (MprtcpBlock.calls recvFrom recvtime) =
      src.subflowCalls recvFrom recvtime sfs w := by
  induction sfs generalizing w with
  | nil => rfl
  | cons sf sfs ih =>
    unfold reportBlocks subflowCalls
    rw [List.flatMap_cons, ih w.tick, MprtcpBlock.calls, reportCalls_makeRrPacket]
    rfl

/-- The twelve bytes in front of the blocks. -/
def blocksHead (src : Source) : List UInt8 :=
  let length := (sizeofRtcpCommonHeader + (8 + 36 * src.subflows.length)) / 4 - 1
  rtcpHeader 0 rtcpTypeMprtp (UInt16.ofNat length) ++ bytes32 src.senderSsrc ++ bytes32 src.ssrc

/-- The packets of the report; the first reading of the clock is not used in them. -/
def reportPackets (src : Source) (w : World) : List CompoundPacket :=
  [.single (src.makeRrPacket src.stat w.tick).1,
    .mprtcp src.blocksHead (src.reportBlocks src.subflows w.tick.tick)]

theorem createSubflowsRrPacket_bytes : (src.createSubflowsRrPacket w).1 =
    (CompoundPacket.mprtcp src.blocksHead (src.reportBlocks src.subflows w)).bytes := by
  have hlen : (bytes32 src.senderSsrc ++ bytes32 src.ssrc ++
      (src.subflowBlocks src.subflows w).1).length = 8 + 36 * src.subflows.length := by
    rw [List.length_append, subflowBlocks_length]
    rfl
  unfold createSubflowsRrPacket CompoundPacket.bytes blocksHead
  dsimp only
  rw [hlen, ← subflowBlocks_eq]
  simp only [List.append_assoc]

/-- The blocks do not depend on the statistics of the stream. -/
theorem reportBlocks_congr {src' : Source}
    (h : ∀ stat w, src'.makeRrPacket stat w = src.makeRrPacket stat w) (sfs : List Subflow) :
    src'.reportBlocks sfs w = src.reportBlocks sfs w := by
  induction sfs generalizing w with
  | nil => rfl
  | cons sf sfs ih =>
    unfold reportBlocks
    rw [h, ih]

theorem buildReport_bytes : (src.buildReport w).1 ++ (src.buildReport w).2.1 =
    (src.reportPackets w).flatMap CompoundPacket.bytes := by
  have hblocks : { src with sendRr := false, stat := src.stat.startNewInterval }.reportBlocks
      src.subflows w.tick.tick = src.reportBlocks src.subflows w.tick.tick :=
    reportBlocks_congr src _ (by intro _ _; rfl) src.subflows
  unfold buildReport createRrPacket reportPackets
  dsimp only
  rw [createSubflowsRrPacket_bytes, ← hblocks]
  simp only [List.flatMap_cons, List.flatMap_nil, List.append_nil]
  rfl

/-- As long as the blocks fit their buffer, the length field is right. -/
theorem reportPackets_wellFormed (hfits : (src.buildReport w).2.1.length ≤ maxPacketSize) :
    ∀ packet ∈ src.reportPackets w, packet.WellFormed := by
  have hlen : 12 + 36 * src.subflows.length ≤ 65535 := by
    have hblocks := Source.createSubflowsRrPacket_length
      ({ src with sendRr := false }.createRrPacket w.tick).2.1
      ({ src with sendRr := false }.createRrPacket w.tick).2.2
    change (src.buildReport w).2.1.length = 12 + 36 * src.subflows.length at hblocks
    rw [← hblocks]
    exact hfits
  intro packet hpacket
  unfold reportPackets at hpacket
  simp only [List.mem_cons, List.not_mem_nil, or_false] at hpacket
  rcases hpacket with rfl | rfl
  · refine ⟨?_, src.complete_makeRrPacket src.stat w.tick, ?_⟩
    · change (src.makeRrPacket src.stat w.tick).1.length =
        packetBytes (alone (src.makeRrPacket src.stat w.tick).1) 0
      rw [makeRrPacket_length, packetBytes_makeRrPacket]
    · change ¬ rtcpTypeRr = rtcpTypeMprtp
      decide
  · refine ⟨?_, rfl, rfl, src.reportBlocks_wellFormed w.tick.tick src.subflows⟩
    rw [← createSubflowsRrPacket_bytes, createSubflowsRrPacket_length]
    unfold packetBytes alone
    rw [createSubflowsRrPacket_lengthField, UInt16.toNat_ofNat']
    omega

theorem reportPackets_calls : (src.reportPackets w).flatMap (CompoundPacket.calls recvFrom recvtime) =
    .rr (src.stat.rrSent src.ssrc src.lastSenderReport w.tick recvFrom recvtime) 0 src.senderSsrc ::
      src.subflowCalls recvFrom recvtime src.subflows w.tick.tick := by
  unfold reportPackets
  simp only [List.flatMap_cons, List.flatMap_nil, List.append_nil, CompoundPacket.calls]
  rw [reportCalls_makeRrPacket, reportBlocks_calls]
  rfl

theorem buildReport_source : (src.buildReport w).2.2.1 = src.reported := by
  unfold buildReport createSubflowsRrPacket
  dsimp only
  rw [subflowBlocks_subflows]
  rfl

/-- A report that fits its buffer goes out on the first subflow. -/
theorem poll_log (hrr : src.sendRr = true) {sf : Subflow} {sfs : List Subflow} (hlist : src.subflows = sf :: sfs)
    (hfits : (src.buildReport w).2.1.length ≤ maxPacketSize) :
    (src.poll w).log = [.poll src, .report src.ssrc (src.buildReport w).1 (src.buildReport w).2.1,
      .sent src.ssrc (Interface.sendto sf.iface ((src.buildReport w).1 ++ (src.buildReport w).2.1) sf.remote
        true)] := by
  have hreported := src.buildReport_source w
  have hsubflows : src.reported.subflows = sf.reported :: sfs.map Subflow.reported := by
    unfold reported
    rw [hlist, List.map_cons]
  unfold poll
  rw [if_pos hrr]
  generalize src.buildReport w = built at hfits hreported ⊢
  obtain ⟨rr, blocks, src', w'⟩ := built
  dsimp only at hfits hreported ⊢
  subst hreported
  rw [if_neg (not_lt.mpr hfits)]
  unfold sendReport
  rw [hsubflows]
  rfl

/-- A receiver of the report makes one call for the stream and one for each subflow. -/
theorem buildReport_calls (hfits : (src.buildReport w).2.1.length ≤ maxPacketSize)
    {raw : RawPacket} (hdata : raw.data = (src.buildReport w).1 ++ (src.buildReport w).2.1)
    {fuel : ℕ} (hfuel : raw.dataLen < fuel) : raw.rtcpCalls fuel =
      (.rr (src.stat.rrSent src.ssrc src.lastSenderReport w.tick raw.fromAddr raw.recvtime) 0
          src.senderSsrc ::
        src.subflowCalls raw.fromAddr raw.recvtime src.subflows w.tick.tick, true) := by
  rw [buildReport_bytes] at hdata
  have hcalls := CompoundPacket.processRtcpPacket_eval (src.reportPackets_wellFormed w hfits) hdata hfuel
  unfold RawPacket.rtcpCalls
  rw [hcalls, reportPackets_calls]

/-- The report that `source::poll` builds is what it sends when there is a subflow. Decoded by a
receiver, it makes one call for the stream, with the subflow id 0, and one for each subflow in order,
with its id and what `fill_receiver_report` computed for it. -/
theorem buildReport_decoded (hfits : (src.buildReport w).2.1.length ≤ maxPacketSize) :
    (src.sendRr = true → src.subflows ≠ [] → ∃ out : OutDatagram,
      out.data = (src.buildReport w).1 ++ (src.buildReport w).2.1 ∧
        (src.poll w).log = [.poll src, .report src.ssrc (src.buildReport w).1 (src.buildReport w).2.1,
          .sent src.ssrc out]) ∧
    ∀ (raw : RawPacket) (fuel : ℕ), raw.data = (src.buildReport w).1 ++ (src.buildReport w).2.1 →
      raw.dataLen < fuel → raw.rtcpCalls fuel =
        (.rr (src.stat.rrSent src.ssrc src.lastSenderReport w.tick raw.fromAddr raw.recvtime) 0
            src.senderSsrc ::
          src.subflowCalls raw.fromAddr raw.recvtime src.subflows w.tick.tick, true) := by
  constructor
  · intro hrr hsubflows
    obtain ⟨sf, sfs, hlist⟩ := List.exists_cons_of_ne_nil hsubflows
    exact ⟨_, rfl, src.poll_log w hrr hlist hfits⟩
  · intro raw fuel hdata hfuel
    exact src.buildReport_calls w hfits hdata hfuel

/-- The block of the subflow `k` is filled `k` readings of the clock behind the first one. -/
theorem mem_subflowCalls {sfs : List Subflow} {w : World} {c : RtcpCall}
    (hc : c ∈ src.subflowCalls recvFrom recvtime sfs w) : ∃ (k : ℕ) (sf : Subflow), sfs[k]? = some sf ∧ c =
      .rr (sf.recvStat.rrSent src.ssrc src.lastSenderReport (World.tick^[k] w) recvFrom recvtime) sf.subflowId
        src.senderSsrc := by
  induction sfs generalizing w with
  | nil => cases hc
  | cons sf sfs ih =>
    rcases List.mem_cons.mp hc with rfl | hc
    · exact ⟨0, sf, rfl, rfl⟩
    · obtain ⟨k, sf', hsf', hcall⟩ := ih hc
      exact ⟨k + 1, sf', hsf', hcall⟩

/-- What a receiver of a report is called with, for the stream and for the subflows. -/
theorem mem_calls_buildReport {src : Source} {w : World} {raw : RawPacket} {fuel : ℕ}
    {c : RtcpCall} (hdata : raw.data = (src.buildReport w).1 ++ (src.buildReport w).2.1)
    (hlen : raw.data.length < 65536) (hc : c ∈ (raw.rtcpCalls fuel).1) :
    c = .rr (src.stat.rrSent src.ssrc src.lastSenderReport w.tick raw.fromAddr raw.recvtime) 0 src.senderSsrc ∨
      ∃ (k : ℕ) (sf : Subflow), src.subflows[k]? = some sf ∧ c = .rr (sf.recvStat.rrSent src.ssrc src.lastSenderReport
        (World.tick^[k + 2] w) raw.fromAddr raw.recvtime) sf.subflowId src.senderSsrc := by
  have hfits : (src.buildReport w).2.1.length ≤ maxPacketSize := by
    rw [hdata, List.length_append] at hlen
    unfold maxPacketSize
    omega
  rw [buildReport_bytes] at hdata
  have hfuel : raw.dataLen < max fuel (raw.dataLen + 1) := by omega
  have hall := CompoundPacket.processRtcpPacket_eval (src.reportPackets_wellFormed w hfits) hdata hfuel
  have hmem := (rtcpCalls_mono (le_max_left fuel (raw.dataLen + 1)) raw).subset hc
  unfold RawPacket.rtcpCalls at hmem
  rw [hall, reportPackets_calls] at hmem
  rcases List.mem_cons.mp hmem with hstream | hsubflow
  · exact Or.inl hstream
  · exact Or.inr (src.mem_subflowCalls hsubflow)

/-- The same, as far as the sender reads it. -/
theorem rtcpCalls_buildReport {src : Source} {w : World} {raw : RawPacket} {fuel : ℕ}
    {c : RtcpCall} (hdata : raw.data = (src.buildReport w).1 ++ (src.buildReport w).2.1)
    (hlen : raw.data.length < 65536) (hc : c ∈ (raw.rtcpCalls fuel).1) :
    ∃ pkt id s, c = .rr pkt id s ∧ (id ≠ 0 → ∃ sf ∈ src.subflows, sf.subflowId = id ∧
      ∃ w', pkt = sf.recvStat.rrSent src.ssrc src.lastSenderReport w' raw.fromAddr raw.recvtime) := by
  rcases mem_calls_buildReport hdata hlen hc with rfl | ⟨k, sf, hsf, rfl⟩
  · exact ⟨_, 0, _, rfl, fun h0 => absurd rfl h0⟩
  · exact ⟨_, sf.subflowId, _, rfl, fun _ => ⟨sf, List.mem_of_getElem? hsf, rfl, _, rfl⟩⟩

end Source

/-- A source with two subflows, one of which has lost packets. -/
def lossySource : Source where
  ssrc := 0xDEAD
  senderSsrc := 0xBEEF
  sendRr := true
  subflows :=
    [{ sequesnceNumber := 0, subflowId := 1, remote := ⟨0x0A000001, 23000⟩, iface := 0 },
      { sequesnceNumber := 0, subflowId := 0x102, remote := ⟨0x0B000001, 23000⟩, iface := 1,
        recvStat :=
          { receivedData := true, packetsReceived := 10, baseseqnr := 99, exthighseqnr := 0x12345,
            numNewPackets := 3, savedExtSeqnr := 0x12341, jitter := 7 } }]

def lossyRaw (data : List UInt8) : RawPacket := ⟨data, fun _ => 0xFF, ⟨0x0A000001, 23001⟩, true, 1⟩

theorem lossySource_decoded : ∃ (out : OutDatagram) (rr rr₁ rr₂ : RtcpRrPacket),
    .sent 0xDEAD out ∈ (lossySource.poll (.ticking 1000)).log ∧
      (lossyRaw out.data).rtcpCalls 200 =
        ([.rr rr 0 0xBEEF, .rr rr₁ 1 0xBEEF, .rr rr₂ 0x102 0xBEEF], true) ∧
      rr₂.fractionlost = 64 ∧ rr₂.packetslost = 0x122D8 ∧ rr₂.jitter = 7 := by
  have hlen : (lossySource.buildReport (.ticking 1000)).2.1.length ≤ maxPacketSize := by
    decide +kernel
  obtain ⟨hpoll, hcalls⟩ := lossySource.buildReport_decoded (.ticking 1000) hlen
  obtain ⟨out, hdata, hlog⟩ := hpoll rfl (by decide)
  have hfuel : (lossyRaw out.data).dataLen < 200 := by
    rw [hdata]
    decide +kernel
  have hfrom : (lossyRaw out.data).fromAddr = ⟨0x0A000001, 23001⟩ := rfl
  have htime : (lossyRaw out.data).recvtime = 1 := rfl
  refine ⟨out, _, _, _, ?_, hcalls (lossyRaw out.data) 200 hdata hfuel, ?_, ?_, ?_⟩
  · rw [hlog]
    exact List.mem_cons_of_mem _ (List.mem_cons_of_mem _ List.mem_cons_self)
  · rw [hfrom, htime]
    decide +kernel
  · rfl
  · rfl

end Mprtp
