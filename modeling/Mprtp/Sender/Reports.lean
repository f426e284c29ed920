import Mprtp.Sender.Steps
import Mprtp.Source.Report

/-! The report that a sender sends, decoded by its receiver. -/
namespace Mprtp

namespace SenderData

variable (d : SenderData) (packetCount octetCount : UInt32) (ntp : RtpNtpTime)

@[simp] theorem makeSenderReport_length :
    (d.makeSenderReport packetCount octetCount ntp).length = 28 := rfl

/-- A sender report as its receiver reads it. -/
def srSent (recvFrom : Endpoint) (recvtime : RtpTime) : RtcpSrPacket where
  recvTime := recvtime
  recvFrom := recvFrom
  senderSsrc := d.ssrc
  ntpTime := ntp
  rtpTimestamp := d.timestamp
  packetCount := packetCount
  octetCount := octetCount
  rrReports := []

theorem countOf_makeSenderReport :
    countOf (alone (d.makeSenderReport packetCount octetCount ntp) 0) = 0 := by
  change countOf (UInt8.ofNat (rtpVersion * 64 + 0)) = 0
  decide

theorem complete_makeSenderReport : Complete (d.makeSenderReport packetCount octetCount ntp) where
  header := by
    rw [makeSenderReport_length]
    decide
  sr := by
    intro _
    rw [countOf_makeSenderReport, makeSenderReport_length]
  rr := by
    intro h
    change rtcpTypeSr = rtcpTypeRr at h
    exact absurd h (by decide)

/-- The report block by block: SSRC, NTP time, RTP timestamp, packets and octets. -/
theorem reportCalls_makeSenderReport (recvFrom : Endpoint) (recvtime : RtpTime) (id : UInt16) :
    reportCalls recvFrom recvtime id (d.makeSenderReport packetCount octetCount ntp) =
      [.sr (d.srSent packetCount octetCount ntp recvFrom recvtime) id] := by
  have hat := bytesAt_memOf (d.makeSenderReport packetCount octetCount ntp) fun _ => 0
  have hcount := d.countOf_makeSenderReport packetCount octetCount ntp
  have htype : alone (d.makeSenderReport packetCount octetCount ntp) 1 = rtcpTypeSr := rfl
  unfold reportCalls
  rw [if_pos htype, processSrPacket_eval _ _ _ _ htype]
  unfold srAt alone at *
  rw [hcount]
  generalize hm : memOf (d.makeSenderReport packetCount octetCount ntp) (fun _ => 0) = m at hat ⊢
  unfold makeSenderReport rtcpHeader at hat
  simp only [bytesAt_append, List.length_append, List.length_cons, List.length_nil,
    bytes16_length, bytes32_length] at hat
  obtain ⟨⟨⟨⟨⟨⟨-, h₄⟩, h₈⟩, h₁₂⟩, h₁₆⟩, h₂₀⟩, h₂₄⟩ := hat
  rw [h₄.be32, h₈.be32, h₁₂.be32, h₁₆.be32, h₂₀.be32, h₂₄.be32]
  rfl

/-- The twelve bytes in front of the blocks. -/
def blocksHead : List UInt8 :=
  let length := (sizeofRtcpCommonHeader + (8 + 32 * d.subflows.length) - 1) / 4
  rtcpHeader 0 rtcpTypeMprtp (UInt16.ofNat length) ++ bytes32 d.ssrc ++ bytes32 d.ssrc

/-- The block of a subflow. -/
def senderBlock (sf : Subflow) : MprtcpBlock :=
  .subflow sf.subflowId (d.makeSenderReport sf.packetCount sf.octetCount ntp)

theorem senderBlocks_eq (sfs : List Subflow) :
    d.senderBlocks ntp sfs = (sfs.map (d.senderBlock ntp)).flatMap MprtcpBlock.bytes := by
  induction sfs with
  | nil => rfl
  | cons sf sfs ih =>
    unfold senderBlocks
    rw [List.map_cons, List.flatMap_cons, ih]
    rfl

theorem senderBlocks_length (sfs : List Subflow) :
    (d.senderBlocks ntp sfs).length = 32 * sfs.length := by
  induction sfs with
  | nil => rfl
  | cons sf sfs ih =>
    unfold senderBlocks
    simp only [List.length_append, List.length_cons, List.length_nil, bytes16_length,
      makeSenderReport_length, ih]
    omega

/-- The packets of the report. -/
def reportPackets : List CompoundPacket :=
  [.single (d.makeSenderReport d.packetCount d.octetCount ntp),
    .mprtcp d.blocksHead (d.subflows.map (d.senderBlock ntp))]

theorem reportBytes_eq : d.reportBytes ntp = (d.reportPackets ntp).flatMap CompoundPacket.bytes := by
  have hlen : (bytes32 d.ssrc ++ bytes32 d.ssrc ++ d.senderBlocks ntp d.subflows).length =
      8 + 32 * d.subflows.length := by
    rw [List.length_append, senderBlocks_length]
    rfl
  unfold reportBytes makeSubflowSenderReport reportPackets
  simp only [List.flatMap_cons, List.flatMap_nil, List.append_nil, CompoundPacket.bytes]
  unfold blocksHead
  rw [hlen, ← senderBlocks_eq]
  simp only [List.append_assoc]

theorem reportBytes_length : (d.reportBytes ntp).length = 40 + 32 * d.subflows.length := by
  unfold reportBytes makeSubflowSenderReport
  simp only [List.length_append, makeSenderReport_length, bytes32_length, senderBlocks_length]
  change 28 + (4 + (4 + 4 + 32 * d.subflows.length)) = _
  omega

theorem packetBytes_makeSenderReport :
    packetBytes (alone (d.makeSenderReport packetCount octetCount ntp)) 0 = 28 := by
  unfold makeSenderReport
  simp only [List.append_assoc]
  rw [rtcpHeader_packetBytes]
  rfl

theorem senderBlock_wellFormed (sf : Subflow) : (d.senderBlock ntp sf).WellFormed := by
  refine ⟨d.complete_makeSenderReport _ _ ntp, ?_, ?_⟩
  · rw [makeSenderReport_length]
    decide
  · rw [makeSenderReport_length]
    decide

/-- As long as the report fits its buffer, its length field is right. -/
theorem reportPackets_wellFormed (hfits : (d.reportBytes ntp).length ≤ maxPacketSize) :
    ∀ packet ∈ d.reportPackets ntp, packet.WellFormed := by
  rw [reportBytes_length] at hfits
  unfold maxPacketSize at hfits
  intro packet hpacket
  unfold reportPackets at hpacket
  simp only [List.mem_cons, List.not_mem_nil, or_false] at hpacket
  rcases hpacket with rfl | rfl
  · refine ⟨?_, d.complete_makeSenderReport _ _ ntp, ?_⟩
    · change (d.makeSenderReport d.packetCount d.octetCount ntp).length =
        packetBytes (alone (d.makeSenderReport d.packetCount d.octetCount ntp)) 0
      rw [makeSenderReport_length, packetBytes_makeSenderReport]
    · change ¬ rtcpTypeSr = rtcpTypeMprtp
      decide
  · refine ⟨?_, rfl, rfl, ?_⟩
    · have hbytes : (CompoundPacket.mprtcp d.blocksHead (d.subflows.map (d.senderBlock ntp))).bytes =
          d.blocksHead ++ d.senderBlocks ntp d.subflows := by
        rw [senderBlocks_eq]
        rfl
      have hhead : d.blocksHead.length = 12 := rfl
      rw [hbytes, List.length_append, hhead, senderBlocks_length]
      unfold blocksHead sizeofRtcpCommonHeader
      simp only [List.append_assoc]
      rw [rtcpHeader_packetBytes, UInt16.toNat_ofNat']
      omega
    · intro block hblock
      obtain ⟨sf, -, rfl⟩ := List.mem_map.mp hblock
      exact d.senderBlock_wellFormed ntp sf

/-- What is called for the report: one sender report for the stream and one for each subflow. -/
theorem reportPackets_calls (recvFrom : Endpoint) (recvtime : RtpTime) :
    (d.reportPackets ntp).flatMap (CompoundPacket.calls recvFrom recvtime) =
      .sr (d.srSent d.packetCount d.octetCount ntp recvFrom recvtime) 0 ::
        d.subflows.map fun sf =>
          .sr (d.srSent sf.packetCount sf.octetCount ntp recvFrom recvtime) sf.subflowId := by
  unfold reportPackets
  simp only [List.flatMap_cons, List.flatMap_nil, List.append_nil, CompoundPacket.calls]
  rw [reportCalls_makeSenderReport, List.singleton_append, List.flatMap_map]
  simp only [senderBlock, MprtcpBlock.calls, reportCalls_makeSenderReport]
  rw [← List.map_eq_flatMap]

/-- A report that fits is decoded as it was built. -/
theorem reportBytes_decoded (hfits : (d.reportBytes ntp).length ≤ maxPacketSize) {raw : RawPacket}
    (hdata : raw.data = d.reportBytes ntp) {fuel : ℕ} (hfuel : raw.dataLen < fuel) :
    raw.rtcpCalls fuel = (.sr (d.srSent d.packetCount d.octetCount ntp raw.fromAddr raw.recvtime) 0 ::
      d.subflows.map fun sf =>
        .sr (d.srSent sf.packetCount sf.octetCount ntp raw.fromAddr raw.recvtime) sf.subflowId,
      true) := by
  rw [reportBytes_eq] at hdata
  rw [← reportPackets_calls]
  exact CompoundPacket.processRtcpPacket_eval (d.reportPackets_wellFormed ntp hfits) hdata hfuel

variable (w : World)

/-- What `send_sender_report` hands to a socket is the report, and it fits its buffer. -/
theorem sendSenderReport_sent {k : ℕ} {out : OutDatagram}
    (hsent : .sent k out ∈ (d.sendSenderReport w).log) :
    out.data = d.builtReport w ∧ (d.builtReport w).length ≤ maxPacketSize := by
  rcases d.sendSenderReport_eq w with hres | ⟨j, sf, -, -, hfits, hres⟩
  · rw [hres] at hsent
    cases hsent
  · rw [hres] at hsent
    cases List.mem_singleton.mp hsent
    exact ⟨rfl, hfits⟩

theorem getNextTimestamp_keeps : (d.stamped w).ssrc = d.ssrc ∧
    (d.stamped w).packetCount = d.packetCount ∧ (d.stamped w).octetCount = d.octetCount ∧
      (d.stamped w).subflows = d.subflows := by
  obtain ⟨lastPacketTime, timestamp, hfields⟩ := d.getNextTimestamp_fields w
  unfold stamped
  rw [hfields]
  exact ⟨rfl, rfl, rfl, rfl⟩

/-- With a subflow and a report that fits, `send_sender_report` hands the built report, and nothing else, to the
socket of a subflow; no other datagram comes from it. Decoded by a receiver the report gives one call for the
stream, with the subflow id 0, and one for each subflow in order, with the id and the counters of
the subflow; all have the SSRC and the time of the sender. -/
theorem sendSenderReport_decoded :
    (d.subflows ≠ [] → (d.builtReport w).length ≤ maxPacketSize → ∃ k sf out,
      d.subflows[k]? = some sf ∧ (d.sendSenderReport w).log = [.sent k out] ∧ out.data = d.builtReport w ∧
        out.iface = sf.iface ∧ out.rtcp = true) ∧
    (∀ k out, .sent k out ∈ (d.sendSenderReport w).log →
      out.data = d.builtReport w ∧ (d.builtReport w).length ≤ maxPacketSize) ∧
    ∀ raw : RawPacket, raw.data = d.builtReport w → (d.builtReport w).length ≤ maxPacketSize →
      ∀ fuel, raw.dataLen < fuel →
        let sr (packetCount octetCount : UInt32) : RtcpSrPacket :=
          { recvTime := raw.recvtime
            recvFrom := raw.fromAddr
            senderSsrc := d.ssrc
            ntpTime := getNtpTime (d.stamped w).lastPacketTime
            rtpTimestamp := (d.stamped w).timestamp
            packetCount, octetCount
            rrReports := [] }
        raw.rtcpCalls fuel = (.sr (sr d.packetCount d.octetCount) 0 ::
          d.subflows.map fun sf => .sr (sr sf.packetCount sf.octetCount) sf.subflowId, true) := by
  refine ⟨?_, fun k out hsent => d.sendSenderReport_sent w hsent, ?_⟩
  · intro hne hfits
    obtain ⟨k, sf, r, hsf, hres⟩ := sendSenderReport_of_fits hne hfits
    rw [hres]
    exact ⟨k, sf, _, hsf, rfl, rfl, rfl, rfl⟩
  intro raw hdata hfits fuel hfuel
  have hcalls := (d.stamped w).reportBytes_decoded _ hfits hdata hfuel
  obtain ⟨hssrc, hpackets, hoctets, hsubflows⟩ := d.getNextTimestamp_keeps w
  unfold srSent at hcalls
  rw [hssrc, hpackets, hoctets, hsubflows] at hcalls
  exact hcalls

end SenderData

/-- A sender with two paths that has sent packets on one of them. -/
def twoPaths : SenderData where
  sequesnceNumber := 5
  ssrc := 0xDEAD
  timestampUnit := 1
  subflows :=
    [{ sequesnceNumber := 7, subflowId := 1, remote := ⟨0x0A000002, 22000⟩, iface := 0 },
      { sequesnceNumber := 9, subflowId := 0x102, remote := ⟨0x0B000002, 22000⟩, iface := 1,
        packetCount := 300, octetCount := 0x01020304 }]
  packetCount := 300
  octetCount := 0x01020304

/-- The datagram as the receiver reads it from its RTCP socket. -/
def twoPathsRaw (out : OutDatagram) : RawPacket := ⟨out.data, fun _ => 0xFF, ⟨0x0A000001, 23001⟩, true, 1⟩

theorem twoPaths_decoded : ∃ k out, (twoPaths.sendSenderReport (.ticking 1000)).log = [.sent k out] ∧
    ∃ sr sr₁ sr₂ : RtcpSrPacket,
      (twoPathsRaw out).rtcpCalls 200 = ([.sr sr 0, .sr sr₁ 1, .sr sr₂ 0x102], true) ∧
        sr.octetCount = 0x01020304 ∧ sr₁.packetCount = 0 ∧ sr₂.packetCount = 300 := by
  have hlen : (twoPaths.builtReport (.ticking 1000)).length ≤ maxPacketSize := by decide +kernel
  obtain ⟨hsends, -, hdecodes⟩ := twoPaths.sendSenderReport_decoded (.ticking 1000)
  obtain ⟨k, sf, out, -, hlog, hdata, -⟩ := hsends (List.cons_ne_nil _ _) hlen
  have hfuel : (twoPaths.builtReport (.ticking 1000)).length < 200 := by decide +kernel
  rw [← hdata] at hfuel
  exact ⟨k, out, hlog, _, _, _, hdecodes (twoPathsRaw out) hdata hlen 200 hfuel, rfl, rfl, rfl⟩

end Mprtp
