import Mprtp.Receiver.Reports
import Mprtp.Rtcp.Decode
import Mprtp.Sender.Wire

/-! The size of the reports that `create_subflows_rr_packet` writes, over whole runs. -/
namespace Mprtp

/-- The report lies inside the buffer and its length field counts its words. -/
def FitsBuffer (blocks : List UInt8) : Prop :=
  blocks.length ≤ maxPacketSize ∧
    (be16 (memOf blocks fun _ => 0) 2).toNat = blocks.length / 4 - 1

/-- The distinct ids of the subflows named for `ssrc` in a log. -/
def idsSeen (H : List ReceiverEvent) (ssrc : UInt32) : List UInt16 :=
  ((mentions H ssrc).map Mention.id).eraseDups

def ReceiverEvent.report? : ReceiverEvent → Option (UInt32 × List UInt8 × List UInt8)
  | .report ssrc rr blocks => some (ssrc, rr, blocks)
  | _ => none

theorem ReceiverEvent.eq_report {e : ReceiverEvent} {ssrc : UInt32} {rr blocks : List UInt8}
    (h : e.report? = some (ssrc, rr, blocks)) : e = .report ssrc rr blocks := by
  cases e with
  | report _ _ _ =>
    cases h
    rfl
  | _ => cases h

theorem Source.createSubflowsRrPacket_fits_iff (src : Source) (w : World) :
    FitsBuffer (src.createSubflowsRrPacket w).1 ↔ src.subflows.length ≤ 1820 := by
  unfold FitsBuffer
  rw [src.createSubflowsRrPacket_length, src.createSubflowsRrPacket_lengthField]
  have hfield : (UInt16.ofNat (2 + 9 * src.subflows.length)).toNat =
      (2 + 9 * src.subflows.length) % 65536 := UInt16.toNat_ofNat'
  rw [hfield]
  unfold maxPacketSize
  omega

theorem Told.fits_iff {H : List ReceiverEvent} {s : UInt32} {rr blocks : List UInt8}
    (h : Told H (.report s rr blocks)) : FitsBuffer blocks ↔ (idsSeen H s).length ≤ 1820 := by
  obtain ⟨src, w, hf, rfl⟩ := h
  rw [src.createSubflowsRrPacket_fits_iff]
  have hlen : src.subflows.length = (idsSeen H s).length := by
    unfold idsSeen
    rw [← hf.ids, List.length_map]
  rw [hlen]

namespace Receiver

/-- In every run, a report fits its buffer and has a right length field exactly when at most
1820 distinct subflow ids have been named for its SSRC. -/
theorem report_fits_iff {timestampUnit : ℚ} {ssrc : UInt32} {w : World} {H : List ReceiverEvent}
    {r : Option Receiver} (hrun : Run step (fun _ _ _ => True) (new timestampUnit ssrc w) H r)
    {n : ℕ} {s : UInt32} {rr blocks : List UInt8} (hn : H[n]? = some (.report s rr blocks)) :
    FitsBuffer blocks ↔ (idsSeen (H.take n) s).length ≤ 1820 := by
  have htold : Told (H.take n) (.report s rr blocks) := run_told hrun hn
  exact htold.fits_iff

theorem packetThenReport_fits : ∃ s rr blocks,
    packetThenReportLog[4]? = some (.report s rr blocks) ∧ FitsBuffer blocks := by
  have hsome : ∃ sb ∈ packetThenReportLog[4]?.bind ReceiverEvent.report?,
      (idsSeen (packetThenReportLog.take 4) sb.1).length ≤ 1820 := by decide +kernel
  obtain ⟨⟨s, rr, blocks⟩, hsb, hle⟩ := hsome
  obtain ⟨e, he, hep⟩ := Option.bind_eq_some_iff.mp hsb
  rw [ReceiverEvent.eq_report hep] at he
  have hiff := report_fits_iff (Run.foldlM (new 1 1 (.ticking 1000)) packetThenReport) he
  exact ⟨s, rr, blocks, he, hiff.mpr hle⟩

/-! A run in which a peer names one subflow after another. -/

def peerSsrc : UInt32 := 0xDEAD

/-- A data packet of the `k`-th subflow. -/
def subflowDatagram (k : ℕ) : List UInt8 :=
  SenderData.rtpBytes 0 0 peerSsrc (UInt16.ofNat k) 7 []

/-- The run has named the subflows below `k`, and the receiver waits. -/
structure Named (H : List ReceiverEvent) (r : Receiver) (k : ℕ) : Prop where
  run : Run step (fun _ _ _ => True) (new 1 1 (.ticking 1000)) H (some r)
  interfaces : ∃ f, r.interfaces = [f] ∧ f.packets = []
  sources : r.obj.sources = [] ∨
    ∃ src, r.obj.sources = [src] ∧ src.ssrc = peerSsrc ∧ src.sendRr = false
  ids : (mentions H peerSsrc).map Mention.id = (List.range k).map UInt16.ofNat

theorem named_zero : ∃ H r, Named H r 0 := by
  have hrun : Run step (fun _ _ _ => True) (new 1 1 (.ticking 1000)) _ _ :=
    Run.foldlM _ [.addInterface ⟨0x0A000002, 22000⟩ true]
  exact ⟨_, _, hrun, ⟨_, rfl, rfl⟩, Or.inl rfl, rfl⟩

/-- Storing the only source. -/
theorem setSource_only {d : ReceiverData} {src : Source} (hsrc : src.ssrc = peerSsrc)
    (hd : d.sources = [] ∨ ∃ src', d.sources = [src'] ∧ src'.ssrc = peerSsrc) :
    (d.setSource src).sources = [src] := by
  unfold ReceiverData.setSource
  rcases hd with h | ⟨src', h, hs'⟩
  · rw [h]
    rfl
  · have hkey : src.key = src'.key := by
      unfold Source.key
      rw [hsrc, hs']
    rw [h]
    simp only [Keyed.insert]
    rw [if_neg (by rw [hkey]; exact lt_irrefl _), if_pos hkey]

theorem findSubflow_sendRr (src : Source) (id : UInt16) (addr : Endpoint) (iface : ℕ)
    (w : World) : (src.findSubflow id addr iface w).2.1.sendRr = src.sendRr := by
  unfold Source.findSubflow
  split <;> rfl

theorem processPacket_sendRr (src : Source) (pack : RtpPacket) (tsunit : ℚ) (iface : ℕ)
    (w : World) : (src.processPacket pack tsunit iface w).2.1.sendRr = src.sendRr := by
  have hsub : ∀ (src : Source) (pack : RtpPacket),
      (src.processOnSubflow pack tsunit iface w).2.1.sendRr = src.sendRr := by
    intro src pack
    unfold Source.processOnSubflow
    dsimp only
    split <;> exact findSubflow_sendRr _ _ _ _ _
  unfold Source.processPacket
  dsimp only
  split <;> exact hsub _ _

theorem poll_idle {src : Source} (h : src.sendRr = false) (w : World) :
    src.poll w = ⟨[.poll src], some (src, w)⟩ := by
  unfold Source.poll
  rw [h]
  rfl

/-- A poll after which no source has a report to send. -/
theorem step_poll_idle {r r' : Receiver} {fuel : ℕ} {io : PollInput} {l : List ReceiverEvent}
    {status : ℤ} {src : Source}
    (hpoll : Session.poll receiverHandlers fuel io r = ⟨l, some (r', status)⟩)
    (hsrc : r'.obj.sources = [src]) (hidle : src.sendRr = false) :
    step r (.poll fuel io) = ⟨l ++ [.poll src], some r'⟩ := by
  obtain ⟨interfaces, packets, ⟨sources, timestampUnit, ssrc⟩, world⟩ := r'
  cases hsrc
  change poll fuel io r = _
  unfold poll
  rw [hpoll, Exec.mk_some_bind]
  dsimp only
  unfold pollSources pollSources
  rw [poll_idle hidle]
  rfl

/-- The datagram as it is received at the time `t`. -/
def subflowRaw (k : ℕ) (t : RtpTime) : RawPacket :=
  ⟨(subflowDatagram k).take maxPacketSize, fun _ => 0, ⟨0x0A000001, 23000⟩, false, t⟩

theorem parse_subflowRaw (k : ℕ) (t : RtpTime) : ∃ pkt,
    RtpPacket.parse (subflowRaw k t) = .ok pkt ∧ pkt.ssrc = peerSsrc ∧
      pkt.subflowId = UInt16.ofNat k := by
  have hraw : (subflowRaw k t).data =
      SenderData.rtpBytes 0 0 peerSsrc (UInt16.ofNat k) 7 [] :=
    take_rtpBytes 0 0 peerSsrc (UInt16.ofNat k) 7 [] (by decide)
  obtain ⟨pkt, hparse, -⟩ := parse_rtpBytes rfl hraw (by simp)
  have hcarries := carries_rtpBytes hraw
  have hfields := RtpPacket.parse_fields hparse
  refine ⟨pkt, hparse, hfields.ssrc.trans hcarries.ssrc, ?_⟩
  rw [hfields.subflowId, if_pos hcarries.hasMprtp, hcarries.subflowId]

theorem named_succ {H : List ReceiverEvent} {r : Receiver} {k : ℕ} (h : Named H r k) :
    ∃ H' r', Named H' r' (k + 1) := by
  obtain ⟨f, hif, hf⟩ := h.interfaces
  have hdata : subflowDatagram k ≠ [] := by
    rw [subflowDatagram, rtpBytes_eq]
    simp [rtpPrefix, SenderData.rtpBytes]
  obtain ⟨pkt, hparse, hssrc, hid⟩ := parse_subflowRaw k r.world.now
  have hpoll := Session.poll_arrive hif hf hdata rfl
    (Session.processRawPacket_rtp (h := receiverHandlers) rfl hparse 10 0)
  have hsources : r.obj.sources = [] ∨
      ∃ src', r.obj.sources = [src'] ∧ src'.ssrc = peerSsrc :=
    h.sources.imp id fun ⟨src, hs, hp, _⟩ => ⟨src, hs, hp⟩
  have hidle : (r.obj.getSource peerSsrc).sendRr = false := by
    unfold ReceiverData.getSource
    rcases h.sources with hs | ⟨src, hs, hp, hrr⟩
    · rw [hs]
      rfl
    · have hfind : Keyed.find? Source.key peerSsrc.toNat r.obj.sources = some src := by
        rw [hs]
        simp [Keyed.find?, Source.key, hp]
      rw [hfind]
      exact hrr
  generalize hr' : { r with world := r.world.tick }.handle receiverHandlers (.rtp pkt 0) = r' at hpoll
  generalize hsrc : ((r.obj.getSource pkt.ssrc).processPacket pkt r.obj.timestampUnit 0
    r.world.tick).2.1 = src
  have hobj : r'.obj = r.obj.setSource src := by
    rw [← hr', ← hsrc]
    rfl
  have hsrcssrc : src.ssrc = peerSsrc := by
    rw [← hsrc, Source.processPacket_ssrc, r.obj.getSource_ssrc, hssrc]
  have hsrcs : r'.obj.sources = [src] := by
    rw [hobj]
    exact setSource_only hsrcssrc hsources
  have hrr : src.sendRr = false := by
    rw [← hsrc, processPacket_sendRr, hssrc]
    exact hidle
  have hstep := step_poll_idle hpoll hsrcs hrr
  have hrun := h.run.snoc (.poll 10 (.arrive false ⟨0x0A000001, 23000⟩ [subflowDatagram k])) trivial
  rw [hstep] at hrun
  refine ⟨_, r', hrun, ?_, Or.inr ⟨src, hsrcs, hsrcssrc, hrr⟩, ?_⟩
  · refine ⟨f, ?_, hf⟩
    rw [← hr', Session.handle_interfaces]
    exact hif
  · change (mentions (H ++ ([.visit r.obj (.rtp pkt 0)] ++ [.poll src])) peerSsrc).map Mention.id = _
    rw [← List.append_assoc, mentions_of_call?_none rfl, mentions_visit, Call.mention_rtp,
      if_pos hssrc, List.map_append, h.ids, List.range_succ, List.map_append]
    simp [rtpMention, hid]

theorem named_all (k : ℕ) : ∃ H r, Named H r k := by
  induction k with
  | zero => exact named_zero
  | succ k ih =>
    obtain ⟨H, r, h⟩ := ih
    exact named_succ h

theorem idsSeen_length {H : List ReceiverEvent} {r : Receiver} {k : ℕ} (h : Named H r k)
    (hk : k ≤ 65536) : (idsSeen H peerSsrc).length = k := by
  unfold idsSeen
  have hnodup : ((List.range k).map UInt16.ofNat).Nodup := by
    apply List.Nodup.map_on _ List.nodup_range
    intro i hi j hj hij
    rw [List.mem_range] at hi hj
    rw [← UInt16.toNat_inj, UInt16.toNat_ofNat', UInt16.toNat_ofNat'] at hij
    omega
  rw [h.ids, List.eraseDups_of_nodup hnodup, List.length_map, List.length_range]

/-- A source with a report to send builds it when it is polled. -/
theorem poll_log_prefix {src : Source} (h : src.sendRr = true) (w : World) :
    ∃ rr blocks, [.poll src, .report src.ssrc rr blocks] <+: (src.poll w).log := by
  have hssrc : (src.buildReport w).2.2.1.ssrc = src.ssrc := by
    rw [Source.buildReport_source]
    rfl
  refine ⟨(src.buildReport w).1, (src.buildReport w).2.1, ?_⟩
  rw [← hssrc]
  unfold Source.poll
  rw [if_pos h]
  exact List.prefix_append [_, _] _

/-- The sender report on the stream as it is received at the time `t`. -/
def streamRaw (t : RtpTime) : RawPacket :=
  ⟨streamReport.take maxPacketSize, fun _ => 0, ⟨0x0A000001, 23001⟩, true, t⟩

theorem rtcpCalls_streamRaw (t : RtpTime) : ∃ pkt,
    (streamRaw t).rtcpCalls 10 = ([.sr pkt 0], true) ∧ pkt.senderSsrc = peerSsrc := by
  have htype : (streamRaw t).mem 1 = rtcpTypeSr := by
    change memOf (streamReport.take maxPacketSize) (fun _ => 0) 1 = _
    decide
  have hlen : (streamRaw t).dataLen ≤ packetBytes (streamRaw t).mem 0 := by
    change (streamReport.take maxPacketSize).length ≤
      packetBytes (memOf (streamReport.take maxPacketSize) fun _ => 0) 0
    decide
  have hssrc : be32 (streamRaw t).mem 4 = peerSsrc := by
    change be32 (memOf (streamReport.take maxPacketSize) fun _ => 0) 4 = _
    decide
  have hpos : 0 < (streamRaw t).dataLen := by
    change 0 < (streamReport.take maxPacketSize).length
    decide
  exact ⟨_, rtcpCalls_sr htype hpos hlen, hssrc⟩

/-- The next sender report makes the receiver report about all of them. -/
theorem named_report {H : List ReceiverEvent} {r : Receiver} {k : ℕ} (h : Named H r k) :
    ∃ H' r' n rr blocks, Run step (fun _ _ _ => True) (new 1 1 (.ticking 1000)) H' r' ∧
      H'[n]? = some (.report peerSsrc rr blocks) ∧
      mentions (H'.take n) peerSsrc = mentions H peerSsrc := by
  obtain ⟨f, hif, hf⟩ := h.interfaces
  obtain ⟨pkt, hcalls, hssrc⟩ := rtcpCalls_streamRaw r.world.now
  have hpoll := Session.poll_arrive hif hf (by decide) rfl
    (Session.processRawPacket_rtcp (h := receiverHandlers) rfl hcalls 0)
  have hsources : r.obj.sources = [] ∨
      ∃ src', r.obj.sources = [src'] ∧ src'.ssrc = peerSsrc :=
    h.sources.imp id fun ⟨src, hs, hp, _⟩ => ⟨src, hs, hp⟩
  generalize hr' : { r with world := r.world.tick }.handle receiverHandlers
    (.rtcp (.sr pkt 0) 0) = r' at hpoll
  generalize hsrc : ((r.obj.getSource pkt.senderSsrc).processSrPacket pkt 0 0 r.world.tick).1 = src
  have hobj : r'.obj = r.obj.setSource src := by
    rw [← hr', ← hsrc]
    rfl
  have hsrcssrc : src.ssrc = peerSsrc := by
    rw [← hsrc, Source.processSrPacket_ssrc, r.obj.getSource_ssrc, hssrc]
  have hsrcs : r'.obj.sources = [src] := by
    rw [hobj]
    exact setSource_only hsrcssrc hsources
  have hrr : src.sendRr = true := by
    rw [← hsrc]
    rfl
  obtain ⟨rr, blocks, hprefix⟩ := poll_log_prefix hrr r'.world
  have hlog : [.visit r.obj (.rtcp (.sr pkt 0) 0), .poll src, .report src.ssrc rr blocks] <+:
      (step r (.poll 10 (.arrive true ⟨0x0A000001, 23001⟩ [streamReport]))).log := by
    change _ <+: (poll 10 (.arrive true ⟨0x0A000001, 23001⟩ [streamReport]) r).log
    unfold poll
    rw [hpoll, Exec.mk_some_bind]
    dsimp only
    rw [hsrcs]
    apply (List.prefix_cons_inj _).mpr
    refine List.IsPrefix.trans ?_ (Exec.log_prefix_bind _ _)
    unfold pollSources
    exact hprefix.trans (Exec.log_prefix_bind _ _)
  obtain ⟨tail, htail⟩ := hlog
  have hrun := h.run.snoc (.poll 10 (.arrive true ⟨0x0A000001, 23001⟩ [streamReport])) trivial
  rw [← htail] at hrun
  refine ⟨_, _, H.length + 2, rr, blocks, hrun, ?_, ?_⟩
  · rw [List.getElem?_append_right (by omega), hsrcssrc]
    simp
  · have htake : ∀ a b c : ReceiverEvent,
        (H ++ ([a, b, c] ++ tail)).take (H.length + 2) = H ++ [a] ++ [b] := by
      intro a b c
      rw [List.take_append, List.take_of_length_le (by omega), Nat.add_sub_cancel_left]
      simp
    rw [htake, mentions_of_call?_none rfl, mentions_visit, Call.mention_sr, if_neg (by simp)]
    simp

/-- With 1821 subflows the report about them runs past the end of its buffer. -/
theorem report_overruns :
    ¬ ∀ (timestampUnit : ℚ) (ssrc : UInt32) (w : World) (H : List ReceiverEvent)
      (r : Option Receiver), Run step (fun _ _ _ => True) (new timestampUnit ssrc w) H r →
        ∀ s rr blocks, .report s rr blocks ∈ H → FitsBuffer blocks := by
  intro hall
  obtain ⟨H, r, h⟩ := named_all 1821
  obtain ⟨H', r', n, rr, blocks, hrun, hn, hm⟩ := named_report h
  have hfits := hall 1 1 (.ticking 1000) H' r' hrun _ rr blocks (List.mem_of_getElem? hn)
  have htold : Told (H'.take n) (.report peerSsrc rr blocks) := run_told hrun hn
  have hlen : (idsSeen (H'.take n) peerSsrc).length = 1821 := by
    unfold idsSeen
    rw [hm]
    exact idsSeen_length h (by decide)
  have hle := htold.fits_iff.mp hfits
  omega

end Receiver

end Mprtp
