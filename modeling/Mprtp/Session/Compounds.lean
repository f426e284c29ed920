import Mprtp.Receiver
import Mprtp.Rtcp.Framing

/-! The handler calls that a session makes for a well-formed compound. -/
namespace Mprtp

/-- Every packet of a well-formed compound is handled once and in order: a report on its own with
the subflow id 0, a report in a block with the id of the block, and the others not at all. -/
theorem Session.processRtcpPacket_wellFormed {σ ω : Type} (h : Handlers σ ω) (s : Session σ) (i : ℕ)
    {packets : List CompoundPacket} (hwf : ∀ packet ∈ packets, packet.WellFormed) {raw : RawPacket}
    (hdata : raw.data = packets.flatMap CompoundPacket.bytes) {fuel : ℕ}
    (hfuel : raw.dataLen < fuel) : s.processRtcpPacket h fuel i raw =
      (packets.flatMap (CompoundPacket.calls raw.fromAddr raw.recvtime)).foldlM
        (fun s c => s.call h (.rtcp c i)) s := by
  have hcalls : raw.rtcpCalls fuel = _ := CompoundPacket.processRtcpPacket_eval hwf hdata hfuel
  unfold processRtcpPacket
  rw [hcalls]
  simp only [if_true, bind_pure]

/-- A source description without chunks. -/
def emptyDescription : List UInt8 := [0x80, 202, 0, 0]

/-- A receiver report with one block. -/
def plainReport : List UInt8 := [0x81, 201, 0, 7, 0, 0, 0, 1] ++ List.replicate 24 9

/-- A sender report without blocks. -/
def plainSenderReport : List UInt8 := [0x80, 200, 0, 6, 0, 0, 0, 1] ++ List.replicate 20 5

/-- A compound with reports among packets and blocks of other types. -/
def mixedPackets : List CompoundPacket :=
  [.single emptyDescription, .single plainSenderReport,
    .mprtcp [0x80, 211, 0, 23, 0, 0, 0, 1, 0, 0, 0, 2]
      [.other 1 (List.replicate 6 1), .subflow 3 plainReport, .subflow 4 emptyDescription,
        .subflow 5 plainSenderReport],
    .single plainReport]

def mixedRaw : RawPacket :=
  ⟨mixedPackets.flatMap CompoundPacket.bytes, fun _ => 0xFF, ⟨0x0A000001, 23001⟩, true, 1⟩

theorem mixedPackets_handled :
    (Receiver.new 1 1 (.ticking 1000)).processRtcpPacket receiverHandlers 200 0 mixedRaw =
      ([.sr (srAt (alone plainSenderReport) mixedRaw.fromAddr 1 0) 0,
        .rr (rrAt (alone plainReport) mixedRaw.fromAddr 1 8) 3 1,
        .sr (srAt (alone plainSenderReport) mixedRaw.fromAddr 1 0) 5,
        .rr (rrAt (alone plainReport) mixedRaw.fromAddr 1 8) 0 1] : List RtcpCall).foldlM
          (fun s c => s.call receiverHandlers (.rtcp c 0)) (Receiver.new 1 1 (.ticking 1000)) := by
  have hempty : Complete emptyDescription := ⟨by decide, by decide, by decide⟩
  have hsr : Complete plainSenderReport := ⟨by decide, by decide, by decide⟩
  have hrr : Complete plainReport := ⟨by decide, by decide, by decide⟩
  have hwf : ∀ packet ∈ mixedPackets, packet.WellFormed := by
    intro packet hpacket
    unfold mixedPackets at hpacket
    simp only [List.mem_cons, List.not_mem_nil, or_false] at hpacket
    rcases hpacket with rfl | rfl | rfl | rfl
    · exact ⟨by decide, hempty, by decide⟩
    · exact ⟨by decide, hsr, by decide⟩
    · refine ⟨by decide, by decide, by decide, ?_⟩
      intro block hblock
      simp only [List.mem_cons, List.not_mem_nil, or_false] at hblock
      rcases hblock with rfl | rfl | rfl | rfl
      · exact ⟨by decide, by decide, by decide⟩
      · exact ⟨hrr, by decide, by decide⟩
      · exact ⟨hempty, by decide, by decide⟩
      · exact ⟨hsr, by decide, by decide⟩
    · exact ⟨by decide, hrr, by decide⟩
  have hcalls : mixedPackets.flatMap (CompoundPacket.calls mixedRaw.fromAddr mixedRaw.recvtime) =
      [.sr (srAt (alone plainSenderReport) mixedRaw.fromAddr 1 0) 0,
        .rr (rrAt (alone plainReport) mixedRaw.fromAddr 1 8) 3 1,
        .sr (srAt (alone plainSenderReport) mixedRaw.fromAddr 1 0) 5,
        .rr (rrAt (alone plainReport) mixedRaw.fromAddr 1 8) 0 1] := by decide +kernel
  have hfuel : mixedRaw.dataLen < 200 := by decide +kernel
  rw [Session.processRtcpPacket_wellFormed receiverHandlers _ 0 hwf rfl hfuel, hcalls]

end Mprtp
