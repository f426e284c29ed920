import Mprtp.Rtcp.Framing
import Mprtp.Source

/-! The size of a receiver report, and the source it leaves behind. -/
namespace Mprtp

@[simp] theorem rtcpHeader_length (count : ℕ) (packettype : UInt8) (length : UInt16) :
    (rtcpHeader count packettype length).length = 4 := rfl

/-- The fields of a header that stands in memory. -/
theorem rtcpHeader_fields {m : ℕ → UInt8} {p count : ℕ} {packettype : UInt8} {length : UInt16}
    {rest : List UInt8} (h : BytesAt m p (rtcpHeader count packettype length ++ rest)) :
    m p = UInt8.ofNat (rtpVersion * 64 + count) ∧ m (p + 1) = packettype ∧
      be16 m (p + 2) = length := by
  unfold rtcpHeader at h
  simp only [bytesAt_append, bytesAt_cons, List.length_cons, List.length_nil] at h
  obtain ⟨⟨⟨h₀, h₁, -⟩, h₂⟩, -⟩ := h
  exact ⟨h₀, h₁, h₂.be16⟩

/-- A packet with such a header takes the bytes that its length field says. -/
theorem rtcpHeader_packetBytes (count : ℕ) (packettype : UInt8) (length : UInt16)
    (rest : List UInt8) : packetBytes (alone (rtcpHeader count packettype length ++ rest)) 0 =
      (length.toNat + 1) * 4 := by
  obtain ⟨-, -, hfield⟩ := rtcpHeader_fields
    (bytesAt_memOf (rtcpHeader count packettype length ++ rest) fun _ => 0)
  unfold packetBytes alone
  rw [hfield]

/-- The subflow after a report about it. -/
def Subflow.reported (sf : Subflow) : Subflow :=
  { sf with recvStat := sf.recvStat.startNewInterval }

namespace Source

variable (src : Source)

@[simp] theorem makeRrPacket_length (stat : SourceStats) (w : World) :
    (src.makeRrPacket stat w).1.length = 32 := rfl

/-- The source after it has built a report. -/
def reported : Source :=
  { src with
    sendRr := false
    stat := src.stat.startNewInterval
    subflows := src.subflows.map Subflow.reported }

/-- A subflow keeps its id in a report. -/
theorem find?_reported (j : UInt16) : src.reported.subflows.find? (fun sf => sf.subflowId = j) =
    (src.subflows.find? fun sf => sf.subflowId = j).map Subflow.reported := by
  unfold reported
  rw [List.find?_map]
  rfl

theorem subflowBlocks_length (sfs : List Subflow) (w : World) :
    (src.subflowBlocks sfs w).1.length = 36 * sfs.length := by
  induction sfs generalizing w with
  | nil => rfl
  | cons sf sfs ih =>
    unfold subflowBlocks
    dsimp only
    rw [List.length_append, ih, List.length_append, List.length_append, makeRrPacket_length,
      List.length_cons]
    simp only [List.length_cons, List.length_nil, bytes16_length]
    omega

theorem subflowBlocks_subflows (sfs : List Subflow) (w : World) :
    (src.subflowBlocks sfs w).2.1 = sfs.map Subflow.reported := by
  induction sfs generalizing w with
  | nil => rfl
  | cons sf sfs ih =>
    unfold subflowBlocks
    dsimp only
    rw [ih, List.map_cons]
    rfl

/-- The report takes 12 bytes and 36 for each subflow. -/
theorem createSubflowsRrPacket_length (w : World) :
    (src.createSubflowsRrPacket w).1.length = 12 + 36 * src.subflows.length := by
  unfold createSubflowsRrPacket
  dsimp only
  rw [List.length_append, List.length_append, List.length_append, rtcpHeader_length,
    bytes32_length, bytes32_length, subflowBlocks_length]
  omega

/-- The length field, which is stored in 16 bits. -/
theorem createSubflowsRrPacket_lengthField (w : World) (beyond : ℕ → UInt8) :
    be16 (memOf (src.createSubflowsRrPacket w).1 beyond) 2 =
      UInt16.ofNat (2 + 9 * src.subflows.length) := by
  have hat := bytesAt_memOf (src.createSubflowsRrPacket w).1 beyond
  generalize memOf (src.createSubflowsRrPacket w).1 beyond = m at hat ⊢
  unfold createSubflowsRrPacket at hat
  dsimp only at hat
  obtain ⟨-, -, hfield⟩ := rtcpHeader_fields hat
  have hlen : (sizeofRtcpCommonHeader + (bytes32 src.senderSsrc ++ bytes32 src.ssrc ++
      (src.subflowBlocks src.subflows w).1).length) / 4 - 1 = 2 + 9 * src.subflows.length := by
    rw [List.length_append, List.length_append, bytes32_length, bytes32_length,
      subflowBlocks_length]
    unfold sizeofRtcpCommonHeader
    omega
  rw [hfield, hlen]

end Source

end Mprtp
