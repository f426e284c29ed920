import Mprtp.Rtcp.Decode

/-! Well-formed compounds: packets one behind the other, and blocks in MPRTCP packets. -/
namespace Mprtp

open ByteReader

section

variable {m : ℕ → UInt8} {recvFrom : Endpoint} {recvtime : RtpTime} {p : ℕ} {b : List UInt8}

/-- A report block reads in memory as it does alone. -/
theorem rrAt_of_bytesAt (h : BytesAt m p b) {k : ℕ} (hk : k + 24 ≤ b.length) :
    rrAt m recvFrom recvtime (p + k) = rrAt (alone b) recvFrom recvtime k := by
  have hbyte : ∀ j < 24, m (p + k + j) = alone b (k + j) := by
    intro j hj
    rw [Nat.add_assoc]
    exact h.byte_at _ (by omega)
  have hword : ∀ j, j + 4 ≤ 24 → be32 m (p + k + j) = be32 (alone b) (k + j) := by
    intro j hj
    rw [Nat.add_assoc]
    exact h.be32_at _ (by omega)
  have hssrc := hword 0 (by omega)
  unfold rrAt
  rw [Nat.add_zero] at hssrc
  rw [hssrc, hbyte 4 (by omega), hbyte 5 (by omega), hbyte 6 (by omega), hbyte 7 (by omega),
    hword 8 (by omega), hword 12 (by omega), hword 16 (by omega), hword 20 (by omega)]
  rfl

theorem srAt_of_bytesAt (h : BytesAt m p b) (hb : 28 + 24 * countOf (alone b 0) ≤ b.length) :
    srAt m recvFrom recvtime p = srAt (alone b) recvFrom recvtime 0 := by
  have hbyte : m p = alone b 0 := h.byte_at (k := 0) _ (by omega)
  have hword : ∀ j, j + 4 ≤ 28 → be32 m (p + j) = be32 (alone b) j :=
    fun j hj => h.be32_at _ (by omega)
  unfold srAt
  rw [hbyte, hword 4 (by omega), hword 8 (by omega), hword 12 (by omega), hword 16 (by omega),
    hword 20 (by omega), hword 24 (by omega)]
  have hreports : (List.range (countOf (alone b 0))).map (fun i =>
      rrAt m recvFrom recvtime (p + 28 + i * sizeofRtcpReceiverReport)) =
      (List.range (countOf (alone b 0))).map fun i =>
        rrAt (alone b) recvFrom recvtime (28 + i * sizeofRtcpReceiverReport) := by
    apply List.map_congr_left
    intro i hi
    rw [List.mem_range] at hi
    unfold sizeofRtcpReceiverReport
    rw [Nat.add_assoc]
    exact rrAt_of_bytesAt h (by omega)
  rw [hreports]

end

/-- A packet with a whole header; a report also has all that its count announces. -/
structure Complete (b : List UInt8) : Prop where
  header : 4 ≤ b.length
  sr : alone b 1 = rtcpTypeSr → 28 + 24 * countOf (alone b 0) ≤ b.length
  rr : alone b 1 = rtcpTypeRr → 8 + 24 * countOf (alone b 0) ≤ b.length

section

variable (recvFrom : Endpoint) (recvtime : RtpTime)

/-- What is called for a packet that is no MPRTCP packet, with the subflow id that it is handed
on with. -/
def reportCalls (id : UInt16) (b : List UInt8) : List RtcpCall :=
  if alone b 1 = rtcpTypeSr then (processSrPacket recvFrom recvtime 0 id).eval (alone b)
  else if alone b 1 = rtcpTypeRr then (processRrPacket recvFrom recvtime 0 id).eval (alone b)
  else []

variable {m : ℕ → UInt8} {p : ℕ} {b : List UInt8}

theorem processSrPacket_of_bytesAt (id : UInt16) (h : BytesAt m p b) (hb : Complete b)
    (ht : m (p + 1) = rtcpTypeSr) :
    (processSrPacket recvFrom recvtime p id).eval m = reportCalls recvFrom recvtime id b := by
  have hhead := hb.header
  have ht' : alone b 1 = rtcpTypeSr := by
    rw [← ht]
    exact (h.byte_at _ (by omega)).symm
  unfold reportCalls
  rw [if_pos ht', processSrPacket_eval _ _ _ _ ht, processSrPacket_eval _ _ _ _ ht',
    srAt_of_bytesAt h (hb.sr ht')]

theorem processRrPacket_of_bytesAt (id : UInt16) (h : BytesAt m p b) (hb : Complete b)
    (ht : m (p + 1) = rtcpTypeRr) :
    (processRrPacket recvFrom recvtime p id).eval m = reportCalls recvFrom recvtime id b := by
  have hhead := hb.header
  have ht' : alone b 1 = rtcpTypeRr := by
    rw [← ht]
    exact (h.byte_at _ (by omega)).symm
  have hcount : m p = alone b 0 := h.byte_at (k := 0) _ (by omega)
  have hlen := hb.rr ht'
  unfold reportCalls
  rw [if_neg (by rw [ht']; decide), if_pos ht', processRrPacket_eval, processRrPacket_eval, hcount]
  -- the block is there as soon as there is a call
  by_cases hz : countOf (alone b 0) = 0
  · rw [hz, List.replicate_zero, List.replicate_zero]
  · have hssrc : be32 m (p + 4) = be32 (alone b) 4 := h.be32_at _ (by omega)
    have hreport : rrAt m recvFrom recvtime (p + 8) = rrAt (alone b) recvFrom recvtime 8 :=
      rrAt_of_bytesAt h (by omega)
    rw [hssrc, hreport]

theorem reportCalls_of_other (id : UInt16) (hsr : alone b 1 ≠ rtcpTypeSr)
    (hrr : alone b 1 ≠ rtcpTypeRr) : reportCalls recvFrom recvtime id b = [] := by
  unfold reportCalls
  rw [if_neg hsr, if_neg hrr]

end

/-- A block of an MPRTCP packet. -/
inductive MprtcpBlock where
  /-- a packet that is about one subflow -/
  | subflow (id : UInt16) (packet : List UInt8)
  /-- a block of another type, with what lies behind type and length -/
  | other (mprtcpType : UInt8) (rest : List UInt8)

namespace MprtcpBlock

/-- A block starts with its type and its length in words. -/
def bytes : MprtcpBlock → List UInt8
  | subflow id packet =>
    [mprtcpTypeSubflow, UInt8.ofNat ((4 + packet.length) / 4)] ++ bytes16 id ++ packet
  | other mprtcpType rest => [mprtcpType, UInt8.ofNat ((2 + rest.length) / 4)] ++ rest

def WellFormed : MprtcpBlock → Prop
  | subflow _ packet => Complete packet ∧ 4 ∣ 4 + packet.length ∧ 4 + packet.length ≤ 4 * 255
  | other mprtcpType rest => mprtcpType ≠ mprtcpTypeSubflow ∧ 4 ∣ 2 + rest.length ∧
      2 + rest.length ≤ 4 * 255

/-- What is called for a block. -/
def calls (recvFrom : Endpoint) (recvtime : RtpTime) : MprtcpBlock → List RtcpCall
  | subflow id packet => reportCalls recvFrom recvtime id packet
  | other _ _ => []

variable {recvFrom : Endpoint} {recvtime : RtpTime} {m : ℕ → UInt8} {p : ℕ} {block : MprtcpBlock}

/-- The length of a block in words is what its second byte says. -/
theorem blockBytes_eq (hwf : block.WellFormed) (h : BytesAt m p block.bytes) :
    blockBytes m p = block.bytes.length := by
  have hlen : ∀ n, 4 ∣ n → n ≤ 4 * 255 → (UInt8.ofNat (n / 4)).toNat * 4 = n := by
    intro n hdvd hle
    rw [UInt8.toNat_ofNat']
    omega
  cases block with
  | subflow id packet =>
    obtain ⟨-, hdvd, hle⟩ := hwf
    unfold bytes at h ⊢
    simp only [bytesAt_append, bytesAt_cons] at h
    unfold blockBytes
    rw [h.1.1.2.1, hlen _ hdvd hle]
    simp only [List.length_append, List.length_cons, List.length_nil, bytes16_length]
  | other mprtcpType rest =>
    obtain ⟨-, hdvd, hle⟩ := hwf
    unfold bytes at h ⊢
    simp only [bytesAt_append, bytesAt_cons] at h
    unfold blockBytes
    rw [h.1.2.1, hlen _ hdvd hle]
    simp only [List.length_append, List.length_cons, List.length_nil]

theorem bytes_length_pos (block : MprtcpBlock) : 0 < block.bytes.length := by
  cases block <;> simp [bytes]

/-- A block in memory makes its own calls. -/
theorem mprtcpBlock_eval (hwf : block.WellFormed) (h : BytesAt m p block.bytes) :
    (mprtcpBlock recvFrom recvtime p).eval m = block.calls recvFrom recvtime := by
  unfold mprtcpBlock
  simp only [eval_bind, eval_byte, eval_ite, eval_u16, eval_pure]
  cases block with
  | subflow id packet =>
    obtain ⟨hpacket, -, -⟩ := hwf
    unfold bytes at h
    simp only [bytesAt_append, bytesAt_cons, List.length_append, List.length_cons, List.length_nil,
      bytes16_length] at h
    obtain ⟨⟨⟨h₀, -⟩, h₂⟩, h₄⟩ := h
    have hid : be16 m (p + 2) = id := h₂.be16
    rw [if_neg (by rw [h₀]; decide), hid]
    unfold calls
    by_cases hsr : m (p + 5) = rtcpTypeSr
    · rw [if_pos hsr]
      exact processSrPacket_of_bytesAt recvFrom recvtime id h₄ hpacket hsr
    · rw [if_neg hsr]
      by_cases hrr : m (p + 5) = rtcpTypeRr
      · rw [if_pos hrr]
        exact processRrPacket_of_bytesAt recvFrom recvtime id h₄ hpacket hrr
      · have htype : m (p + 5) = alone packet 1 := by
          have hhead := hpacket.header
          exact h₄.byte_at (k := 1) _ (by omega)
        rw [if_neg hrr]
        rw [htype] at hsr hrr
        exact (reportCalls_of_other recvFrom recvtime id hsr hrr).symm
  | other mprtcpType rest =>
    obtain ⟨htype, -, -⟩ := hwf
    unfold bytes at h
    simp only [bytesAt_append, bytesAt_cons] at h
    rw [h.1.1, if_pos htype]
    rfl

theorem length_le_bytes (blocks : List MprtcpBlock) :
    blocks.length ≤ (blocks.flatMap bytes).length := by
  induction blocks with
  | nil => exact Nat.zero_le _
  | cons block blocks ih =>
    have hpos := block.bytes_length_pos
    rw [List.flatMap_cons, List.length_append, List.length_cons]
    omega

/-- The inner loop handles every block once and in order. -/
theorem mprtcpLoop_eval {blocks : List MprtcpBlock} (hwf : ∀ block ∈ blocks, block.WellFormed)
    {fuel : ℕ} (hfuel : blocks.length < fuel) (h : BytesAt m p (blocks.flatMap bytes)) :
    (mprtcpLoop recvFrom recvtime (p + (blocks.flatMap bytes).length) fuel p).eval m =
      (blocks.flatMap (calls recvFrom recvtime), true) := by
  induction blocks generalizing p fuel with
  | nil =>
    obtain ⟨fuel, rfl⟩ : ∃ k, fuel = k + 1 := ⟨fuel - 1, by simp at hfuel; omega⟩
    rw [mprtcpLoop_eval_succ, if_neg (by simp)]
    rfl
  | cons block blocks ih =>
    rw [List.length_cons] at hfuel
    obtain ⟨fuel, rfl⟩ : ∃ k, fuel = k + 1 := ⟨fuel - 1, by omega⟩
    rw [List.flatMap_cons, bytesAt_append] at h
    obtain ⟨hblock, hrest⟩ := h
    have hfirst := hwf block (by simp)
    have hpos := block.bytes_length_pos
    rw [mprtcpLoop_eval_succ, List.flatMap_cons, List.length_append, if_pos (by omega),
      blockBytes_eq hfirst hblock, mprtcpBlock_eval hfirst hblock, ← Nat.add_assoc,
      ih (fun b hb => hwf b (by simp [hb])) (by omega) hrest]
    rfl

end MprtcpBlock

/-- A packet of a compound. -/
inductive CompoundPacket where
  /-- a packet of any type but the one of MPRTCP -/
  | single (bytes : List UInt8)
  /-- an MPRTCP packet: the twelve bytes in front, and the blocks -/
  | mprtcp (head : List UInt8) (blocks : List MprtcpBlock)

namespace CompoundPacket

def bytes : CompoundPacket → List UInt8
  | single bytes => bytes
  | mprtcp head blocks => head ++ blocks.flatMap MprtcpBlock.bytes

/-- The packet is as long as its length field says, and all of it is there. -/
def WellFormed (packet : CompoundPacket) : Prop :=
  packet.bytes.length = packetBytes (alone packet.bytes) 0 ∧
    match packet with
    | single bytes => Complete bytes ∧ alone bytes 1 ≠ rtcpTypeMprtp
    | mprtcp head blocks => head.length = 12 ∧ alone head 1 = rtcpTypeMprtp ∧
        ∀ block ∈ blocks, block.WellFormed

/-- What is called for a packet: a report on its own goes on with the subflow id 0. -/
def calls (recvFrom : Endpoint) (recvtime : RtpTime) : CompoundPacket → List RtcpCall
  | single bytes => reportCalls recvFrom recvtime 0 bytes
  | mprtcp _ blocks => blocks.flatMap (MprtcpBlock.calls recvFrom recvtime)

variable {recvFrom : Endpoint} {recvtime : RtpTime} {m : ℕ → UInt8} {p : ℕ}
  {packet : CompoundPacket}

theorem bytes_length_pos (hwf : packet.WellFormed) : 0 < packet.bytes.length := by
  rw [hwf.1]
  exact packetBytes_pos _ _

theorem packetBytes_eq (hwf : packet.WellFormed) (h : BytesAt m p packet.bytes) :
    packetBytes m p = packet.bytes.length := by
  have hlen := hwf.1
  have hfield : be16 m (p + 2) = be16 (alone packet.bytes) 2 := by
    apply h.be16_at
    rw [hlen]
    unfold packetBytes
    omega
  rw [hlen]
  unfold packetBytes
  rw [hfield]

/-- A packet in memory makes its own calls. -/
theorem dispatchPacket_eval (hwf : packet.WellFormed) {fuel : ℕ} (hfuel : packet.bytes.length < fuel)
    (h : BytesAt m p packet.bytes) : (dispatchPacket recvFrom recvtime fuel p).eval m =
      (packet.calls recvFrom recvtime, true) := by
  have hbytes := packetBytes_eq hwf h
  unfold dispatchPacket
  simp only [eval_bind, eval_byte, eval_ite, eval_pure]
  cases packet with
  | single bytes =>
    obtain ⟨-, hpacket, hother⟩ := hwf
    have hhead := hpacket.header
    have h' : BytesAt m p bytes := h
    have htype : m (p + 1) = alone bytes 1 := h'.byte_at _ (by omega)
    unfold calls
    by_cases hsr : m (p + 1) = rtcpTypeSr
    · rw [if_pos hsr, processSrPacket_of_bytesAt recvFrom recvtime 0 h' hpacket hsr]
    · rw [if_neg hsr]
      by_cases hrr : m (p + 1) = rtcpTypeRr
      · rw [if_pos hrr, processRrPacket_of_bytesAt recvFrom recvtime 0 h' hpacket hrr]
      · rw [if_neg hrr, if_neg (by rw [htype]; exact hother)]
        rw [htype] at hsr hrr
        have hcalls := reportCalls_of_other recvFrom recvtime 0 hsr hrr
        exact Prod.ext hcalls.symm rfl
  | mprtcp head blocks =>
    obtain ⟨-, hhead, htype, hblocks⟩ := hwf
    unfold bytes at h hbytes hfuel
    rw [bytesAt_append, hhead] at h
    rw [List.length_append, hhead] at hbytes hfuel
    obtain ⟨hhead', hrest⟩ := h
    have htype' : m (p + 1) = rtcpTypeMprtp := by
      rw [← htype]
      exact hhead'.byte_at _ (by omega)
    have hcount := MprtcpBlock.length_le_bytes blocks
    have hstop : p + ((be16 m (p + 2)).toNat + 1) * 4 =
        p + 12 + (blocks.flatMap MprtcpBlock.bytes).length := by
      unfold packetBytes at hbytes
      omega
    rw [if_neg (by rw [htype']; decide), if_neg (by rw [htype']; decide), if_pos htype']
    unfold processMprtcpPacket
    simp only [eval_bind, eval_u16]
    rw [hstop, MprtcpBlock.mprtcpLoop_eval hblocks (by omega) hrest]
    rfl

theorem length_le_bytes {packets : List CompoundPacket} (hwf : ∀ packet ∈ packets, packet.WellFormed) :
    packets.length ≤ (packets.flatMap bytes).length := by
  induction packets with
  | nil => exact Nat.zero_le _
  | cons packet packets ih =>
    have hpos := bytes_length_pos (hwf packet (by simp))
    have hrest := ih fun q hq => hwf q (by simp [hq])
    rw [List.flatMap_cons, List.length_append, List.length_cons]
    omega

/-- The outer loop handles every packet once and in order. -/
theorem rtcpLoop_eval {packets : List CompoundPacket}
    (hwf : ∀ packet ∈ packets, packet.WellFormed) {blockFuel fuel : ℕ}
    (hblockFuel : (packets.flatMap bytes).length < blockFuel) (hfuel : packets.length < fuel)
    (h : BytesAt m p (packets.flatMap bytes)) :
    (rtcpLoop recvFrom recvtime (p + (packets.flatMap bytes).length) blockFuel fuel p).eval m =
      (packets.flatMap (calls recvFrom recvtime), true) := by
  induction packets generalizing p fuel with
  | nil =>
    obtain ⟨fuel, rfl⟩ : ∃ k, fuel = k + 1 := ⟨fuel - 1, by simp at hfuel; omega⟩
    rw [rtcpLoop_eval_succ, if_neg (by simp)]
    rfl
  | cons packet packets ih =>
    rw [List.length_cons] at hfuel
    obtain ⟨fuel, rfl⟩ : ∃ k, fuel = k + 1 := ⟨fuel - 1, by omega⟩
    rw [List.flatMap_cons, List.length_append] at hblockFuel
    rw [List.flatMap_cons, bytesAt_append] at h
    obtain ⟨hpacket, hrest⟩ := h
    have hfirst := hwf packet (by simp)
    have hpos := bytes_length_pos hfirst
    rw [rtcpLoop_eval_succ, List.flatMap_cons, List.length_append, if_pos (by omega),
      packetBytes_eq hfirst hpacket, dispatchPacket_eval hfirst (by omega) hpacket, ← Nat.add_assoc]
    dsimp only
    rw [if_pos rfl, ih (fun q hq => hwf q (by simp [hq])) (by omega) (by omega) hrest]
    rfl

/-- What a compound makes the session call, whatever lies in memory behind it. -/
theorem processRtcpPacket_eval {packets : List CompoundPacket}
    (hwf : ∀ packet ∈ packets, packet.WellFormed) {raw : RawPacket}
    (hdata : raw.data = packets.flatMap bytes) {fuel : ℕ} (hfuel : raw.dataLen < fuel) :
    (processRtcpPacket fuel raw).eval raw.mem =
      (packets.flatMap (calls raw.fromAddr raw.recvtime), true) := by
  have hat : BytesAt raw.mem 0 (packets.flatMap bytes) := by
    rw [← hdata]
    exact bytesAt_memOf raw.data raw.beyond
  have hlen : raw.dataLen = 0 + (packets.flatMap bytes).length := by
    rw [← hdata, Nat.zero_add]
    rfl
  have hcount := length_le_bytes hwf
  unfold processRtcpPacket
  rw [hlen] at hfuel ⊢
  exact rtcpLoop_eval hwf (by omega) (by omega) hat

end CompoundPacket

end Mprtp
