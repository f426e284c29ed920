import Mprtp.Sender.Datagrams
import Mprtp.Sender.Sequence
import Mprtp.Sender.Suspension

/-! The calls of `send_data` and the RTP datagrams that they hand to the sockets. -/
namespace Mprtp

namespace Sender

/-- A call of `send_data`: the sender and the payload. -/
structure DataCall where
  sender : Sender
  payload : List UInt8

namespace DataCall

/-- The timestamp that the call sets. -/
def timestamp (c : DataCall) : UInt32 :=
  (c.sender.obj.stamped (c.sender.obj.selectSubflow c.sender.world).2).timestamp

/-- The bytes are the datagram of the call, on one of the subflows. -/
def Builds (c : DataCall) (bytes : List UInt8) : Prop :=
  ∃ sf ∈ c.sender.obj.subflows, bytes = SenderData.rtpBytes c.sender.obj.sequesnceNumber c.timestamp
    c.sender.obj.ssrc sf.subflowId sf.sequesnceNumber c.payload

theorem Builds.payload {c : DataCall} {bytes : List UInt8} (h : c.Builds bytes) :
    bytes.drop 24 = c.payload := by
  obtain ⟨sf, -, rfl⟩ := h
  rw [rtpBytes_eq]
  exact List.drop_left' (rtpPrefix_length ..)

/-- The second byte, which is the packet type of a report. -/
theorem Builds.second {c : DataCall} {bytes : List UInt8} (h : c.Builds bytes) : bytes[1]? = some 0 := by
  obtain ⟨sf, -, rfl⟩ := h
  rfl

end DataCall

/-- The calls of `send_data`, in order. -/
def dataCalls (H : List ((Sender × Step) ⊕ SenderEvent)) : List DataCall :=
  H.filterMap fun
    | .inl (s, .sendData data _) => some ⟨s, data⟩
    | _ => none

theorem mem_dataCalls {H : List ((Sender × Step) ⊕ SenderEvent)} {c : DataCall} :
    c ∈ dataCalls H ↔ ∃ ret, .inl (c.sender, .sendData c.payload ret) ∈ H := by
  unfold dataCalls
  rw [List.mem_filterMap]
  constructor
  · intro h
    obtain ⟨e, he, heq⟩ := h
    split at heq
    · cases heq
      exact ⟨_, he⟩
    · cases heq
  · intro h
    obtain ⟨ret, hret⟩ := h
    exact ⟨_, hret, rfl⟩

theorem dataCalls_noted (H : List ((Sender × Step) ⊕ SenderEvent)) (s : Sender) (e : Step)
    (L : List SenderEvent) : dataCalls (H ++ [.inl (s, e)] ++ L.map .inr) =
      dataCalls H ++ (match e with
        | .sendData data _ => [⟨s, data⟩]
        | _ => []) := by
  unfold dataCalls
  rw [filterMap_noted fun _ => rfl]
  cases e <;> rfl

theorem dataCalls_append (H H' : List ((Sender × Step) ⊕ SenderEvent)) :
    dataCalls (H ++ H') = dataCalls H ++ dataCalls H' :=
  List.filterMap_append

/-- What is sent on an RTP socket is the datagram of the last call, and what is sent on an RTCP socket starts
with a sender report. -/
def SentByCall (H : List ((Sender × Step) ⊕ SenderEvent)) : (Sender × Step) ⊕ SenderEvent → Prop
  | .inl _ => True
  | .inr e => ∀ out, e.out? = some out → if out.rtcp then out.data[1]? = some rtcpTypeSr
    else (dataCalls H).Forall₂ DataCall.Builds (rtpSent (told H) ++ [out.data])

theorem exists_call {calls : List DataCall} {sent : List (List UInt8)} {bytes : List UInt8}
    (h : calls.Forall₂ DataCall.Builds (sent ++ [bytes])) : ∃ c ∈ calls, c.Builds bytes := by
  obtain ⟨i, hi, hget⟩ := List.getElem_of_mem (List.mem_append_right sent (List.mem_singleton_self bytes))
  obtain ⟨hlength, hall⟩ := List.forall₂_iff_get.mp h
  have hbuilds : DataCall.Builds (calls.get ⟨i, hlength ▸ hi⟩) (sent ++ [bytes])[i] := hall i _ hi
  rw [hget] at hbuilds
  exact ⟨_, List.get_mem _ _, hbuilds⟩

/-- What is sent is a report. -/
def SendsReport (e : SenderEvent) : Prop :=
  ∀ out, e.out? = some out → out.rtcp = true ∧ out.data[1]? = some rtcpTypeSr

theorem sendsReport_of_none {e : SenderEvent} (h : e.out? = none) : SendsReport e := by
  intro out hout
  rw [h] at hout
  cases hout

theorem rtpSent_of_none {L : List SenderEvent} {e : SenderEvent} (h : e.rtp? = none) :
    rtpSent (L ++ [e]) = rtpSent L := by
  rw [rtpSent_concat, h]
  exact List.append_nil _

/-- Everything but the sending of data sends reports only. -/
theorem keptBetweenSends_reports (S : List (List UInt8)) :
    KeptBetweenSends (fun _ => True) (fun _ => SendsReport) fun L _ => rtpSent L = S where
  session := by
    intro L s fuel io _ h
    have hbrings : io.Brings fun _ => True := fun _ _ _ _ => trivial
    have hcalls : ∀ (L : List SenderEvent) (d : SenderData) (packets : List RtpPacket) (w : World)
        (raw : RawPacket) c i, True → c.Of raw i → rtpSent L = S →
          SendsReport (senderHandlers.visit d c) ∧ rtpSent (L ++ [senderHandlers.visit d c]) = S :=
      fun L d packets w raw c i _ _ hL => ⟨sendsReport_of_none rfl, (rtpSent_of_none rfl).trans hL⟩
    have hsat : (Session.poll senderHandlers fuel io s).Sat (fun _ => SendsReport) L _ :=
      Session.poll_obj (I := fun L _ _ => rtpSent L = S) hcalls hbrings (fun _ _ _ _ => trivial) h
    exact hsat.mono (fun _ _ hg => hg) fun _ _ hr => hr.1
  tick := fun _ _ h => h
  sendsReport := by
    intro L s k sf pkt r hs h
    obtain ⟨d', ntp, -, hbytes⟩ := hs.bytes
    refine ⟨?_, (rtpSent_of_none rfl).trans h⟩
    intro out hout
    cases hout
    refine ⟨rfl, ?_⟩
    change pkt[1]? = _
    rw [hbytes]
    rfl
  measure := fun L s curtime h => ⟨sendsReport_of_none rfl, (rtpSent_of_none rfl).trans h⟩
  recalc := fun L s sfs _ h => ⟨sendsReport_of_none rfl, (rtpSent_of_none rfl).trans h⟩
  connect := fun _ _ _ _ h => h
  addSubflow := fun _ _ _ _ h => h
  addInterface := fun _ _ _ _ h => h
  suspendInterface := fun _ _ _ _ h => h
  fetchPacket := fun _ _ h => h

variable {isPathValid : Endpoint → Endpoint → Bool} {H : List ((Sender × Step) ⊕ SenderEvent)}

/-- A call of `send_data` sends its datagram, and no other. -/
theorem step_sendData_builds (s : Sender) (data : List UInt8) (ret : ℤ) (L : List SenderEvent) :
    (step isPathValid s (.sendData data ret)).Sat
      (fun L' e => ∀ out, e.out? = some out → out.rtcp = false ∧ DataCall.Builds ⟨s, data⟩ out.data ∧
        rtpSent L' = rtpSent L)
      L fun L' _ => ∃ bytes, DataCall.Builds ⟨s, data⟩ bytes ∧ rtpSent L' = rtpSent L ++ [bytes] := by
  refine Exec.sat_bind (Q := fun L' _ => ∃ bytes, DataCall.Builds ⟨s, data⟩ bytes ∧
    rtpSent L' = rtpSent L ++ [bytes]) ?_ fun L' _ h => Exec.sat_pure h
  refine Exec.sat_bind (Q := fun L' _ => ∃ bytes, DataCall.Builds ⟨s, data⟩ bytes ∧
    rtpSent L' = rtpSent L ++ [bytes]) ?_ fun L' _ h => Exec.sat_pure h
  apply sendData_sat
  intro k sf timestamp r hs
  have hbuilds : DataCall.Builds ⟨s, data⟩ (s.obj.rtpDatagram sf timestamp data) := by
    have hsent : .sent k (Interface.sendto sf.iface (s.obj.rtpDatagram sf timestamp data) sf.remote false) ∈
        (s.obj.sendData s.world data ret).log := by
      rw [hs.result]
      exact List.mem_singleton_self _
    obtain ⟨sf', hsf', hout⟩ := s.obj.sendData_sent s.world data ret hsent
    exact ⟨sf', List.mem_of_getElem? hsf', hout⟩
  constructor
  · intro out hout
    cases hout
    exact ⟨rfl, hbuilds, rfl⟩
  · refine ⟨_, hbuilds, ?_⟩
    rw [rtpSent_concat]
    rfl

/-- One step: every datagram comes from a call, and every call has sent its datagram. -/
theorem noting_builds {s : Sender} (h : (dataCalls H).Forall₂ DataCall.Builds (rtpSent (told H))) (e : Step) :
    (noting (step isPathValid) s e).Sat SentByCall H
      fun H' _ => (dataCalls H').Forall₂ DataCall.Builds (rtpSent (told H')) := by
  by_cases hdata : ∃ data ret, e = .sendData data ret
  · obtain ⟨data, ret, rfl⟩ := hdata
    refine Exec.sat_noting trivial (step_sendData_builds s data ret (told H)) ?_ ?_
    · intro L a ha out hout
      obtain ⟨hrtcp, hbuilds, hL⟩ := ha out hout
      rw [hrtcp, dataCalls_noted, told_noted, hL]
      exact List.rel_append h (.cons hbuilds .nil)
    · intro L s' hs'
      obtain ⟨bytes, hbuilds, hL⟩ := hs'
      rw [told_noted, hL, dataCalls_noted]
      exact List.rel_append h (.cons hbuilds .nil)
  · have hmeets : e.Meets fun _ => True := by cases e <;> trivial
    have hsat := (keptBetweenSends_reports (rtpSent (told H))).step (H := told H) (s := s) isPathValid rfl hmeets
      fun data ret he => hdata ⟨data, ret, he⟩
    refine Exec.sat_noting trivial hsat ?_ ?_
    · intro L a ha out hout
      obtain ⟨hrtcp, hsr⟩ := ha out hout
      rw [hrtcp]
      exact hsr
    · intro L s' hs'
      have hnone : dataCalls (H ++ [.inl (s, e)] ++ L.map .inr) = dataCalls H := by
        rw [dataCalls_noted]
        cases e with
        | sendData data ret => exact absurd ⟨data, ret, rfl⟩ hdata
        | _ => exact List.append_nil _
      rw [told_noted, hs', hnone]
      exact h

/-- In every run the RTP datagrams that are handed to sockets are those of the calls of `send_data`, one
for each call and in their order. -/
theorem run_builds {timestampUnit : ℚ} {w : World} {r : Option Sender}
    (hrun : Run (noting (step isPathValid)) (fun _ _ _ => True) (new timestampUnit w) H r) :
    (∀ pre e post, H = pre ++ e :: post → SentByCall pre e) ∧
      ∀ s, r = some s → (dataCalls H).Forall₂ DataCall.Builds (rtpSent (told H)) :=
  Run.sat (I := fun H _ => (dataCalls H).Forall₂ DataCall.Builds (rtpSent (told H))) .nil
    (fun _ _ e h _ => noting_builds h e) hrun

theorem exists_out_of_rtp? {e : SenderEvent} {bytes : List UInt8} (h : e.rtp? = some bytes) :
    ∃ out, e.out? = some out ∧ out.rtcp = false ∧ out.data = bytes := by
  cases e with
  | sent k out =>
    change (if out.rtcp then none else some out.data) = some bytes at h
    split at h
    · cases h
    · rename_i hrtp
      exact ⟨out, rfl, Bool.eq_false_iff.mpr hrtp, Option.some.inj h⟩
  | _ => cases h

/-- At any time the RTP datagrams sent are those of the first calls. -/
theorem sent_of_calls {L : List ((Sender × Step) ⊕ SenderEvent)}
    (h : ∀ pre e post, L = pre ++ e :: post → SentByCall pre e) :
    ∃ calls, calls <+: dataCalls L ∧ calls.Forall₂ DataCall.Builds (rtpSent (told L)) := by
  induction L using List.reverseRecOn with
  | nil => exact ⟨[], List.prefix_rfl, .nil⟩
  | append_singleton L a ih =>
    have hbefore : ∀ pre e post, L = pre ++ e :: post → SentByCall pre e := by
      intro pre e post hsplit
      apply h pre e (post ++ [a])
      rw [hsplit, List.append_assoc, List.cons_append]
    obtain ⟨calls, hcalls, hsent⟩ := ih hbefore
    rw [dataCalls_append, told_append]
    have hrest : calls <+: dataCalls L ++ dataCalls [a] := hcalls.trans (List.prefix_append _ _)
    cases a with
    | inl p => exact ⟨calls, hrest, (List.append_nil (told L)).symm ▸ hsent⟩
    | inr e =>
      have htold : told [(.inr e : (Sender × Step) ⊕ SenderEvent)] = [e] := rfl
      rw [htold, rtpSent_concat]
      cases hrtp : e.rtp? with
      | none => exact ⟨calls, hrest, (List.append_nil (rtpSent (told L))).symm ▸ hsent⟩
      | some bytes =>
        obtain ⟨out, hout, hrtcp, rfl⟩ := exists_out_of_rtp? hrtp
        have hlast := h L (.inr e) [] rfl out hout
        rw [hrtcp] at hlast
        exact ⟨dataCalls L, List.prefix_append _ _, hlast⟩

end Sender

end Mprtp
