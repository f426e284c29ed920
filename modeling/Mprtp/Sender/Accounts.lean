import Mprtp.Sender.Paths
import Mprtp.Sender.Payloads
import Mprtp.Sender.Totals

/-! What the sender reports tell against the calls of `send_data`: each counts the packets that have been
handed over before it, on the subflow that they were sent on. -/
namespace Mprtp

namespace Sender

namespace DataCall

/-- The index of the subflow that the call chooses. -/
def path? (c : DataCall) : Option ℕ := (c.sender.obj.selectSubflow c.sender.world).1

end DataCall

/-- The calls of `send_data` for which the socket has taken the datagram, in order. -/
def acceptedCalls (H : List ((Sender × Step) ⊕ SenderEvent)) : List DataCall :=
  H.filterMap fun
    | .inl (s, .sendData data ret) => if ret = (24 + data.length : ℕ) then some ⟨s, data⟩ else none
    | _ => none

/-- The calls that choose the subflow at `k`. -/
def callsOn (k : ℕ) (calls : List DataCall) : List DataCall := calls.filter fun c => c.path? = some k

/-- The bytes of the payloads. -/
def octetsOf (calls : List DataCall) : ℕ := (calls.map fun c => c.payload.length).sum

theorem acceptedCalls_noted (H : List ((Sender × Step) ⊕ SenderEvent)) (s : Sender) (e : Step)
    (L : List SenderEvent) : acceptedCalls (H ++ [.inl (s, e)] ++ L.map .inr) =
      acceptedCalls H ++ (match e with
        | .sendData data ret => if ret = (24 + data.length : ℕ) then [⟨s, data⟩] else []
        | _ => []) := by
  unfold acceptedCalls
  rw [filterMap_noted fun _ => rfl]
  cases e with
  | sendData data ret =>
    dsimp only
    split <;> rfl
  | _ => rfl

theorem callsOn_append (k : ℕ) (calls calls' : List DataCall) :
    callsOn k (calls ++ calls') = callsOn k calls ++ callsOn k calls' := List.filter_append ..

theorem octetsOf_append (calls calls' : List DataCall) :
    octetsOf (calls ++ calls') = octetsOf calls + octetsOf calls' := by
  unfold octetsOf
  rw [List.map_append, List.sum_append]

end Sender

namespace SenderData

open Sender

variable {d d' : SenderData} {calls : List DataCall}

/-- The counters of the stream count the calls, and those of the subflow at `k` the ones that chose it,
modulo 2^32. -/
structure Counts (d : SenderData) (calls : List DataCall) : Prop where
  packets : d.packetCount.toNat = calls.length % 2 ^ 32
  octets : d.octetCount.toNat = octetsOf calls % 2 ^ 32
  present : ∀ c ∈ calls, ∀ k, c.path? = some k → k < d.subflows.length
  subflow : ∀ (k : ℕ) (sf : Subflow), d.subflows[k]? = some sf →
    sf.packetCount.toNat = (callsOn k calls).length % 2 ^ 32 ∧
      sf.octetCount.toNat = octetsOf (callsOn k calls) % 2 ^ 32

theorem Counts.congr (h : d.Counts calls) (hs : d.SameCounts d') : d'.Counts calls := by
  have hlen : d'.subflows.length = d.subflows.length := by
    have hmap := congrArg List.length hs.packets
    rwa [List.length_map, List.length_map] at hmap
  constructor
  · rw [hs.packetCount]
    exact h.packets
  · rw [hs.octetCount]
    exact h.octets
  · rw [hlen]
    exact h.present
  · intro k sf' hk
    have hlt : k < d.subflows.length := hlen ▸ (List.getElem?_eq_some_iff.mp hk).1
    have hsf := List.getElem?_eq_getElem hlt
    have hcount : ∀ f : Subflow → UInt32, d'.subflows.map f = d.subflows.map f →
        f sf' = f (d.subflows[k]) := by
      intro f hf
      have hget := congrArg (fun l => l[k]?) hf
      rw [List.getElem?_map, List.getElem?_map, hk, hsf] at hget
      exact Option.some.inj hget
    rw [hcount _ hs.packets, hcount _ hs.octets]
    exact h.subflow k _ hsf

theorem addSubflow_counts (h : d.Counts calls) (iface : ℕ) (remote : Endpoint) (w : World) :
    (d.addSubflow iface remote w).Counts calls := by
  have hlen : (d.addSubflow iface remote w).subflows.length = d.subflows.length + 1 := by
    unfold addSubflow
    rw [List.length_append, List.length_singleton]
  refine ⟨h.packets, h.octets, ?_, ?_⟩
  · intro c hc k hk
    rw [hlen]
    exact Nat.lt_succ_of_lt (h.present c hc k hk)
  · intro k sf hk
    rcases Nat.lt_succ_iff_lt_or_eq.mp (hlen ▸ (List.getElem?_eq_some_iff.mp hk).1) with hlt | rfl
    · refine h.subflow k sf ?_
      rw [← hk]
      exact (List.getElem?_append_left hlt).symm
    · -- no call has chosen the new one
      have hnone : callsOn d.subflows.length calls = [] := by
        refine List.filter_eq_nil_iff.mpr ?_
        intro c hc hpath
        exact lt_irrefl _ (h.present c hc _ (of_decide_eq_true hpath))
      have hnew : sf = (Subflow.new d.nextSubflowId iface remote w).1 := by
        refine Option.some.inj (hk.symm.trans ?_)
        exact List.getElem?_concat_length
      rw [hnone, hnew]
      exact ⟨rfl, rfl⟩

/-- A packet is counted for the stream and for the subflow that was chosen. -/
theorem Counts.sent (h : d.Counts calls) {c : DataCall} {k : ℕ} {sf sf' : Subflow}
    (hc : c.path? = some k) (hk : d.subflows[k]? = some sf) (hsubflows : d'.subflows = d.subflows.set k sf')
    (hp : sf'.packetCount = sf.packetCount + 1)
    (ho : sf'.octetCount = sf.octetCount + UInt32.ofNat c.payload.length)
    (hdp : d'.packetCount = d.packetCount + 1)
    (hdo : d'.octetCount = d.octetCount + UInt32.ofNat c.payload.length) : d'.Counts (calls ++ [c]) := by
  have hlt := (List.getElem?_eq_some_iff.mp hk).1
  have hone : octetsOf [c] = c.payload.length := List.sum_singleton
  refine ⟨?_, ?_, ?_, ?_⟩
  · rw [hdp, UInt32.toNat_add, h.packets, UInt32.toNat_one, List.length_append, List.length_singleton]
    omega
  · rw [hdo, UInt32.toNat_add, h.octets, UInt32.toNat_ofNat', octetsOf_append, hone]
    omega
  · intro c' hc' j hj
    rw [hsubflows, List.length_set]
    rcases List.mem_append.mp hc' with hc' | hc'
    · exact h.present c' hc' j hj
    · rw [List.mem_singleton.mp hc', hc] at hj
      cases hj
      exact hlt
  · intro j sf₁ hj
    rw [hsubflows] at hj
    rw [callsOn_append]
    by_cases hjk : k = j
    · subst hjk
      rw [List.getElem?_set_self hlt] at hj
      cases hj
      have hon : callsOn k [c] = [c] := List.filter_cons_of_pos (decide_eq_true hc)
      obtain ⟨hpackets, hoctets⟩ := h.subflow k sf hk
      rw [hon, hp, ho, UInt32.toNat_add, UInt32.toNat_add, hpackets, hoctets, UInt32.toNat_one,
        UInt32.toNat_ofNat', List.length_append, List.length_singleton, octetsOf_append, hone]
      constructor <;> omega
    · rw [List.getElem?_set_ne hjk] at hj
      have hother : callsOn j [c] = [] := by
        refine List.filter_cons_of_neg ?_
        rw [hc]
        simpa using hjk
      rw [hother, List.append_nil]
      exact h.subflow j sf₁ hj

/-- `send_data` counts the call when the socket takes the datagram. -/
theorem Counts.sendData (h : d.Counts calls) {s : Sender} (hd : s.obj = d) {data : List UInt8} {ret : ℤ}
    {r : Bool × SenderData × World} (hres : (d.sendData s.world data ret).res = some r) :
    r.2.1.Counts (calls ++ if ret = (24 + data.length : ℕ) then [⟨s, data⟩] else []) := by
  rcases d.sendData_eq s.world data ret with hstuck | ⟨k, sf, hchosen, hk, heq⟩
  · rw [hstuck] at hres
    cases hres
  · obtain ⟨-, hpackets, hoctets, hsubflows⟩ :=
      { d with sequesnceNumber := d.sequesnceNumber + 1 }.getNextTimestamp_keeps (d.selectSubflow s.world).2
    change (d.numbered s.world).1.packetCount = d.packetCount at hpackets
    change (d.numbered s.world).1.octetCount = d.octetCount at hoctets
    change (d.numbered s.world).1.subflows = d.subflows at hsubflows
    have hlen : (d.rtpDatagram sf (d.numbered s.world).1.timestamp data).length = 24 + data.length :=
      rtpBytes_length ..
    have hcounts := sendto_counts sf (d.rtpDatagram sf (d.numbered s.world).1.timestamp data)
      (UInt32.ofNat data.length) ret
    dsimp only at heq hcounts
    rw [hlen] at heq hcounts
    generalize d.rtpDatagram sf (d.numbered s.world).1.timestamp data = pkt at heq hcounts
    generalize d.numbered s.world = r at heq hpackets hoctets hsubflows
    obtain ⟨d₂, w₂⟩ := r
    dsimp only at heq hpackets hoctets hsubflows
    rw [heq] at hres
    have hpath : (⟨s, data⟩ : DataCall).path? = some k := by
      unfold DataCall.path?
      rw [hd]
      exact hchosen
    by_cases hret : ret = (24 + data.length : ℕ)
    · rw [if_pos hret] at hres hcounts ⊢
      obtain ⟨hsf, hsp, hso⟩ :=
        (d₂.put k (sf.sendto pkt (UInt32.ofNat data.length) false ret).2).countSent_counts
          data.length (24 + data.length) w₂
      cases hres
      refine h.sent hpath hk ?_ hcounts.1 hcounts.2 ?_ ?_
      · rw [hsf, ← hsubflows]
      · rw [hsp, ← hpackets]
      · rw [hso, ← hoctets]
    · rw [if_neg hret] at hres hcounts ⊢
      cases hres
      have hset := SameCounts.set hk hcounts.1 hcounts.2 d.recalcDistribution
      rw [List.append_nil]
      exact h.congr ⟨hpackets, hoctets, by rw [← hset.packets, ← hsubflows],
        by rw [← hset.octets, ← hsubflows]⟩

end SenderData

namespace Sender

/-- The sender counts the calls, and the ids of its subflows. -/
structure Accounts (d : SenderData) (calls : List DataCall) : Prop where
  counts : d.Counts calls
  ids : d.CountedIds

theorem Accounts.change {d d' : SenderData} {calls : List DataCall} (h : Accounts d calls)
    (hs : d.SameCounts d') (hn : d.SameNumbers d') : Accounts d' calls := ⟨h.counts.congr hs, h.ids.change hn⟩

/-- A sender report of a sender that counts the calls. -/
def ReportsAccounts (calls : List DataCall) (out : OutDatagram) : Prop :=
  ∃ (d : SenderData) (ntp : RtpNtpTime), Accounts d calls ∧ out.data = d.reportBytes ntp ∧
    (d.reportBytes ntp).length ≤ maxPacketSize

/-- All but the sending of data keeps the counts. -/
theorem keptBetweenSends_accounts (calls : List DataCall) :
    KeptBetweenSends (fun _ => True)
      (fun _ e => ∀ out, e.out? = some out → out.rtcp = true → ReportsAccounts calls out)
      fun _ s => Accounts s.obj calls where
  session := by
    intro H s fuel io _ h
    have hbrings : io.Brings fun _ => True := fun _ _ _ _ => trivial
    have hcalls : ∀ (L : List SenderEvent) (d : SenderData) (packets : List RtpPacket) (w : World)
        (raw : RawPacket) c i, True → c.Of raw i → Accounts d calls →
          (∀ out, (senderHandlers.visit d c).out? = some out → out.rtcp = true →
              ReportsAccounts calls out) ∧ Accounts (senderHandlers.next d packets w c).1 calls := by
      intro L d packets w raw c i _ _ hd
      refine ⟨fun out hout => (by cases hout), ?_⟩
      cases c with
      | rtp pkt j => exact hd
      | rtcp call j =>
        cases call with
        | sr pkt id => exact hd
        | rr pkt id ssrc => exact hd.change (d.onRtcpRrPacket_counts w pkt id) (.onRtcpRrPacket d w pkt id)
    have hsat : (Session.poll senderHandlers fuel io s).Sat
        (fun _ e => ∀ out, e.out? = some out → out.rtcp = true → ReportsAccounts calls out) H _ :=
      Session.poll_obj (I := fun _ d _ => Accounts d calls) hcalls hbrings (fun _ _ _ _ => trivial) h
    exact hsat.mono (fun _ _ hg => hg) fun _ _ hr => hr.1
  tick := fun _ _ h => h
  sendsReport := by
    intro H s k sf pkt r hs h
    have hlog : .sent k (Interface.sendto sf.iface pkt sf.remote true) ∈
        (s.obj.sendSenderReport s.world).log := by
      rw [hs.result]
      exact List.mem_singleton_self _
    have hsent := s.obj.sendSenderReport_sent s.world hlog
    obtain ⟨-, hpackets, hoctets, hsubflows⟩ := s.obj.getNextTimestamp_keeps s.world
    have hunmoved := (s.obj.getNextTimestamp_unmoved s.world).1
    have hres : (s.obj.sendSenderReport s.world).res = some r := by rw [hs.result]
    constructor
    · intro out hout _
      cases hout
      exact ⟨_, _, h.change (.of_subflows hpackets hoctets hsubflows)
        (.of_eq hunmoved.subflows hunmoved.nextId), hsent⟩
    · exact h.change (SenderData.sendSenderReport_counts hres) (.of_eq hs.unmoved.subflows hs.unmoved.nextId)
  measure := by
    intro H s curtime h
    obtain ⟨hsubflows, hnext⟩ := s.obj.measureStreamBitrate_numbers curtime
    exact ⟨fun out hout => (by cases hout),
      h.change (s.obj.measureStreamBitrate_counts curtime) (.of_eq hsubflows hnext)⟩
  recalc := fun H s sfs hsfs h => ⟨fun out hout => (by cases hout),
    h.change (SenderData.reweighted_counts hsfs) (.reweighted hsfs false)⟩
  connect := fun H s ssrc destAddr h => h.change (.of_subflows rfl rfl rfl) (.of_eq rfl rfl)
  addSubflow := fun H s iface remote h =>
    ⟨SenderData.addSubflow_counts h.counts iface remote s.world, h.ids.addSubflow iface remote s.world⟩
  addInterface := by
    intro H s addr opened h
    unfold Session.addInterface
    split <;> exact h
  suspendInterface := fun H s addr suspend h => h
  fetchPacket := by
    intro H s h
    unfold Session.fetchPacket
    split <;> exact h

variable {isPathValid : Endpoint → Endpoint → Bool} {H : List ((Sender × Step) ⊕ SenderEvent)}

/-- What is sent on an RTCP socket counts the calls before it. -/
def SentAccounts (H : List ((Sender × Step) ⊕ SenderEvent)) : (Sender × Step) ⊕ SenderEvent → Prop
  | .inl _ => True
  | .inr e => ∀ out, e.out? = some out → out.rtcp = true → ReportsAccounts (acceptedCalls H) out

theorem step_sendData_accounts {s : Sender} {calls : List DataCall} (h : Accounts s.obj calls)
    (data : List UInt8) (ret : ℤ) (L : List SenderEvent) :
    (step isPathValid s (.sendData data ret)).Sat (fun _ e => ∀ out, e.out? = some out → out.rtcp = false) L
      fun _ s' => Accounts s'.obj (calls ++ if ret = (24 + data.length : ℕ) then [⟨s, data⟩] else []) := by
  refine Exec.sat_bind (Q := fun _ p => Accounts p.2.obj
    (calls ++ if ret = (24 + data.length : ℕ) then [⟨s, data⟩] else [])) ?_ fun _ _ h => Exec.sat_pure h
  refine Exec.sat_bind (Q := fun _ r => Accounts r.2.1
    (calls ++ if ret = (24 + data.length : ℕ) then [⟨s, data⟩] else [])) ?_ fun _ _ h => Exec.sat_pure h
  apply sendData_sat
  intro k sf timestamp r hs
  constructor
  · intro out hout
    cases hout
    rfl
  · have hr : (s.obj.sendData s.world data ret).res = some r := by rw [hs.result]
    obtain ⟨hid, -, -⟩ :=
      sf.sendto_numbers (s.obj.rtpDatagram sf timestamp data) (UInt32.ofNat data.length) ret
    exact ⟨h.counts.sendData rfl hr,
      (h.ids.put hs.subflow hid).change (.of_eq hs.unmoved.subflows hs.unmoved.nextId)⟩

theorem noting_accounts {s : Sender} (h : Accounts s.obj (acceptedCalls H)) (e : Step) :
    (noting (step isPathValid) s e).Sat SentAccounts H fun H' s' => Accounts s'.obj (acceptedCalls H') := by
  by_cases hdata : ∃ data ret, e = .sendData data ret
  · obtain ⟨data, ret, rfl⟩ := hdata
    refine Exec.sat_noting trivial (step_sendData_accounts h data ret (told H)) ?_ ?_
    · intro L a ha out hout hrtcp
      rw [ha out hout] at hrtcp
      cases hrtcp
    · intro L s' hs'
      rw [acceptedCalls_noted]
      exact hs'
  · have hmeets : e.Meets fun _ => True := by cases e <;> trivial
    have hsat := (keptBetweenSends_accounts (acceptedCalls H)).step (H := told H) isPathValid h hmeets
      fun data ret he => hdata ⟨data, ret, he⟩
    have hsame : ∀ L : List SenderEvent,
        acceptedCalls (H ++ [.inl (s, e)] ++ L.map .inr) = acceptedCalls H := by
      intro L
      rw [acceptedCalls_noted]
      cases e with
      | sendData data ret => exact absurd ⟨data, ret, rfl⟩ hdata
      | _ => exact List.append_nil _
    refine Exec.sat_noting trivial hsat ?_ ?_
    · intro L a ha out hout hrtcp
      rw [hsame]
      exact ha out hout hrtcp
    · intro L s' hs'
      rw [hsame]
      exact hs'

/-- In every run each sender report counts the calls of `send_data` before it. -/
theorem run_accounts {timestampUnit : ℚ} {w : World} {r : Option Sender}
    (hrun : Run (noting (step isPathValid)) (fun _ _ _ => True) (new timestampUnit w) H r) :
    ∀ pre e post, H = pre ++ e :: post → SentAccounts pre e := by
  have h₀ : Accounts (new timestampUnit w).obj (acceptedCalls []) := by
    refine ⟨⟨rfl, rfl, ?_, ?_⟩, ?_, rfl⟩
    · intro c hc
      cases hc
    · intro k sf hk
      cases hk
    · intro k sf hk
      cases hk
  exact (Run.sat (I := fun H s => Accounts s.obj (acceptedCalls H)) h₀
    (fun _ _ e h _ => noting_accounts h e) hrun).1

/-- What is sent on an RTCP socket has room for `n` subflows. -/
def ReportsOn (n : ℕ) (e : SenderEvent) : Prop :=
  ∀ out, e.out? = some out → out.rtcp = true → out.data.length = 40 + 32 * n

theorem keptByUse_length (n : ℕ) : KeptByUse (fun _ => ReportsOn n) fun _ d => d.subflows.length = n where
  rr := fun H d w pkt id ssrc i hd =>
    ⟨fun out hout => (by cases hout), (SenderData.SameNumbers.onRtcpRrPacket d w pkt id).length.trans hd⟩
  visit := fun H d c _ hd => ⟨fun out hout => (by cases hout), hd⟩
  sends := by
    intro H d w data ret k sf timestamp r hs hd
    refine ⟨?_, ?_⟩
    · intro out hout hrtcp
      cases hout
      cases hrtcp
    · rw [hs.unmoved.subflows, List.length_set, hd]
  sendsReport := by
    intro H d w k sf pkt r hs hd
    refine ⟨?_, ?_⟩
    · intro out hout _
      cases hout
      obtain ⟨d', ntp, hunmoved, hbytes⟩ := hs.bytes
      have hlength : (d'.reportBytes ntp).length = 40 + 32 * n := by
        rw [d'.reportBytes_length, hunmoved.subflows, hd]
      exact (congrArg List.length hbytes).trans hlength
    · rw [hs.unmoved.subflows, hd]
  measure := by
    intro H d curtime hd
    refine ⟨fun out hout => (by cases hout), ?_⟩
    rw [(d.measureStreamBitrate_numbers curtime).1, hd]
  redistribute := by
    intro H d hd
    unfold SenderData.redistribute
    apply Exec.sat_ite
    · exact fun _ => Exec.sat_pure hd
    · intro _
      refine Exec.sat_bind (Q := fun _ _ => True)
        (Exec.sat_tell (fun out hout => (by cases hout)) trivial) ?_
      exact fun _ _ _ => Exec.sat_pure (d.redistributed_reweighted.length_eq.symm.trans hd)

/-- A sender report has room for the subflows that there are at the call that sends it. -/
theorem step_reportsOn (s : Sender) (e : Step) (L : List SenderEvent) :
    (step isPathValid s e).Sat (fun _ => ReportsOn s.obj.subflows.length) L fun _ _ => True := by
  by_cases he : e.Unconnected
  · exact ((keptByUse_length _).step isPathValid rfl he).mono (fun _ _ hg => hg) fun _ _ _ => trivial
  · cases e with
    | connect ssrc destination => exact Exec.sat_pure trivial
    | _ => exact absurd trivial he

theorem run_reportsOn {timestampUnit : ℚ} {w : World} {r : Option Sender}
    (hrun : Run (noting (step isPathValid)) (fun _ _ _ => True) (new timestampUnit w) H r)
    {pre post : List ((Sender × Step) ⊕ SenderEvent)} {e : SenderEvent} (hH : H = pre ++ .inr e :: post) :
    ∃ s e', lastCall? pre = some (s, e') ∧ ReportsOn s.obj.subflows.length e := by
  let good : List ((Sender × Step) ⊕ SenderEvent) → (Sender × Step) ⊕ SenderEvent → Prop :=
    fun H a => ∀ e, a = .inr e → ∃ s e', lastCall? H = some (s, e') ∧ ReportsOn s.obj.subflows.length e
  have hstep : ∀ H s e, True → True → (noting (step isPathValid) s e).Sat good H fun _ _ => True := by
    intro H s e _ _
    refine Exec.sat_noting ?_ (step_reportsOn s e (told H)) ?_ fun _ _ _ => trivial
    · intro e' heq
      cases heq
    · intro L a ha e' heq
      cases heq
      exact ⟨s, e, lastCall?_noted H s e L, ha⟩
  exact (Run.sat (I := fun _ _ => True) trivial hstep hrun).1 pre _ post hH e rfl

end Sender

end Mprtp
