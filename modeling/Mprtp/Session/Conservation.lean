import Mprtp.Lib.Merge
import Mprtp.Packet.Fields
import Mprtp.Session.Order

/-! The RTP datagrams that arrive at a session, and the packets that `fetch_packet` returns. -/
namespace Mprtp

/-- `parse_packet` accepts the datagram. -/
def accepted (raw : RawPacket) : Bool :=
  match RtpPacket.parse raw with
  | .ok _ => true
  | .error _ => false

/-- `on_rtp_packet` returns true and leaves the datagram of the packet as it is. -/
structure Handlers.KeepsPackets {σ ω : Type} (h : Handlers σ ω) : Prop where
  keep : ∀ obj w pkt i, (h.onRtpPacket obj w pkt i).1 = true
  rawpack : ∀ obj w pkt i, (h.onRtpPacket obj w pkt i).2.1.rawpack = pkt.rawpack

/-- What a call of the application does with the queues of a session. -/
inductive QueueCall where
  | poll (fuel : ℕ) (io : PollInput)
  | fetchPacket
  | other

namespace Session

variable {σ ω ε : Type} {h : Handlers σ ω} {s : Session σ}

/-- The RTP datagrams that a poll puts into the queue of the interface `i`. -/
def arrivals (s : Session σ) (io : PollInput) (i : ℕ) : List RawPacket :=
  (queued (pollInterfaces io 0 s.interfaces s.world).1 i).drop (queued s.interfaces i).length

theorem queued_append_arrivals (s : Session σ) (io : PollInput) (i : ℕ) :
    queued (pollInterfaces io 0 s.interfaces s.world).1 i = queued s.interfaces i ++ s.arrivals io i := by
  obtain ⟨new, hnew⟩ := queued_pollInterfaces io s.interfaces s.world i
  unfold arrivals
  rw [← hnew, List.drop_left]

/-- They are what came in on the RTP socket, or nothing when the poll has not reached it. -/
theorem arrivals_received (s : Session σ) (io : PollInput) (i : ℕ) :
    (s.arrivals io i).map RawPacket.data = [] ∨
      (s.arrivals io i).map RawPacket.data = (io i false).received := by
  have hqueue := pollInterfaces_rtpQueue io 0 s.interfaces s.world i
  rw [rtpQueue_eq_map, rtpQueue_eq_map, Function.comp_apply, Function.comp_apply, queued_append_arrivals,
    List.map_append, Nat.zero_add] at hqueue
  rcases hqueue with hsame | hnew
  · exact Or.inl (List.append_right_eq_self.mp hsame)
  · exact Or.inr (List.append_cancel_left hnew)

theorem length_pollInterfaces (io : PollInput) (i : ℕ) (fs : List Interface) (w : World) :
    (pollInterfaces io i fs w).1.length = fs.length := by
  induction fs generalizing i w with
  | nil => rfl
  | cons f fs ih =>
    unfold pollInterfaces
    dsimp only
    split
    · rfl
    · split
      · rfl
      · exact congrArg Nat.succ (ih _ _)

theorem arrivals_eq_nil (s : Session σ) (io : PollInput) {i : ℕ} (hi : s.interfaces.length ≤ i) :
    s.arrivals io i = [] := by
  have hnone : (pollInterfaces io 0 s.interfaces s.world).1[i]? = none := by
    rw [List.getElem?_eq_none_iff, length_pollInterfaces]
    exact hi
  unfold arrivals queued
  rw [hnone]
  exact List.drop_nil

/-- They are RTP datagrams that fit into a packet. -/
theorem mem_arrivals {s : Session σ} {io : PollInput} {i : ℕ} {raw : RawPacket} (h : raw ∈ s.arrivals io i) :
    raw.isrtcp = false ∧ raw.data.length ≤ maxPacketSize := by
  constructor
  · have hqueued : raw ∈ queued (pollInterfaces io 0 s.interfaces s.world).1 i := List.mem_of_mem_drop h
    unfold queued at hqueued
    cases hf : (pollInterfaces io 0 s.interfaces s.world).1[i]? with
    | none =>
      rw [hf] at hqueued
      cases hqueued
    | some f =>
      rw [hf] at hqueued
      simpa using (List.mem_filter.mp hqueued).2
  · have hdata : raw.data ∈ (s.arrivals io i).map RawPacket.data := List.mem_map_of_mem h
    rcases s.arrivals_received io i with hnone | hreceived
    · rw [hnone] at hdata
      cases hdata
    · rw [hreceived] at hdata
      exact PollOutcome.received_short hdata

theorem fetchPacket_packets (s : Session σ) :
    s.fetchPacket.1.toList ++ s.fetchPacket.2.packets = s.packets := by
  unfold fetchPacket
  cases h : s.packets with
  | nil => exact h
  | cons p ps => rfl

theorem fetchPacket_interfaces (s : Session σ) : s.fetchPacket.2.interfaces = s.interfaces := by
  unfold fetchPacket
  split
  · rfl
  · rfl

section Calls

variable (call : ε → QueueCall)

/-- The RTP datagrams that have arrived on the interface `i`. -/
def arrived (H : List ((Session σ × ε) ⊕ ω)) (i : ℕ) : List RawPacket :=
  H.flatMap fun
    | .inl (s, e) =>
      match call e with
      | .poll _ io => s.arrivals io i
      | _ => []
    | .inr _ => []

/-- The packets that `fetch_packet` has returned. -/
def returned (H : List ((Session σ × ε) ⊕ ω)) : List RtpPacket :=
  H.filterMap fun
    | .inl (s, e) =>
      match call e with
      | .fetchPacket => s.fetchPacket.1
      | _ => none
    | .inr _ => none

/-- The datagrams of the packets that have been returned, and of those behind them in the queue of
packets, are the accepted ones among those taken from the queues of the interfaces: each once, and
those of one interface in the order of their arrival. -/
def Conserved (H : List ((Session σ × ε) ⊕ ω)) (s : Session σ) : Prop :=
  ∃ ids taken, Merged accepted (arrived call H) (queued s.interfaces)
    ((returned call H ++ s.packets).map RtpPacket.rawpack) ids taken ∧ ids.Nodup ∧
    ∀ pkt ∈ returned call H, accepted pkt.rawpack = true

variable {call} {H : List ((Session σ × ε) ⊕ ω)} {e : ε}

theorem Conserved.of_merged {A : ℕ → List RawPacket} {out : List RtpPacket} {ids : List (ℕ × ℕ)}
    {taken : ℕ → ℕ} (hm : Merged accepted A (queued s.interfaces) (out.map RtpPacket.rawpack) ids taken)
    (ha : arrived call H = A) (hout : returned call H ++ s.packets = out) : Conserved call H s := by
  subst ha hout
  refine ⟨ids, taken, hm, hm.nodup, ?_⟩
  intro pkt hpkt
  exact hm.accept_of_mem (List.mem_map_of_mem (List.mem_append_left _ hpkt))

theorem arrived_noted (L : List ω) :
    arrived call (H ++ [.inl (s, e)] ++ L.map .inr) = fun i => arrived call H i ++
      match call e with
      | .poll _ io => s.arrivals io i
      | _ => [] := by
  funext i
  exact flatMap_noted (fun _ => rfl) H s e L

theorem arrived_noted_of_ne (he : ∀ fuel io, call e ≠ .poll fuel io) (L : List ω) :
    arrived call (H ++ [.inl (s, e)] ++ L.map .inr) = arrived call H := by
  rw [arrived_noted]
  funext i
  split
  · rename_i fuel io hpoll
    exact absurd hpoll (he fuel io)
  · exact List.append_nil _

theorem mem_arrived {i : ℕ} {raw : RawPacket} (h : raw ∈ arrived call H i) :
    raw.isrtcp = false ∧ raw.data.length ≤ maxPacketSize := by
  unfold arrived at h
  obtain ⟨e, -, he⟩ := List.mem_flatMap.mp h
  split at he
  · split at he
    · exact mem_arrivals he
    · cases he
  · cases he

theorem returned_noted (L : List ω) :
    returned call (H ++ [.inl (s, e)] ++ L.map .inr) = returned call H ++
      match call e with
      | .fetchPacket => s.fetchPacket.1.toList
      | _ => [] := by
  unfold returned
  rw [filterMap_noted fun _ => rfl]
  dsimp only
  cases call e <;> rfl

theorem returned_noted_of_ne (he : call e ≠ .fetchPacket) (L : List ω) :
    returned call (H ++ [.inl (s, e)] ++ L.map .inr) = returned call H := by
  rw [returned_noted]
  split
  · rename_i hfetch
    exact absurd hfetch he
  · exact List.append_nil _

end Calls

/-- A poll conserves the RTP datagrams. -/
theorem keptByQueues_merged (hk : h.KeepsPackets) (A : ℕ → List RawPacket) (out : List RtpPacket) :
    KeptByQueues h (fun _ _ => True) fun q _ _ packets => ∃ ids taken,
      Merged accepted A q ((out ++ packets).map RtpPacket.rawpack) ids taken where
  rtp := by
    intro q H d packets w i raw pkt rest hq hrtp hparse hJ
    obtain ⟨ids, taken, hm⟩ := hJ
    have hacc : accepted raw = true := by
      unfold accepted
      rw [hparse]
    have hkeep := hk.keep d w pkt i
    have hraw := (hk.rawpack d w pkt i).trans (RtpPacket.parse_fields hparse).rawpack
    refine ⟨trivial, ids ++ [(i, taken i)], Function.update taken i (taken i + 1), ?_⟩
    unfold Handlers.next
    dsimp only
    rw [hkeep, if_pos rfl, ← List.append_assoc, List.map_append, List.map_singleton, hraw]
    exact hm.accepted hq hacc
  refused := by
    intro q H d packets i raw rest e hq hrtp hparse hJ
    obtain ⟨ids, taken, hm⟩ := hJ
    have hacc : accepted raw = false := by
      unfold accepted
      rw [hparse]
    exact ⟨_, _, hm.refused hq hacc⟩
  rtcp := by
    intro q H d packets w i call hJ
    cases call with
    | sr pkt id => exact ⟨trivial, hJ⟩
    | rr pkt id ssrc => exact ⟨trivial, hJ⟩

/-- The steps of a class derived from `session` do with the queues what the calls of the session do. -/
structure Drives (h : Handlers σ ω) (step : Session σ → ε → Exec ω (Session σ)) (call : ε → QueueCall) :
    Prop where
  poll : ∀ s e fuel io, call e = .poll fuel io → ∃ k, step s e = Session.poll h fuel io s >>= k ∧
    ∀ p L, (k p).Sat (fun _ _ => True) L
      fun _ s' => s'.interfaces = p.1.interfaces ∧ s'.packets = p.1.packets
  fetch : ∀ s e L, call e = .fetchPacket →
    (step s e).Sat (fun _ _ => True) L fun _ s' => s' = s.fetchPacket.2
  other : ∀ s e L, call e = .other → (step s e).Sat (fun _ _ => True) L
    fun _ s' => queued s'.interfaces = queued s.interfaces ∧ s'.packets = s.packets

namespace Drives

variable {step : Session σ → ε → Exec ω (Session σ)} {call : ε → QueueCall}
  {H : List ((Session σ × ε) ⊕ ω)}

/-- A step conserves the RTP datagrams. -/
theorem noting_conserved (hd : Drives h step call) (hk : h.KeepsPackets) {e : ε}
    (hs : Conserved call H s) : (noting step s e).Sat (fun _ _ => True) H (Conserved call) := by
  obtain ⟨ids, taken, hm, -, -⟩ := hs
  -- the log of the step says nothing of the queues
  have hnote : ∀ {I : List ω → Session σ → Prop}, (step s e).Sat (fun _ _ => True) (told H) I →
      (∀ L s', I (told H ++ L) s' → Conserved call (H ++ [.inl (s, e)] ++ L.map .inr) s') →
        (noting step s e).Sat (fun _ _ => True) H (Conserved call) :=
    fun hstep hI => Exec.sat_noting trivial hstep (fun _ _ _ => trivial) hI
  cases hcall : call e with
  | poll fuel io =>
    obtain ⟨k, hstep, hkept⟩ := hd.poll s e fuel io hcall
    have harrive := hm.arrive (fun i => s.arrivals io i) (fun _ => rfl) (s.queued_append_arrivals io)
    have hpoll : (Session.poll h fuel io s).Sat (fun _ _ => True) (told H) _ :=
      (keptByQueues_merged hk _ (returned call H)).poll ⟨ids, taken, harrive⟩
    have hsat : (step s e).Sat (fun _ _ => True) (told H) fun _ s' => ∃ ids taken,
        Merged accepted (fun i => arrived call H i ++ s.arrivals io i) (queued s'.interfaces)
          ((returned call H ++ s'.packets).map RtpPacket.rawpack) ids taken := by
      rw [hstep]
      apply Exec.sat_bind hpoll
      intro L p hp
      refine (hkept p L).mono (fun _ _ hg => hg) ?_
      intro L' s' hs'
      rw [hs'.1, hs'.2]
      exact hp
    apply hnote hsat
    intro L s' hs'
    obtain ⟨ids', taken', hm'⟩ := hs'
    refine .of_merged hm' ?_ ?_
    · rw [arrived_noted, hcall]
    · rw [returned_noted_of_ne (by rw [hcall]; exact fun h => by cases h)]
  | fetchPacket =>
    apply hnote (hd.fetch s e _ hcall)
    intro L s' hs'
    rw [← s.fetchPacket_interfaces, ← hs'] at hm
    refine .of_merged hm ?_ ?_
    · exact arrived_noted_of_ne (by rw [hcall]; exact fun _ _ h => by cases h) L
    · rw [hs', returned_noted, hcall, List.append_assoc, s.fetchPacket_packets]
  | other =>
    apply hnote (hd.other s e _ hcall)
    intro L s' hs'
    obtain ⟨hqueues, hpackets⟩ := hs'
    rw [← hqueues] at hm
    refine .of_merged hm ?_ ?_
    · exact arrived_noted_of_ne (by rw [hcall]; exact fun _ _ h => by cases h) L
    · rw [returned_noted_of_ne (by rw [hcall]; exact fun h => by cases h), hpackets]

theorem run_conserved (hd : Drives h step call) (hk : h.KeepsPackets)
    {ok : List ((Session σ × ε) ⊕ ω) → Session σ → ε → Prop} {s₀ : Session σ}
    (h₀ : s₀.interfaces = [] ∧ s₀.packets = []) (hrun : Run (noting step) ok s₀ H (some s)) :
    Conserved call H s := by
  have hempty : Conserved call ([] : List ((Session σ × ε) ⊕ ω)) s₀ := by
    have hm : Merged accepted (queued s₀.interfaces) (queued s₀.interfaces)
        (([] : List RtpPacket).map RtpPacket.rawpack) [] fun _ => 0 := .nil _ _
    refine .of_merged hm ?_ ?_
    · rw [h₀.1]
      rfl
    · rw [h₀.2]
      rfl
  exact (Run.sat hempty (fun H s e hs _ => hd.noting_conserved hk hs) hrun).2 s rfl

end Drives

theorem processRawPacket_rejected {fuel i : ℕ} {raw : RawPacket} (hrtp : raw.isrtcp = false)
    (hraw : accepted raw = false) (s : Session σ) : s.processRawPacket h fuel i raw = pure s := by
  unfold accepted at hraw
  unfold processRawPacket processRtpPacket
  rw [if_neg (by rw [hrtp]; decide)]
  cases hparse : RtpPacket.parse raw with
  | error e => rfl
  | ok pkt =>
    rw [hparse] at hraw
    cases hraw

/-- The queue without the RTP datagrams that `parse_packet` rejects. -/
def withoutRejected (packets : List RawPacket) : List RawPacket :=
  packets.filter fun raw => raw.isrtcp || accepted raw

theorem foldlM_withoutRejected (fuel i : ℕ) (packets : List RawPacket) (s : Session σ) :
    packets.foldlM (fun s raw => s.processRawPacket h fuel i raw) s =
      (withoutRejected packets).foldlM (fun s raw => s.processRawPacket h fuel i raw) s := by
  induction packets generalizing s with
  | nil => rfl
  | cons raw packets ih =>
    unfold withoutRejected at ih ⊢
    rw [List.foldlM_cons, List.filter_cons]
    split
    · rw [List.foldlM_cons]
      exact bind_congr ih
    · rename_i hrejected
      rw [Bool.not_eq_true, Bool.or_eq_false_iff] at hrejected
      rw [processRawPacket_rejected hrejected.1 hrejected.2, pure_bind]
      exact ih s

/-- The session whose interface `i` has these datagrams no more. -/
def dropRejected (s : Session σ) (i : ℕ) : Session σ :=
  { s with
    interfaces := s.interfaces.modify i fun f => { f with packets := withoutRejected f.packets } }

/-- The second loop of a poll does what it would do if the datagrams that `parse_packet` rejects had
never been queued. -/
theorem drain_dropRejected (fuel i : ℕ) (s : Session σ) :
    s.drain h fuel i = (s.dropRejected i).drain h fuel i := by
  cases hf : s.interfaces[i]? with
  | none =>
    have hsame : s.dropRejected i = s := by
      unfold dropRejected
      rw [List.modify_eq_self (List.getElem?_eq_none_iff.mp hf)]
    rw [hsame]
  | some f =>
    have hget : (s.dropRejected i).interfaces[i]? = some { f with packets := withoutRejected f.packets } := by
      unfold dropRejected
      dsimp only
      rw [List.getElem?_modify_eq, hf]
      rfl
    have hset : (s.dropRejected i).interfaces.set i { f with packets := [] } =
        s.interfaces.set i { f with packets := [] } := by
      unfold dropRejected
      dsimp only
      apply List.ext_getElem?
      intro j
      rw [List.getElem?_set, List.getElem?_set, List.length_modify]
      by_cases hj : i = j
      · rw [if_pos hj, if_pos hj]
      · rw [if_neg hj, if_neg hj, List.getElem?_modify_ne _ _ hj]
    unfold drain
    rw [hf, hget]
    dsimp only
    rw [hset, foldlM_withoutRejected]
    rfl

end Session

end Mprtp
