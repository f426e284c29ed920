import Mprtp.Rtcp.Walk
import Mprtp.Session.Rules

/-! When a poll of a session returns. -/
namespace Mprtp

/-- The walk of `process_rtcp_packet` through the datagram comes to its end. -/
def RawPacket.Walked (fuel : ℕ) (pkt : RawPacket) : Prop := pkt.isrtcp = true → (pkt.rtcpCalls fuel).2 = true

namespace RawPacket

/-- No MPRTCP packet in the datagram has a block of length 0 on the way of the walk. -/
def NoEmptyBlock (pkt : RawPacket) : Prop :=
  pkt.isrtcp = true → ∀ p, PacketFrom pkt.mem pkt.dataLen 0 p → ¬ HasEmptyBlock pkt.mem p

variable {fuel fuel' : ℕ} {pkt : RawPacket}

theorem rtcpCalls_eq_of_walked (hf : fuel ≤ fuel') (h : (pkt.rtcpCalls fuel).2 = true) :
    pkt.rtcpCalls fuel' = pkt.rtcpCalls fuel :=
  rtcpLoop_eval_mono pkt.fromAddr pkt.recvtime hf hf h

theorem Walked.mono (hf : fuel ≤ fuel') (h : pkt.Walked fuel) : pkt.Walked fuel' := by
  intro hrtcp
  rw [rtcpCalls_eq_of_walked hf (h hrtcp)]
  exact h hrtcp

theorem exists_walked_iff (pkt : RawPacket) : (∃ fuel, pkt.Walked fuel) ↔ pkt.NoEmptyBlock := by
  have hloop := rtcpLoop_ends_iff (m := pkt.mem) pkt.fromAddr pkt.recvtime pkt.dataLen 0
  constructor
  · intro h hrtcp
    obtain ⟨fuel, h⟩ := h
    exact hloop.mp ⟨fuel, fuel, h hrtcp⟩
  · intro h
    by_cases hrtcp : pkt.isrtcp = true
    · obtain ⟨blockFuel, fuel, hends⟩ := hloop.mpr (h hrtcp)
      refine ⟨max blockFuel fuel, fun _ => ?_⟩
      have heq := rtcpLoop_eval_mono pkt.fromAddr pkt.recvtime (le_max_left blockFuel fuel)
        (le_max_right blockFuel fuel) hends
      unfold rtcpCalls processRtcpPacket
      rw [heq]
      exact hends
    · exact ⟨0, fun habsurd => absurd habsurd hrtcp⟩

/-- One amount of fuel is enough for all of them. -/
theorem exists_walked_all_iff (pkts : List RawPacket) :
    (∃ fuel, ∀ pkt ∈ pkts, pkt.Walked fuel) ↔ ∀ pkt ∈ pkts, pkt.NoEmptyBlock := by
  constructor
  · intro h pkt hpkt
    obtain ⟨fuel, h⟩ := h
    exact (exists_walked_iff pkt).mp ⟨fuel, h pkt hpkt⟩
  · intro h
    induction pkts with
    | nil => exact ⟨0, fun pkt hpkt => by cases hpkt⟩
    | cons pkt pkts ih =>
      obtain ⟨hpkt, hpkts⟩ := List.forall_mem_cons.mp h
      obtain ⟨fuel, hfuel⟩ := (exists_walked_iff pkt).mpr hpkt
      obtain ⟨fuel', hfuel'⟩ := ih hpkts
      refine ⟨max fuel fuel', List.forall_mem_cons.mpr ⟨hfuel.mono (le_max_left ..), ?_⟩⟩
      exact fun pkt' hpkt' => (hfuel' pkt' hpkt').mono (le_max_right ..)

end RawPacket

namespace Session

variable {σ ω : Type} {h : Handlers σ ω} {fuel : ℕ} {s : Session σ}

theorem call_ends (s : Session σ) (c : Call) : (s.call h c).Ends := ⟨s.handle h c, rfl⟩

theorem processRawPacket_ends_iff (s : Session σ) (i : ℕ) (pkt : RawPacket) :
    (s.processRawPacket h fuel i pkt).Ends ↔ pkt.Walked fuel := by
  unfold processRawPacket RawPacket.Walked
  split
  · rename_i hrtcp
    unfold processRtcpPacket
    have hcalls : ((pkt.rtcpCalls fuel).1.foldlM (fun (s : Session σ) c => s.call h (.rtcp c i)) s).Ends :=
      (Exec.ends_foldlM_iff (P := fun _ => True) (fun s c => iff_of_true (call_ends s _) trivial) s).mpr
        fun _ _ => trivial
    refine Exec.ends_bind_iff_of_ends hcalls ?_
    intro s' _
    split
    · rename_i hdone
      exact iff_of_true (Exec.ends_pure s') fun _ => hdone
    · rename_i hdone
      exact iff_of_false (Exec.not_ends_stuck _) fun hwalked => hdone (hwalked hrtcp)
  · rename_i hrtp
    refine iff_of_true ?_ fun hrtcp => absurd hrtcp hrtp
    unfold processRtpPacket
    split
    · exact Exec.ends_pure s
    · exact call_ends s _

/-- The datagrams in the queue of the interface are all walked through. -/
theorem drain_ends_iff (s : Session σ) (i : ℕ) : (s.drain h fuel i).Ends ↔
    ∀ f, s.interfaces[i]? = some f → ∀ pkt ∈ f.packets, pkt.Walked fuel := by
  unfold drain
  cases hget : s.interfaces[i]? with
  | none => exact iff_of_true (Exec.ends_pure s) fun f hf => by cases hf
  | some f =>
    have hloop : (f.packets.foldlM (fun (s : Session σ) pkt => s.processRawPacket h fuel i pkt)
        { s with interfaces := s.interfaces.set i { f with packets := [] } }).Ends ↔
          ∀ pkt ∈ f.packets, pkt.Walked fuel :=
      Exec.ends_foldlM_iff (fun s pkt => processRawPacket_ends_iff s i pkt) _
    refine hloop.trans ⟨?_, fun hall => hall f rfl⟩
    intro hall f' hf'
    cases hf'
    exact hall

/-- A poll returns when an interface ends it, or all datagrams are walked through. -/
theorem poll_ends_iff {io : PollInput} {fs : List Interface} {w : World} {status : ℤ}
    (hpoll : pollInterfaces io 0 s.interfaces s.world = (fs, w, status)) : (s.poll h fuel io).Ends ↔
      (0 ≤ status → ∀ f ∈ fs, ∀ pkt ∈ f.packets, pkt.Walked fuel) := by
  unfold poll
  rw [hpoll]
  dsimp only
  split
  · rename_i hstatus
    exact iff_of_true (Exec.ends_pure _) fun hnonneg => absurd hstatus (not_lt.mpr hnonneg)
  · rename_i hstatus
    have hcalls : KeptByCallsOn h (fun (_ : List ω) _ => True) (fun _ _ => True) fun _ _ => True :=
      fun _ _ _ _ _ _ _ _ _ => ⟨trivial, trivial⟩
    have hloop : ∀ n, ((List.range n).foldlM (fun (s : Session σ) i => s.drain h fuel i)
        ({ s with interfaces := fs, world := w } : Session σ)).Sat (fun _ _ => True) []
          fun _ s' => True ∧ s'.interfaces = drained n fs :=
      Exec.sat_foldlM_range (fun n H s' hn => drain_sat (fun _ _ _ _ => trivial) hcalls
        (fun _ _ _ _ _ => trivial) hn.1 hn.2) ⟨trivial, (drained_zero fs).symm⟩
    have hends : ∀ n, ((List.range n).foldlM (fun (s : Session σ) i => s.drain h fuel i)
        ({ s with interfaces := fs, world := w } : Session σ)).Ends ↔
          ∀ i < n, ∀ f, fs[i]? = some f → ∀ pkt ∈ f.packets, pkt.Walked fuel := by
      intro n
      induction n with
      | zero => exact iff_of_true (Exec.ends_pure _) fun i hi => absurd hi (Nat.not_lt_zero i)
      | succ n ih =>
        have hlast : ∀ s', ((List.range n).foldlM (fun (s : Session σ) i => s.drain h fuel i)
            ({ s with interfaces := fs, world := w } : Session σ)).res = some s' →
              ((s'.drain h fuel n).Ends ↔ ∀ f, fs[n]? = some f → ∀ pkt ∈ f.packets, pkt.Walked fuel) := by
          intro s' hs'
          have hget : s'.interfaces[n]? = fs[n]? := by
            rw [((hloop n).2 s' hs').2, getElem?_drained]
            simp
          rw [drain_ends_iff, hget]
        rw [List.range_succ, List.foldlM_append, Exec.ends_bind_iff, Nat.forall_lt_succ_right, ← ih]
        simp only [List.foldlM_cons, List.foldlM_nil, bind_pure]
        constructor
        · intro hall
          obtain ⟨s', hs', hdrain⟩ := hall
          exact ⟨⟨s', hs'⟩, (hlast s' hs').mp hdrain⟩
        · intro hall
          obtain ⟨⟨s', hs'⟩, hdrain⟩ := hall
          exact ⟨s', hs', (hlast s' hs').mpr hdrain⟩
    have hall : (∀ f ∈ fs, ∀ pkt ∈ f.packets, pkt.Walked fuel) ↔
        ∀ i < fs.length, ∀ f, fs[i]? = some f → ∀ pkt ∈ f.packets, pkt.Walked fuel := by
      constructor
      · exact fun hfs i _ f hf => hfs f (List.mem_of_getElem? hf)
      · intro hfs f hf
        obtain ⟨i, hi⟩ := List.getElem?_of_mem hf
        exact hfs i (List.getElem?_eq_some_iff.mp hi).1 f hi
    rw [hall, ← hends, forall_prop_of_true (not_lt.mp hstatus), Exec.ends_bind_iff]
    constructor
    · exact fun ⟨s', hs', _⟩ => ⟨s', hs'⟩
    · exact fun ⟨s', hs'⟩ => ⟨s', hs', Exec.ends_pure _⟩

/-- A poll that returns is the same with more fuel. -/
theorem poll_eq_of_ends {fuel' : ℕ} (hf : fuel ≤ fuel') {io : PollInput} (hends : (s.poll h fuel io).Ends) :
    s.poll h fuel' io = s.poll h fuel io := by
  have hpacket : ∀ (s : Session σ) i pkt, (s.processRawPacket h fuel i pkt).Ends →
      s.processRawPacket h fuel' i pkt = s.processRawPacket h fuel i pkt := by
    intro s i pkt hpkt
    have hwalked := (processRawPacket_ends_iff s i pkt).mp hpkt
    unfold processRawPacket
    split
    · rename_i hrtcp
      unfold processRtcpPacket
      rw [RawPacket.rtcpCalls_eq_of_walked hf (hwalked hrtcp)]
    · rfl
  have hdrain : ∀ (s : Session σ) i, (s.drain h fuel i).Ends → s.drain h fuel' i = s.drain h fuel i := by
    intro s i hi
    unfold drain at hi ⊢
    cases hget : s.interfaces[i]? with
    | none => rfl
    | some f =>
      rw [hget] at hi
      exact Exec.foldlM_eq_of_ends (fun s pkt => hpacket s i pkt) hi
  unfold poll at hends ⊢
  generalize pollInterfaces io 0 s.interfaces s.world = r at hends ⊢
  obtain ⟨fs, w, status⟩ := r
  dsimp only at hends ⊢
  split
  · rfl
  · rename_i hstatus
    rw [if_neg hstatus] at hends
    obtain ⟨s', hs', -⟩ := Exec.ends_bind_iff.mp hends
    rw [Exec.foldlM_eq_of_ends hdrain ⟨s', hs'⟩]

/-- With enough fuel a poll returns when an interface ends it, or no datagram has an empty block. -/
theorem exists_poll_ends_iff {io : PollInput} {fs : List Interface} {w : World} {status : ℤ}
    (hpoll : pollInterfaces io 0 s.interfaces s.world = (fs, w, status)) : (∃ fuel, (s.poll h fuel io).Ends) ↔
      (0 ≤ status → ∀ f ∈ fs, ∀ pkt ∈ f.packets, pkt.NoEmptyBlock) := by
  have hqueued : ∀ P : RawPacket → Prop, (∀ f ∈ fs, ∀ pkt ∈ f.packets, P pkt) ↔
      ∀ pkt ∈ fs.flatMap Interface.packets, P pkt := by
    intro P
    constructor
    · intro hall pkt hpkt
      obtain ⟨f, hf, hmem⟩ := List.mem_flatMap.mp hpkt
      exact hall f hf pkt hmem
    · exact fun hall f hf pkt hpkt => hall pkt (List.mem_flatMap.mpr ⟨f, hf, hpkt⟩)
  have hall := RawPacket.exists_walked_all_iff (fs.flatMap Interface.packets)
  rw [hqueued, ← hall]
  constructor
  · intro hends hstatus
    obtain ⟨fuel, hends⟩ := hends
    exact ⟨fuel, (hqueued _).mp ((poll_ends_iff hpoll).mp hends hstatus)⟩
  · intro hwalked
    by_cases hstatus : 0 ≤ status
    · obtain ⟨fuel, hwalked⟩ := hwalked hstatus
      exact ⟨fuel, (poll_ends_iff hpoll).mpr fun _ => (hqueued _).mpr hwalked⟩
    · exact ⟨0, (poll_ends_iff hpoll).mpr fun habsurd => absurd habsurd hstatus⟩

end Session

end Mprtp
