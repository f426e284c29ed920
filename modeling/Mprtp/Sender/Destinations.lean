import Mprtp.Sender.Paths
import Mprtp.Sender.Suspension

/-! Where the datagrams of a sender go: along the paths that `connect` has found valid. -/
namespace Mprtp

theorem Interface.receive_getAddress (rtcp : Bool) (f : Interface) (w : World) (a : Option Arrival) :
    (receive rtcp f w a).1.getAddress = f.getAddress := by
  unfold receive
  cases a with
  | none => rfl
  | some a =>
    dsimp only
    split
    · rfl
    · rfl

theorem Interface.poll_getAddress (rtcp : Bool) (io : PollOutcome) (f : Interface) (w : World) :
    (f.poll rtcp io w).1.getAddress = f.getAddress := by
  obtain ⟨recvd, status⟩ := io
  unfold poll
  dsimp only
  induction recvd generalizing f w with
  | nil => rfl
  | cons a as ih => rw [List.foldl_cons, ih, receive_getAddress]

namespace Session

/-- The addresses of the interfaces. -/
def addresses (fs : List Interface) : List Endpoint := fs.map Interface.getAddress

theorem addresses_pollInterfaces (io : PollInput) (i : ℕ) (fs : List Interface) (w : World) :
    addresses (pollInterfaces io i fs w).1 = addresses fs := by
  induction fs generalizing i w with
  | nil => rfl
  | cons f fs ih =>
    have h₁ := f.poll_getAddress false (io i false) w
    unfold pollInterfaces
    generalize f.poll false (io i false) w = r at h₁ ⊢
    obtain ⟨f₁, w₁, status₁⟩ := r
    dsimp only at h₁ ⊢
    split
    · exact congrArg (· :: addresses fs) h₁
    · have h₂ := (f₁.poll_getAddress true (io i true) w₁).trans h₁
      generalize f₁.poll true (io i true) w₁ = r at h₂ ⊢
      obtain ⟨f₂, w₂, status₂⟩ := r
      dsimp only at h₂ ⊢
      split
      · exact congrArg (· :: addresses fs) h₂
      · exact congrArg₂ List.cons h₂ (ih (i + 1) w₂)

theorem addresses_drained (n : ℕ) (fs : List Interface) : addresses (drained n fs) = addresses fs := by
  apply List.ext_getElem?
  intro i
  unfold addresses
  rw [List.getElem?_map, List.getElem?_map, getElem?_drained, Option.map_map]
  congr 1
  funext f
  rw [Function.comp_apply]
  split
  · rfl
  · rfl

theorem addresses_suspendFirst (addr : Endpoint) (suspend : Bool) (fs : List Interface) :
    addresses (suspendFirst addr suspend fs).1 = addresses fs := by
  induction fs with
  | nil => rfl
  | cons f fs ih =>
    unfold suspendFirst
    split
    · rfl
    · exact congrArg (f.getAddress :: ·) ih

variable {σ ω : Type} {h : Handlers σ ω}

theorem addresses_addInterface (s : Session σ) (addr : Endpoint) (opened : Bool) :
    addresses s.interfaces <+: addresses (s.addInterface addr opened).interfaces := by
  unfold addInterface
  split
  · unfold addresses
    rw [List.map_append]
    exact List.prefix_append _ _
  · exact List.prefix_rfl

theorem addresses_poll (s : Session σ) (fuel : ℕ) (io : PollInput) {H : List ω} :
    (s.poll h fuel io).Sat (fun _ _ => True) H
      fun _ r => addresses r.1.interfaces = addresses s.interfaces := by
  have haddresses := addresses_pollInterfaces io 0 s.interfaces s.world
  generalize hpoll : pollInterfaces io 0 s.interfaces s.world = r at haddresses
  obtain ⟨fs, w, status⟩ := r
  have hcalls : KeptByCalls h (fun (_ : List ω) _ => True) (fun _ _ => True) fun _ _ => True :=
    fun _ _ _ _ _ _ _ _ => ⟨trivial, trivial⟩
  have hsat : (s.poll h fuel io).Sat (fun _ _ => True) H _ :=
    poll_sat (fun _ _ _ _ => trivial) hcalls hpoll (fun _ _ _ _ _ => trivial) trivial
  refine hsat.mono (fun _ _ hg => hg) ?_
  intro H' r hr
  rcases hr.2 with heq | heq
  · rw [heq]
    exact haddresses
  · rw [heq, addresses_drained]
    exact haddresses

end Session

theorem Subflow.measure_path (sf : Subflow) (last pkt : RtcpRrPacket) (w : World) :
    (sf.measure last pkt w).1.path = sf.path := by
  have hrelax : ∀ sf : Subflow, (sf.relax w).1.path = sf.path := by
    intro sf
    unfold relax
    split
    · rfl
    · rfl
  unfold measure
  dsimp only
  split
  · unfold withoutLoss
    dsimp only
    split
    · exact hrelax _
    · rfl
  · rfl

namespace SenderData

/-- The path of every subflow, in order. -/
def paths (d : SenderData) : List (ℕ × Endpoint) := d.subflows.map Subflow.path

variable {d : SenderData}

theorem paths_put {k : ℕ} {sf sf' : Subflow} (hk : d.subflows[k]? = some sf) (hpath : sf'.path = sf.path) :
    (d.put k sf').paths = d.paths := by
  obtain ⟨hlt, hget⟩ := List.getElem?_eq_some_iff.mp hk
  unfold paths
  rw [List.map_set, hpath, ← List.map_set, ← hget, List.set_getElem_self]

theorem onRtcpRrPacket_paths (d : SenderData) (w : World) (pkt : RtcpRrPacket) (id : UInt16) :
    (d.onRtcpRrPacket w pkt id).1.paths = d.paths := by
  rcases d.onRtcpRrPacket_cases w pkt id with ⟨hres, -⟩ | ⟨k, sf, hst⟩ | ⟨m, hms⟩
  · rw [hres]
  · rw [hst.result]
    exact paths_put hst.subflow rfl
  · rw [hms.result]
    exact paths_put hms.subflow (m.sf.measure_path m.last pkt w)

end SenderData

namespace Sender

/-- The paths that the calls of `connect` have found valid, in order. -/
def connectedPaths (isPathValid : Endpoint → Endpoint → Bool) (H : List ((Sender × Step) ⊕ SenderEvent)) :
    List (ℕ × Endpoint) :=
  H.flatMap fun
    | .inl (s, .connect _ destination) => validPaths isPathValid s.interfaces destination
    | _ => []

/-- A datagram on the subflow at an index goes along the path with this index. -/
def Along (paths : List (ℕ × Endpoint)) : SenderEvent → Prop
  | .sent k out => ∃ p, paths[k]? = some p ∧ out.iface = p.1 ∧
      out.dest = if out.rtcp then ⟨p.2.ip, p.2.port + 1⟩ else p.2
  | _ => True

theorem along_sendto {d : SenderData} {k : ℕ} {sf : Subflow} (hk : d.subflows[k]? = some sf) (data : List UInt8)
    (rtcp : Bool) : Along d.paths (.sent k (Interface.sendto sf.iface data sf.remote rtcp)) := by
  refine ⟨sf.path, ?_, rfl, rfl⟩
  unfold SenderData.paths
  rw [List.getElem?_map, hk]
  rfl

/-- The paths stay as they are but for `connect`. -/
theorem keptByUse_paths (P : List (ℕ × Endpoint)) : KeptByUse (fun _ => Along P) fun _ d => d.paths = P where
  rr := fun L d w pkt id ssrc i h => ⟨trivial, (d.onRtcpRrPacket_paths w pkt id).trans h⟩
  visit := fun _ _ _ _ h => ⟨trivial, h⟩
  sends := by
    intro L d w data ret k sf timestamp r hs h
    have hpath : (sf.sendto (d.rtpDatagram sf timestamp data) (UInt32.ofNat data.length) false ret).2.path =
        sf.path := by
      unfold Subflow.sendto
      rw [if_neg Bool.false_ne_true]
      split
      · rfl
      · rfl
    have hr : r.2.1.paths = d.paths :=
      (congrArg (List.map Subflow.path) hs.unmoved.subflows).trans (SenderData.paths_put hs.subflow hpath)
    subst h
    exact ⟨along_sendto hs.subflow _ _, hr⟩
  sendsReport := by
    intro L d w k sf pkt r hs h
    subst h
    exact ⟨along_sendto hs.subflow _ _, congrArg (List.map Subflow.path) hs.unmoved.subflows⟩
  measure := by
    intro L d curtime h
    obtain ⟨hsubflows, -⟩ := d.measureStreamBitrate_numbers curtime
    exact ⟨trivial, (congrArg (List.map Subflow.path) hsubflows).trans h⟩
  redistribute := by
    intro L d h
    unfold SenderData.redistribute
    apply Exec.sat_ite
    · intro _
      exact Exec.sat_pure h
    · intro _
      refine Exec.sat_bind (Q := fun _ _ => True) (Exec.sat_tell trivial trivial) ?_
      intro L' _ _
      exact Exec.sat_pure ((Subflow.Reweighted.map_eq (fun _ _ => rfl) d.redistributed_reweighted).trans h)

variable {isPathValid : Endpoint → Endpoint → Bool} {H : List ((Sender × Step) ⊕ SenderEvent)}

/-- Interfaces are added and keep their addresses. -/
theorem step_addresses (s : Sender) (e : Step) {L : List SenderEvent} :
    (step isPathValid s e).Sat (fun _ _ => True) L
      fun _ s' => Session.addresses s.interfaces <+: Session.addresses s'.interfaces := by
  cases e with
  | addInterface addr opened => exact Exec.sat_pure (s.addresses_addInterface addr opened)
  | suspendInterface addr suspend =>
    apply Exec.sat_pure
    have hsame := Session.addresses_suspendFirst addr suspend s.interfaces
    exact ⟨[], (List.append_nil _).trans hsame.symm⟩
  | connect ssrc destination =>
    apply Exec.sat_pure
    rw [(connect_queues isPathValid s ssrc destination).1]
  | sendData data ret =>
    refine Exec.sat_bind (Q := fun _ p => p.2.interfaces = s.interfaces) ?_ ?_
    · exact Exec.sat_bind (Q := fun _ _ => True) Exec.sat_trivial fun _ _ _ => Exec.sat_pure rfl
    · intro L' p hp
      apply Exec.sat_pure
      rw [hp]
  | poll fuel io =>
    unfold step poll
    apply Exec.sat_bind (s.addresses_poll fuel io)
    intro L₁ p hp
    obtain ⟨s₁, status⟩ := p
    have hprefix : Session.addresses s.interfaces <+: Session.addresses s₁.interfaces :=
      ⟨[], (List.append_nil _).trans hp.symm⟩
    refine Exec.sat_bind (Q := fun _ _ => True) Exec.sat_trivial ?_
    intro L₂ p₂ _
    obtain ⟨d, w⟩ := p₂
    refine Exec.sat_bind (Q := fun _ _ => True) (Exec.sat_tell trivial trivial) ?_
    intro L₃ _ _
    exact Exec.sat_bind (Q := fun _ _ => True) Exec.sat_trivial fun _ _ _ => Exec.sat_pure hprefix
  | fetchPacket =>
    apply Exec.sat_pure
    unfold Session.fetchPacket
    split
    · exact List.prefix_rfl
    · exact List.prefix_rfl

/-- The subflows of the sender are on the paths that were connected, and these are valid for the addresses of
its interfaces. -/
structure OnPaths (isPathValid : Endpoint → Endpoint → Bool) (H : List ((Sender × Step) ⊕ SenderEvent))
    (s : Sender) : Prop where
  paths : s.obj.paths = connectedPaths isPathValid H
  valid : ∀ p ∈ connectedPaths isPathValid H, ∃ addr, (Session.addresses s.interfaces)[p.1]? = some addr ∧
    isPathValid addr p.2 = true

theorem connectedPaths_noted (H : List ((Sender × Step) ⊕ SenderEvent)) (s : Sender) (e : Step)
    (L : List SenderEvent) : connectedPaths isPathValid (H ++ [.inl (s, e)] ++ L.map .inr) =
      connectedPaths isPathValid H ++ (match e with
        | .connect _ destination => validPaths isPathValid s.interfaces destination
        | _ => []) := by
  unfold connectedPaths
  rw [flatMap_noted fun _ => rfl]
  cases e <;> rfl

theorem validPaths_valid {fs : List Interface} {destination : List Endpoint} {p : ℕ × Endpoint}
    (hp : p ∈ validPaths isPathValid fs destination) :
    ∃ addr, (Session.addresses fs)[p.1]? = some addr ∧ isPathValid addr p.2 = true := by
  unfold validPaths at hp
  obtain ⟨⟨f, i⟩, hf, hp⟩ := List.mem_flatMap.mp hp
  obtain ⟨addr, haddr, rfl⟩ := List.mem_map.mp hp
  obtain ⟨-, hvalid⟩ := List.mem_filter.mp haddr
  have hget : fs[i]? = some f := List.mem_zipIdx_iff_getElem?.mp hf
  refine ⟨f.getAddress, ?_, hvalid⟩
  unfold Session.addresses
  rw [List.getElem?_map, hget]
  rfl

/-- What is sent goes along the paths connected before, and a call finds the subflows on them. -/
def KeepsPaths (isPathValid : Endpoint → Endpoint → Bool) (H : List ((Sender × Step) ⊕ SenderEvent)) :
    (Sender × Step) ⊕ SenderEvent → Prop
  | .inl (s, _) => OnPaths isPathValid H s
  | .inr e => Along (connectedPaths isPathValid H) e

theorem step_paths (s : Sender) (e : Step) {L : List SenderEvent} : (step isPathValid s e).Sat
    (fun _ e => Along s.obj.paths e) L fun _ s' => s'.obj.paths = s.obj.paths ++ (match e with
      | .connect _ destination => validPaths isPathValid s.interfaces destination
      | _ => []) := by
  by_cases hconnect : ∃ ssrc destination, e = .connect ssrc destination
  · obtain ⟨ssrc, destination, rfl⟩ := hconnect
    obtain ⟨added, hsubflows, hpaths⟩ := s.connect_subflows isPathValid ssrc destination
    apply Exec.sat_pure
    unfold SenderData.paths
    rw [hsubflows, List.map_append, hpaths]
  · have hunconnected : e.Unconnected := by
      cases e with
      | connect ssrc destination => exact hconnect ⟨ssrc, destination, rfl⟩
      | _ => trivial
    have hsat := (keptByUse_paths s.obj.paths).step (H := L) isPathValid rfl hunconnected
    refine hsat.mono (fun _ _ hg => hg) ?_
    intro L' s' hs'
    rw [hs']
    cases e with
    | connect ssrc destination => exact absurd ⟨ssrc, destination, rfl⟩ hconnect
    | _ => exact (List.append_nil _).symm

theorem noting_onPaths {s : Sender} (h : OnPaths isPathValid H s) (e : Step) :
    (noting (step isPathValid) s e).Sat (KeepsPaths isPathValid) H (OnPaths isPathValid) := by
  refine Exec.sat_noting_own h (((step_paths s e).and (step_addresses s e)).mono ?_ ?_)
  · intro L a ha
    obtain ⟨halong, -⟩ := ha
    cases a with
    | sent k out =>
      obtain ⟨p, hp, hout⟩ := halong
      refine ⟨p, ?_, hout⟩
      rw [connectedPaths_noted, List.getElem?_append_left]
      · rw [← h.paths]
        exact hp
      · rw [← h.paths]
        exact (List.getElem?_eq_some_iff.mp hp).1
    | _ => trivial
  · intro L s' hs'
    obtain ⟨hpaths, rest, haddresses⟩ := hs'
    constructor
    · rw [connectedPaths_noted, hpaths, h.paths]
    · intro p hp
      rw [connectedPaths_noted] at hp
      have hvalid : ∃ addr, (Session.addresses s.interfaces)[p.1]? = some addr ∧ isPathValid addr p.2 = true := by
        rcases List.mem_append.mp hp with hp | hp
        · exact h.valid p hp
        · cases e with
          | connect ssrc destination => exact validPaths_valid hp
          | _ => cases hp
      obtain ⟨addr, haddr, hv⟩ := hvalid
      refine ⟨addr, ?_, hv⟩
      rw [← haddresses, List.getElem?_append_left (List.getElem?_eq_some_iff.mp haddr).1]
      exact haddr

/-- In every run: every datagram on the `k`-th subflow goes along the `k`-th of all the paths that the calls of
`connect` have found valid so far, to the port behind it for a sender report; and a path once found valid stays
valid for the address of its interface, whatever is called in between. -/
theorem sent_along_paths {timestampUnit : ℚ} {w : World} {r : Option Sender}
    (hrun : Run (noting (step isPathValid)) (fun _ _ _ => True) (new timestampUnit w) H r) :
    (∀ n s e, H[n]? = some (.inl (s, e)) → OnPaths isPathValid (H.take n) s) ∧
    ∀ (n k : ℕ) (out : OutDatagram), H[n]? = some (.inr (.sent k out)) →
      ∃ p, (connectedPaths isPathValid (H.take n))[k]? = some p ∧ out.iface = p.1 ∧
        out.dest = if out.rtcp then ⟨p.2.ip, p.2.port + 1⟩ else p.2 := by
  have h₀ : OnPaths isPathValid [] (new timestampUnit w) := by
    refine ⟨rfl, ?_⟩
    intro p hp
    cases hp
  have hall : ∀ n e, H[n]? = some e → KeepsPaths isPathValid (H.take n) e :=
    fun n e hn => Run.sat_getElem h₀ (fun _ _ e h _ => noting_onPaths h e) hrun hn
  exact ⟨fun n s e hn => hall n _ hn, fun n k out hn => hall n _ hn⟩

/-- Two interfaces, connected to a destination each, the second one first. -/
def connectedTwice : List Step :=
  [.addInterface ⟨0x0A000001, 23000⟩ true, .addInterface ⟨0x0A000101, 23000⟩ true,
    .connect 0xDEAD [⟨0x0A000102, 22000⟩], .connect 0xDEAD [⟨0x0A000002, 22000⟩], .sendData [65] 25,
    .suspendInterface ⟨0x0A000101, 23000⟩ true] ++ List.replicate 5 (.poll 10 fun _ _ => {})

def connectedTwiceLog : List ((Sender × Step) ⊕ SenderEvent) :=
  (connectedTwice.foldlM (noting (step fun a b => a.ip / 256 = b.ip / 256)) (new 1 (.ticking 1000))).log

/-- The sender report takes the first path connected, from the second interface to the RTCP port. -/
theorem connectedTwice_along :
    connectedPaths (fun a b => a.ip / 256 = b.ip / 256) (connectedTwiceLog.take 14) =
      [(1, ⟨0x0A000102, 22000⟩), (0, ⟨0x0A000002, 22000⟩)] ∧
    ∃ out, connectedTwiceLog[14]? = some (.inr (.sent 0 out)) ∧ out.iface = 1 ∧
      out.dest = ⟨0x0A000102, 22001⟩ := by
  have hpaths : connectedPaths (fun a b => a.ip / 256 = b.ip / 256) (connectedTwiceLog.take 14) =
      [(1, ⟨0x0A000102, 22000⟩), (0, ⟨0x0A000002, 22000⟩)] := by decide +kernel
  have hsome : ∃ e ∈ connectedTwiceLog[14]?.bind Sum.getRight?, ∃ out ∈ e.out?, out.rtcp = true ∧
      (match e with | .sent k _ => k == 0 | _ => false) = true := by
    decide +kernel
  obtain ⟨e, he, out, hout, hrtcp, hk⟩ := hsome
  obtain ⟨x, hx, hxe⟩ := Option.bind_eq_some_iff.mp he
  rw [Sum.getRight?_eq_some_iff.mp hxe] at hx
  cases e with
  | sent k out' =>
    cases hout
    obtain rfl := eq_of_beq hk
    have hrun : Run (noting (step fun a b => a.ip / 256 = b.ip / 256)) (fun _ _ _ => True)
        (new 1 (.ticking 1000)) connectedTwiceLog _ := Run.foldlM (new 1 (.ticking 1000)) connectedTwice
    obtain ⟨p, hp, hiface, hdest⟩ := (sent_along_paths hrun).2 14 0 out hx
    rw [hpaths] at hp
    cases hp
    rw [if_pos hrtcp] at hdest
    exact ⟨hpaths, out, hx, hiface, hdest⟩
  | _ => cases hout

end Sender

end Mprtp
