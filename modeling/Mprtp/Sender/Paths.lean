import Mprtp.Sender.Numbers

/-! The subflows that `connect` makes, one for each valid path, and the ids they get. -/
namespace Mprtp

/-- The valid paths from an interface to a destination: interface by interface, and for each of
them in the order of the destinations. -/
def validPaths (isPathValid : Endpoint → Endpoint → Bool) (interfaces : List Interface)
    (destination : List Endpoint) : List (ℕ × Endpoint) :=
  interfaces.zipIdx.flatMap fun p =>
    (destination.filter (isPathValid p.1.getAddress)).map fun addr => (p.2, addr)

/-- The path of a subflow. -/
def Subflow.path (sf : Subflow) : ℕ × Endpoint := (sf.iface, sf.remote)

/-- Going over a list with the indices is going over the indices. -/
theorem flatMap_zipIdx {α β : Type} (f : α → ℕ → List β) (l : List α) :
    (l.zipIdx.flatMap fun p => f p.1 p.2) =
      (List.range l.length).flatMap fun i => (l[i]?.map fun a => f a i).getD [] := by
  induction l using List.reverseRecOn with
  | nil => rfl
  | append_singleton l a ih =>
    have hbefore : ∀ i ∈ List.range l.length, (((l ++ [a])[i]?).map fun b => f b i).getD [] =
        (l[i]?.map fun b => f b i).getD [] := by
      intro i hi
      rw [List.getElem?_append_left (List.mem_range.mp hi)]
    rw [List.zipIdx_append, List.flatMap_append, ih, List.length_append, List.length_singleton,
      List.range_succ, List.flatMap_append, List.flatMap_congr hbefore]
    simp

namespace Sender

variable {isPathValid : Endpoint → Endpoint → Bool}

/-- The path is valid from the interface with the index. -/
def onValidPath (isPathValid : Endpoint → Endpoint → Bool) (interfaces : List Interface)
    (pair : ℕ × Endpoint) : Bool :=
  (interfaces[pair.1]?.map fun f => isPathValid f.getAddress pair.2).getD false

theorem connectPaths_subflows (isPathValid : Endpoint → Endpoint → Bool) (interfaces : List Interface)
    (pairs : List (ℕ × Endpoint)) (d : SenderData) (w : World) :
    ∃ added, (connectPaths isPathValid interfaces pairs d w).1.subflows = d.subflows ++ added ∧
      added.map Subflow.path = pairs.filter (onValidPath isPathValid interfaces) := by
  induction pairs generalizing d w with
  | nil => exact ⟨[], (List.append_nil _).symm, rfl⟩
  | cons pair pairs ih =>
    obtain ⟨i, addr⟩ := pair
    unfold connectPaths
    rw [List.filter_cons]
    unfold onValidPath at ih ⊢
    cases hget : interfaces[i]? with
    | none =>
      obtain ⟨added, hsubflows, hpaths⟩ := ih d w
      exact ⟨added, hsubflows, hpaths⟩
    | some f =>
      dsimp only [Option.map_some, Option.getD_some]
      split
      · obtain ⟨added, hsubflows, hpaths⟩ := ih (d.addSubflow i addr w) w.drawn
        refine ⟨(Subflow.new d.nextSubflowId i addr w).1 :: added, ?_, ?_⟩
        · have hall : (d.addSubflow i addr w).subflows ++ added =
              d.subflows ++ (Subflow.new d.nextSubflowId i addr w).1 :: added := by
            unfold SenderData.addSubflow
            rw [List.append_assoc, List.singleton_append]
          rw [← hall]
          exact hsubflows
        · rw [List.map_cons, hpaths]
          rfl
      · exact ih d w

theorem filter_pairs (interfaces : List Interface) (destination : List Endpoint) :
    (((List.range interfaces.length).flatMap fun i => destination.map fun a => (i, a)).filter
      (onValidPath isPathValid interfaces)) = validPaths isPathValid interfaces destination := by
  unfold validPaths
  rw [flatMap_zipIdx fun (f : Interface) i =>
    (destination.filter (isPathValid f.getAddress)).map fun addr => (i, addr), List.filter_flatMap]
  apply List.flatMap_congr
  intro i hi
  rw [List.getElem?_eq_getElem (List.mem_range.mp hi), Option.map_some, Option.getD_some,
    List.filter_map]
  congr 2
  funext addr
  unfold onValidPath
  rw [Function.comp_apply, List.getElem?_eq_getElem (List.mem_range.mp hi)]
  rfl

/-- `connect` appends one subflow for each valid path, in order, and leaves those there are. -/
theorem connect_subflows (isPathValid : Endpoint → Endpoint → Bool) (s : Sender) (ssrc : UInt32)
    (destination : List Endpoint) :
    ∃ added, (s.connect isPathValid ssrc destination).2.obj.subflows = s.obj.subflows ++ added ∧
      added.map Subflow.path = validPaths isPathValid s.interfaces destination := by
  unfold connect
  by_cases hnil : s.interfaces = []
  · rw [if_pos hnil, hnil]
    exact ⟨[], (List.append_nil _).symm, rfl⟩
  · rw [if_neg hnil]
    obtain ⟨added, hsubflows, hpaths⟩ := connectPaths_subflows isPathValid s.interfaces
      ((List.range s.interfaces.length).flatMap fun i => destination.map fun a => (i, a))
      { s.obj with ssrc, destAddr := destination } s.world
    exact ⟨added, hsubflows, hpaths.trans (filter_pairs _ _)⟩

/-- In every run the ids go up from subflow to subflow. -/
theorem keptByData_countedIds : KeptByData (fun _ => True) (fun _ _ => True) fun _ d => d.CountedIds where
  rr := fun _ d w _ _ pkt id _ _ _ _ h => ⟨trivial, h.change (.onRtcpRrPacket d w pkt id)⟩
  visit := fun _ _ _ _ h => ⟨trivial, h⟩
  sends := by
    intro H d w data ret k sf timestamp r hs h
    obtain ⟨hid, -, -⟩ :=
      sf.sendto_numbers (d.rtpDatagram sf timestamp data) (UInt32.ofNat data.length) ret
    exact ⟨trivial, (h.put hs.subflow hid).change (.of_eq hs.unmoved.subflows hs.unmoved.nextId)⟩
  sendsReport := fun _ _ _ _ _ _ _ hs h =>
    ⟨trivial, h.change (.of_eq hs.unmoved.subflows hs.unmoved.nextId)⟩
  measure := by
    intro H d curtime h
    obtain ⟨hsubflows, hnext⟩ := d.measureStreamBitrate_numbers curtime
    exact ⟨trivial, h.change (.of_eq hsubflows hnext)⟩
  recalc := fun _ _ _ hsfs h => ⟨trivial, h.change (.reweighted hsfs false)⟩
  connect := fun _ _ _ _ h => h.change (.of_eq rfl rfl)
  addSubflow := fun _ _ iface remote w h => h.addSubflow iface remote w

theorem run_countedIds {timestampUnit : ℚ} {w : World} {H : List SenderEvent} {s : Sender}
    (hrun : Run (step isPathValid) (fun _ _ _ => True) (new timestampUnit w) H (some s)) :
    s.obj.CountedIds := by
  have h₀ : (new timestampUnit w).obj.CountedIds := by
    refine ⟨?_, rfl⟩
    intro k sf hk
    cases hk
  exact keptByData_countedIds.run h₀ hrun

end Sender

/-- Every subflow has an id of its own that is not the one of the stream, so that a report on the id
goes to it. -/
structure SenderData.Addressable (d : SenderData) : Prop where
  distinct : (d.subflows.map Subflow.subflowId).Nodup
  nonzero : ∀ sf ∈ d.subflows, sf.subflowId ≠ 0
  reported : ∀ (k : ℕ) (sf : Subflow) (w : World) (pkt : RtcpRrPacket), d.subflows[k]? = some sf →
    (d.onRtcpRrPacket w pkt sf.subflowId).1 =
      { d with
        subflows := d.subflows.set k (sf.processRrPacket pkt w).1
        recalcDistribution := true }

namespace SenderData

variable {d : SenderData}

theorem IdsInOrder.addressable (h : d.IdsInOrder) : d.Addressable where
  distinct := by
    rw [List.nodup_iff_injective_getElem]
    intro j k hjk
    have hj : d.subflows[j.1]? = some d.subflows[j.1] := List.getElem?_eq_getElem _
    have hk : d.subflows[k.1]? = some d.subflows[k.1] := List.getElem?_eq_getElem _
    have hid : d.subflows[j.1].subflowId = d.subflows[k.1].subflowId := by simpa using hjk
    exact Fin.ext (h.index_unique hj hk hid)
  nonzero := by
    intro sf hsf
    obtain ⟨k, hk⟩ := List.getElem?_of_mem hsf
    exact h.id_ne_zero hk
  reported := by
    intro k sf w pkt hk
    have hfirst : d.subflows.findIdx? (fun sf' => sf'.subflowId = sf.subflowId) = some k := by
      obtain ⟨hlt, hget⟩ := List.getElem?_eq_some_iff.mp hk
      rw [List.findIdx?_eq_some_iff_getElem]
      refine ⟨hlt, by simp [hget], ?_⟩
      intro j hj
      have hne : d.subflows[j].subflowId ≠ sf.subflowId := by
        intro heq
        have hindex := h.index_unique (List.getElem?_eq_getElem (hj.trans hlt)) hk heq
        omega
      simpa using hne
    unfold onRtcpRrPacket
    rw [if_neg (h.id_ne_zero hk), hfirst]
    dsimp only
    rw [hk]

/-- The 65536th subflow gets the id of the stream. -/
theorem CountedIds.addressable_iff (h : d.CountedIds) :
    d.Addressable ↔ d.subflows.length ≤ 65535 := by
  constructor
  · intro ha
    by_contra hgt
    have hlt : 65535 < d.subflows.length := by omega
    have hid := h.ids 65535 _ (List.getElem?_eq_getElem hlt)
    exact ha.nonzero _ (List.getElem_mem hlt) hid
  · intro hlen
    exact (idsInOrder_iff.mpr ⟨h, hlen⟩).addressable

end SenderData

namespace Sender

variable {isPathValid : Endpoint → Endpoint → Bool} {timestampUnit : ℚ} {w : World}
  {H : List SenderEvent} {s : Sender}

theorem length_connect (isPathValid : Endpoint → Endpoint → Bool) (s : Sender) (ssrc : UInt32)
    (destination : List Endpoint) :
    (s.connect isPathValid ssrc destination).2.obj.subflows.length =
      s.obj.subflows.length + (validPaths isPathValid s.interfaces destination).length := by
  obtain ⟨added, hsubflows, hpaths⟩ := s.connect_subflows isPathValid ssrc destination
  rw [hsubflows, ← hpaths, List.length_append, List.length_map]

/-- In every run and for every call of `connect` in it, the subflows made are those of the valid
paths; afterwards every subflow has an id of its own exactly when the subflows there were and
the valid paths are at most 65535. -/
theorem connect_addressable_iff
    (hrun : Run (step isPathValid) (fun _ _ _ => True) (new timestampUnit w) H (some s))
    (ssrc : UInt32) (destination : List Endpoint) :
    let s' := (s.connect isPathValid ssrc destination).2
    (∃ added, s'.obj.subflows = s.obj.subflows ++ added ∧
      added.map Subflow.path = validPaths isPathValid s.interfaces destination) ∧
    (s.obj.Addressable ↔ s.obj.subflows.length ≤ 65535) ∧
    (s'.obj.Addressable ↔
      s.obj.subflows.length + (validPaths isPathValid s.interfaces destination).length ≤ 65535) := by
  have hnext := hrun.snoc (.connect ssrc destination) trivial
  refine ⟨s.connect_subflows isPathValid ssrc destination, (run_countedIds hrun).addressable_iff, ?_⟩
  rw [(run_countedIds hnext).addressable_iff, length_connect]

/-- A sender with one interface. -/
def oneInterface : Sender := (new 1 (.ticking 1000)).addInterface ⟨0x0A000001, 22000⟩ true

theorem oneInterface_run (isPathValid : Endpoint → Endpoint → Bool) :
    Run (step isPathValid) (fun _ _ _ => True) (new 1 (.ticking 1000)) [] (some oneInterface) :=
  Run.foldlM (new 1 (.ticking 1000)) [Step.addInterface ⟨0x0A000001, 22000⟩ true]

/-- Two destinations get two ids. -/
theorem oneInterface_addressable :
    (oneInterface.connect (fun _ _ => true) 0xDEAD
      [⟨0x0A000002, 23000⟩, ⟨0x0A000003, 23000⟩]).2.obj.Addressable := by
  obtain ⟨-, -, hiff⟩ := connect_addressable_iff (oneInterface_run fun _ _ => true) 0xDEAD
    [⟨0x0A000002, 23000⟩, ⟨0x0A000003, 23000⟩]
  exact hiff.mpr (by decide)

/-- Connected to 65536 destinations, a sender has a subflow with the id of the stream. -/
theorem connect_id_zero :
    ¬ ∀ (isPathValid : Endpoint → Endpoint → Bool) (timestampUnit : ℚ) (w : World)
      (H : List SenderEvent) (s : Sender),
      Run (step isPathValid) (fun _ _ _ => True) (new timestampUnit w) H (some s) →
        (s.obj.subflows.map Subflow.subflowId).Nodup ∧ ∀ sf ∈ s.obj.subflows, sf.subflowId ≠ 0 := by
  intro h
  let destination : List Endpoint := List.replicate 65536 ⟨0x0A000002, 23000⟩
  have hrun := (oneInterface_run fun _ _ => true).snoc (.connect 0xDEAD destination) trivial
  have hpaths : (validPaths (fun _ _ => true) oneInterface.interfaces destination).length = 65536 := by
    change ([((Interface.new ⟨0x0A000001, 22000⟩), 0)].flatMap fun p : Interface × ℕ =>
      (destination.filter fun _ => true).map fun addr => (p.2, addr)).length = 65536
    rw [List.flatMap_singleton, List.length_map, List.filter_eq_self.mpr fun _ _ => rfl,
      List.length_replicate]
  have hlen : 65535 < (oneInterface.connect (fun _ _ => true) 0xDEAD destination).2.obj.subflows.length := by
    rw [length_connect, hpaths]
    omega
  have hid := (run_countedIds hrun).ids 65535 _ (List.getElem?_eq_getElem hlen)
  obtain ⟨-, hnonzero⟩ := h _ _ _ _ _ hrun
  exact hnonzero _ (List.getElem_mem hlen) hid

end Sender

end Mprtp
