import Mprtp.System

/-! The runs that the two ends make in a run of the system. -/
namespace Mprtp

namespace SystemEvent

def ofSender? : SystemEvent → Option SenderEvent
  | .sender e => some e
  | .receiver _ => none

def ofReceiver? : SystemEvent → Option ReceiverEvent
  | .sender _ => none
  | .receiver e => some e

end SystemEvent

/-- The log of the sender alone. -/
def bySender (H : List SystemEvent) : List SenderEvent := H.filterMap SystemEvent.ofSender?

/-- The log of the receiver alone. -/
def byReceiver (H : List SystemEvent) : List ReceiverEvent := H.filterMap SystemEvent.ofReceiver?

section

variable (H : List SystemEvent)

@[simp] theorem bySender_map_sender (L : List SenderEvent) :
    bySender (H ++ L.map .sender) = bySender H ++ L := by
  unfold bySender
  rw [List.filterMap_append, List.filterMap_map]
  congr 1
  exact List.filterMap_some

@[simp] theorem bySender_map_receiver (L : List ReceiverEvent) :
    bySender (H ++ L.map .receiver) = bySender H := by
  unfold bySender
  rw [List.filterMap_append, List.filterMap_map]
  simp [Function.comp_def, SystemEvent.ofSender?]

@[simp] theorem byReceiver_map_sender (L : List SenderEvent) :
    byReceiver (H ++ L.map .sender) = byReceiver H := by
  unfold byReceiver
  rw [List.filterMap_append, List.filterMap_map]
  simp [Function.comp_def, SystemEvent.ofReceiver?]

@[simp] theorem byReceiver_map_receiver (L : List ReceiverEvent) :
    byReceiver (H ++ L.map .receiver) = byReceiver H ++ L := by
  unfold byReceiver
  rw [List.filterMap_append, List.filterMap_map]
  congr 1
  exact List.filterMap_some

end

theorem mem_bySender {H : List SystemEvent} {e : SenderEvent} : e ∈ bySender H ↔ .sender e ∈ H := by
  unfold bySender
  rw [List.mem_filterMap]
  constructor
  · intro h
    obtain ⟨e', he', heq⟩ := h
    cases e' with
    | sender e' =>
      cases heq
      exact he'
    | receiver e' => cases heq
  · exact fun h => ⟨_, h, rfl⟩

theorem mem_byReceiver {H : List SystemEvent} {e : ReceiverEvent} :
    e ∈ byReceiver H ↔ .receiver e ∈ H := by
  unfold byReceiver
  rw [List.mem_filterMap]
  constructor
  · intro h
    obtain ⟨e', he', heq⟩ := h
    cases e' with
    | sender e' => cases heq
    | receiver e' =>
      cases heq
      exact he'
  · exact fun h => ⟨_, h, rfl⟩

namespace System

section

variable {isPathValid : Endpoint → Endpoint → Bool}

theorem step_sender (s : System) (e : Sender.Step) : step isPathValid s (.sender e) =
    (fun sender => { s with sender }) <$> (Sender.step isPathValid s.sender e).mapLog .sender := by
  rw [← bind_pure_comp]
  rfl

theorem step_receiver (s : System) (e : Receiver.Step) : step isPathValid s (.receiver e) =
    (fun receiver => { s with receiver }) <$> (Receiver.step s.receiver e).mapLog .receiver := by
  rw [← bind_pure_comp]
  rfl

theorem step_sender_log (s : System) (e : Sender.Step) : (step isPathValid s (.sender e)).log =
    (Sender.step isPathValid s.sender e).log.map .sender := by
  rw [step_sender, Exec.log_map]
  rfl

theorem step_sender_res (s : System) (e : Sender.Step) : (step isPathValid s (.sender e)).res =
    (Sender.step isPathValid s.sender e).res.map fun sender => { s with sender } := by
  rw [step_sender, Exec.res_map]
  rfl

theorem step_receiver_log (s : System) (e : Receiver.Step) : (step isPathValid s (.receiver e)).log =
    (Receiver.step s.receiver e).log.map .receiver := by
  rw [step_receiver, Exec.log_map]
  rfl

theorem step_receiver_res (s : System) (e : Receiver.Step) : (step isPathValid s (.receiver e)).res =
    (Receiver.step s.receiver e).res.map fun receiver => { s with receiver } := by
  rw [step_receiver, Exec.res_map]
  rfl

variable {ok : List SystemEvent → System → Step → Prop} {s₀ : System} {H : List SystemEvent}
  {r : Option System}

/-- In a run of the system each end makes a run of its own. -/
theorem run_ends (hrun : Run (step isPathValid) ok s₀ H r) :
    (∃ r', Run (Sender.step isPathValid) (fun _ _ _ => True) s₀.sender (bySender H) r' ∧
      ∀ s, r = some s → r' = some s.sender) ∧
    ∃ r', Run Receiver.step (fun _ _ _ => True) s₀.receiver (byReceiver H) r' ∧
      ∀ s, r = some s → r' = some s.receiver := by
  induction hrun with
  | nil =>
    refine ⟨⟨_, .nil, ?_⟩, ⟨_, .nil, ?_⟩⟩
    · intro s hs
      cases hs
      rfl
    · intro s hs
      cases hs
      rfl
  | @snoc H s e _ _ ih =>
    obtain ⟨⟨rs, hsender, hs⟩, rr, hreceiver, hr⟩ := ih
    obtain rfl := hs s rfl
    obtain rfl := hr s rfl
    cases e with
    | sender e =>
      rw [step_sender_log, step_sender_res, bySender_map_sender, byReceiver_map_sender]
      refine ⟨⟨_, hsender.snoc e trivial, ?_⟩, _, hreceiver, ?_⟩
      · intro s' hs'
        obtain ⟨sender, hres, rfl⟩ := Option.map_eq_some_iff.mp hs'
        exact hres
      · intro s' hs'
        obtain ⟨sender, -, rfl⟩ := Option.map_eq_some_iff.mp hs'
        rfl
    | receiver e =>
      rw [step_receiver_log, step_receiver_res, bySender_map_receiver, byReceiver_map_receiver]
      refine ⟨⟨_, hsender, ?_⟩, _, hreceiver.snoc e trivial, ?_⟩
      · intro s' hs'
        obtain ⟨receiver, -, rfl⟩ := Option.map_eq_some_iff.mp hs'
        rfl
      · intro s' hs'
        obtain ⟨receiver, hres, rfl⟩ := Option.map_eq_some_iff.mp hs'
        exact hres

end

end System

end Mprtp
