import Mprtp.System.Ends

/-! The calls that the two ends get in a run of the system, with what they log. -/
namespace Mprtp

/-- A log of the system in which every call is noted. -/
abbrev SystemLog := List ((System × System.Step) ⊕ SystemEvent)

def ofSender? : (System × System.Step) ⊕ SystemEvent → Option ((Sender × Sender.Step) ⊕ SenderEvent)
  | .inl (s, .sender e) => some (.inl (s.sender, e))
  | .inr (.sender e) => some (.inr e)
  | _ => none

def ofReceiver? :
    (System × System.Step) ⊕ SystemEvent → Option ((Receiver × Receiver.Step) ⊕ ReceiverEvent)
  | .inl (s, .receiver e) => some (.inl (s.receiver, e))
  | .inr (.receiver e) => some (.inr e)
  | _ => none

/-- The calls of the sender and what it logs. -/
def senderCalls (H : SystemLog) : List ((Sender × Sender.Step) ⊕ SenderEvent) := H.filterMap ofSender?

/-- The calls of the receiver and what it logs. -/
def receiverCalls (H : SystemLog) : List ((Receiver × Receiver.Step) ⊕ ReceiverEvent) :=
  H.filterMap ofReceiver?

section

variable (H : SystemLog)

theorem senderCalls_sender (L : List SenderEvent) :
    senderCalls (H ++ (L.map SystemEvent.sender).map .inr) = senderCalls H ++ L.map .inr := by
  unfold senderCalls
  rw [List.filterMap_append, List.map_map, List.filterMap_map]
  congr 1
  exact congrFun List.filterMap_eq_map L

theorem senderCalls_receiver (L : List ReceiverEvent) :
    senderCalls (H ++ (L.map SystemEvent.receiver).map .inr) = senderCalls H := by
  unfold senderCalls
  rw [List.filterMap_append, List.map_map, List.filterMap_map]
  simp [Function.comp_def, ofSender?]

theorem receiverCalls_sender (L : List SenderEvent) :
    receiverCalls (H ++ (L.map SystemEvent.sender).map .inr) = receiverCalls H := by
  unfold receiverCalls
  rw [List.filterMap_append, List.map_map, List.filterMap_map]
  simp [Function.comp_def, ofReceiver?]

theorem receiverCalls_receiver (L : List ReceiverEvent) :
    receiverCalls (H ++ (L.map SystemEvent.receiver).map .inr) = receiverCalls H ++ L.map .inr := by
  unfold receiverCalls
  rw [List.filterMap_append, List.map_map, List.filterMap_map]
  congr 1
  exact congrFun List.filterMap_eq_map L

end

theorem mem_senderCalls_inl {H : SystemLog} {sender : Sender} {e : Sender.Step} :
    .inl (sender, e) ∈ senderCalls H ↔ ∃ s, s.sender = sender ∧ .inl (s, .sender e) ∈ H := by
  unfold senderCalls
  rw [List.mem_filterMap]
  constructor
  · intro h
    obtain ⟨e', he', heq⟩ := h
    unfold ofSender? at heq
    split at heq
    · cases heq
      exact ⟨_, rfl, he'⟩
    · cases heq
    · cases heq
  · intro h
    obtain ⟨s, rfl, hs⟩ := h
    exact ⟨_, hs, rfl⟩

theorem getElem?_of_mem_take {α : Type} {l : List α} {n : ℕ} {a : α} (h : a ∈ l.take n) :
    ∃ m < n, l[m]? = some a := by
  obtain ⟨m, hm, hget⟩ := List.mem_take_iff_getElem.mp h
  exact ⟨m, hm.trans_le (Nat.min_le_left ..), hget ▸ List.getElem?_eq_getElem _⟩

/-- The calls around an entry of the sender. -/
theorem senderCalls_split {H : SystemLog} {m : ℕ} {e : SenderEvent} (h : H[m]? = some (.inr (.sender e))) :
    senderCalls H = senderCalls (H.take m) ++ .inr e :: senderCalls (H.drop (m + 1)) := by
  obtain ⟨hlen, hget⟩ := List.getElem?_eq_some_iff.mp h
  have hsplit : H = H.take m ++ .inr (.sender e) :: H.drop (m + 1) := by
    rw [← hget, ← List.drop_eq_getElem_cons hlen, List.take_append_drop]
  conv_lhs => rw [hsplit]
  exact List.filterMap_append

/-- The calls around an entry of the receiver. -/
theorem receiverCalls_split {H : SystemLog} {m : ℕ} {e : ReceiverEvent}
    (h : H[m]? = some (.inr (.receiver e))) :
    receiverCalls H = receiverCalls (H.take m) ++ .inr e :: receiverCalls (H.drop (m + 1)) := by
  obtain ⟨hlen, hget⟩ := List.getElem?_eq_some_iff.mp h
  have hsplit : H = H.take m ++ .inr (.receiver e) :: H.drop (m + 1) := by
    rw [← hget, ← List.drop_eq_getElem_cons hlen, List.take_append_drop]
  conv_lhs => rw [hsplit]
  exact List.filterMap_append

theorem told_senderCalls (H : SystemLog) : told (senderCalls H) = bySender (told H) := by
  unfold told senderCalls bySender
  rw [List.filterMap_filterMap, List.filterMap_filterMap]
  refine List.filterMap_congr ?_
  intro e _
  rcases e with ⟨s, e⟩ | e
  · cases e <;> rfl
  · cases e <;> rfl

theorem told_receiverCalls (H : SystemLog) : told (receiverCalls H) = byReceiver (told H) := by
  unfold told receiverCalls byReceiver
  rw [List.filterMap_filterMap, List.filterMap_filterMap]
  refine List.filterMap_congr ?_
  intro e _
  rcases e with ⟨s, e⟩ | e
  · cases e <;> rfl
  · cases e <;> rfl

namespace System

variable {isPathValid : Endpoint → Endpoint → Bool}

section

variable (H : SystemLog) (s : System)

theorem noting_sender_log (e : Sender.Step) : (noting (step isPathValid) s (.sender e)).log =
    [.inl (s, .sender e)] ++ ((Sender.step isPathValid s.sender e).log.map SystemEvent.sender).map .inr := by
  rw [noting_log, step_sender_log]

theorem noting_receiver_log (e : Receiver.Step) : (noting (step isPathValid) s (.receiver e)).log =
    [.inl (s, .receiver e)] ++ ((Receiver.step s.receiver e).log.map SystemEvent.receiver).map .inr := by
  rw [noting_log, step_receiver_log]

theorem senderCalls_noting_sender (e : Sender.Step) :
    senderCalls (H ++ (noting (step isPathValid) s (.sender e)).log) =
      senderCalls H ++ (noting (Sender.step isPathValid) s.sender e).log := by
  rw [noting_sender_log, ← List.append_assoc, senderCalls_sender, noting_log, ← List.append_assoc]
  congr 1
  exact List.filterMap_append

theorem senderCalls_noting_receiver (e : Receiver.Step) :
    senderCalls (H ++ (noting (step isPathValid) s (.receiver e)).log) = senderCalls H := by
  rw [noting_receiver_log, ← List.append_assoc, senderCalls_receiver]
  unfold senderCalls
  rw [List.filterMap_append]
  exact List.append_nil _

theorem receiverCalls_noting_sender (e : Sender.Step) :
    receiverCalls (H ++ (noting (step isPathValid) s (.sender e)).log) = receiverCalls H := by
  rw [noting_sender_log, ← List.append_assoc, receiverCalls_sender]
  unfold receiverCalls
  rw [List.filterMap_append]
  exact List.append_nil _

theorem receiverCalls_noting_receiver (e : Receiver.Step) :
    receiverCalls (H ++ (noting (step isPathValid) s (.receiver e)).log) =
      receiverCalls H ++ (noting Receiver.step s.receiver e).log := by
  rw [noting_receiver_log, ← List.append_assoc, receiverCalls_receiver, noting_log, ← List.append_assoc]
  congr 1
  exact List.filterMap_append

end

variable {ok : SystemLog → System → Step → Prop} {s₀ : System} {H : SystemLog} {r : Option System}

theorem noting_sender_res (s : System) (e : Sender.Step) :
    (noting (step isPathValid) s (.sender e)).res =
      (noting (Sender.step isPathValid) s.sender e).res.map fun sender => { s with sender } :=
  step_sender_res s e

theorem noting_receiver_res (s : System) (e : Receiver.Step) :
    (noting (step isPathValid) s (.receiver e)).res =
      (noting Receiver.step s.receiver e).res.map fun receiver => { s with receiver } :=
  step_receiver_res s e

/-- In a run of the system each end makes a run of its own. -/
theorem noted_run_ends (hrun : Run (noting (step isPathValid)) ok s₀ H r) :
    (∃ r', Run (noting (Sender.step isPathValid)) (fun _ _ _ => True) s₀.sender (senderCalls H) r' ∧
      ∀ s, r = some s → r' = some s.sender) ∧
    ∃ r', Run (noting Receiver.step) (fun _ _ _ => True) s₀.receiver (receiverCalls H) r' ∧
      ∀ s, r = some s → r' = some s.receiver := by
  induction hrun with
  | nil =>
    refine ⟨⟨_, .nil, ?_⟩, ⟨_, .nil, ?_⟩⟩
    · intro s hs
      cases hs
      rfl
    · intro s hs
      cases hs
      rfl
  | @snoc H s e _ _ ih =>
    obtain ⟨⟨rs, hsender, hs⟩, rr, hreceiver, hr⟩ := ih
    obtain rfl := hs s rfl
    obtain rfl := hr s rfl
    cases e with
    | sender e =>
      rw [noting_sender_res, senderCalls_noting_sender, receiverCalls_noting_sender]
      refine ⟨⟨_, hsender.snoc e trivial, ?_⟩, _, hreceiver, ?_⟩
      · intro s' hs'
        obtain ⟨sender, hres, rfl⟩ := Option.map_eq_some_iff.mp hs'
        exact hres
      · intro s' hs'
        obtain ⟨sender, -, rfl⟩ := Option.map_eq_some_iff.mp hs'
        rfl
    | receiver e =>
      rw [noting_receiver_res, senderCalls_noting_receiver, receiverCalls_noting_receiver]
      refine ⟨⟨_, hsender, ?_⟩, _, hreceiver.snoc e trivial, ?_⟩
      · intro s' hs'
        obtain ⟨receiver, -, rfl⟩ := Option.map_eq_some_iff.mp hs'
        rfl
      · intro s' hs'
        obtain ⟨receiver, hres, rfl⟩ := Option.map_eq_some_iff.mp hs'
        exact hres

end System

end Mprtp
