import SpaceBaremetal.Kernel.Queue.Runs

namespace SpaceBaremetal.Queues

open Calls CString

-- How the values of a type are laid out in memory.
structure Layout (α : Type) where
  size : Nat
  encode : α → List (BitVec 8)
  decode : List (BitVec 8) → α
  encode_length : ∀ a, (encode a).length = size
  decode_encode : ∀ a, decode (encode a) = a

inductive ValueUse (α : Type)
  | Send (value : α)
  | Receive
deriving DecidableEq, Repr

inductive ValueAnswer (α : Type)
  | Sent (answer : Bool)
  | Received (value : Option α)
deriving DecidableEq, Repr

variable {α : Type} {length : Nat}

-- Each task has a variable of the type, at `buffer`, that it sends and that it
-- receives into.
def performValue (layout : Layout α) (buffer : Int) (use : ValueUse α)
    (state : Queue × ByteMemory) : Option (ValueAnswer α × Queue × ByteMemory) :=
  match use with
  | .Send value => do
    let memory := store buffer (layout.encode value) state.2
    let (sent, state) ← xQueueGenericSend buffer .queueSEND_TO_BACK state.1 memory
    some (.Sent sent, state)
  | .Receive => do
    let (received, state) ← xQueueReceive buffer state.1 state.2
    let value :=
      if received then some (layout.decode (bytesAt buffer layout.size state.2)) else none
    some (.Received value, state)

-- The queue as the tasks see it.
def serveValue (use : ValueUse α) (queue : BoundedQueue α length) :
    Option (ValueAnswer α × BoundedQueue α length) :=
  match use with
  | .Send value => some (.Sent (queue.send value).1, (queue.send value).2)
  | .Receive =>
    match queue.receive with
    | none => some (.Received none, queue)
    | some (value, rest) => some (.Received (some value), rest)

-- The items of the queue are the values.
structure Carries (layout : Layout α) (storage : Storage length) (state : Queue × ByteMemory)
    (queue : BoundedQueue α length) : Prop where
  size : storage.size = layout.size
  serves : ∃ s, Serves storage state s ∧ s.queue.items = queue.items.map layout.encode

namespace Carries

variable {layout : Layout α} {storage : Storage length} {state : Queue × ByteMemory}
  {queue : BoundedQueue α length} {buffer : Int}

theorem send (h : Carries layout storage state queue) (husable : storage.Usable buffer)
    (value : α) :
    ∃ state', performValue layout buffer (.Send value) state =
        some (.Sent (queue.send value).1, state') ∧
      Carries layout storage state' (queue.send value).2 := by
  obtain ⟨s, hserves, hitems⟩ := h.serves
  have hlength : (layout.encode value).length = storage.size :=
    (layout.encode_length value).trans h.size.symm
  have hapart : storage.Apart buffer (layout.encode value).length := by
    rw [hlength]
    exact husable.2
  have hstored := hserves.store_apart hapart
  have hitem : bytesAt buffer storage.size (store buffer (layout.encode value) s.memory) =
      layout.encode value := by
    rw [← hlength]
    exact bytesAt_store
  have hsend : ItemQueue.send storage .queueSEND_TO_BACK
      (bytesAt buffer storage.size (store buffer (layout.encode value) s.memory)) s.queue =
      some ((s.queue.send (layout.encode value)).1, (s.queue.send (layout.encode value)).2) := by
    rw [hitem]
    rfl
  obtain ⟨state', hcall, hafter⟩ := hstored.send_serves husable hsend
  obtain ⟨hsent, hkept⟩ := BoundedQueue.send_map hitems value
  rw [hsent] at hcall
  refine ⟨state', ?_, h.size, _, hafter, hkept⟩
  simp [performValue, hcall]

theorem receive (h : Carries layout storage state queue) (husable : storage.Usable buffer) :
    ∃ answer state' rest, performValue layout buffer .Receive state = some (answer, state') ∧
      serveValue .Receive queue = some (answer, rest) ∧ Carries layout storage state' rest := by
  obtain ⟨s, hserves, hitems⟩ := h.serves
  obtain ⟨received, state', hcall, hafter⟩ := hserves.receive_serves husable
  have hperform : performValue layout buffer .Receive state = some (.Received
      (if received then some (layout.decode (bytesAt buffer layout.size state'.2)) else none),
      state') := by
    simp [performValue, hcall]
  cases hreceive : queue.receive with
  | none =>
    have hempty : s.queue.receive = none := by
      rw [BoundedQueue.receive_eq_none, hitems, BoundedQueue.receive_eq_none.mp hreceive]
      rfl
    rw [hempty] at hafter
    obtain ⟨rfl, hsame⟩ := hafter
    exact ⟨_, state', queue, hperform, by simp [serveValue, hreceive], h.size, s, hsame, hitems⟩
  | some taken =>
    obtain ⟨value, rest⟩ := taken
    have hvalues := BoundedQueue.receive_eq_some.mp hreceive
    rw [hvalues, List.map_cons] at hitems
    cases htaken : s.queue.receive with
    | none =>
      rw [BoundedQueue.receive_eq_none, hitems] at htaken
      cases htaken
    | some front =>
      obtain ⟨item, kept⟩ := front
      have hfront := BoundedQueue.receive_eq_some.mp htaken
      rw [hitems, List.cons.injEq] at hfront
      obtain ⟨rfl, hkept⟩ := hfront
      rw [htaken] at hafter
      obtain ⟨rfl, hstored⟩ := hafter
      have hlength : (layout.encode value).length = storage.size :=
        (layout.encode_length value).trans h.size.symm
      have hbytes : bytesAt buffer layout.size state'.2 = layout.encode value := by
        have hitem := hstored.item husable.2
        rw [hstored.uxItemSize] at hitem
        rw [← h.size, hitem, ← hlength]
        exact bytesAt_store
      refine ⟨_, state', rest, hperform, ?_, h.size, _, hstored, hkept.symm⟩
      simp [serveValue, hreceive, hbytes, layout.decode_encode]

theorem performValue_serves {use : ValueUse α} {answer : ValueAnswer α}
    {queue' : BoundedQueue α length} (h : Carries layout storage state queue)
    (husable : storage.Usable buffer) (huse : serveValue use queue = some (answer, queue')) :
    ∃ state', performValue layout buffer use state = some (answer, state') ∧
      Carries layout storage state' queue' := by
  cases use with
  | Send value =>
    simp only [serveValue, Option.some.injEq, Prod.mk.injEq] at huse
    obtain ⟨rfl, rfl⟩ := huse
    exact h.send husable value
  | Receive =>
    obtain ⟨answer', state', rest, hperform, hserve, hafter⟩ := h.receive husable
    rw [huse, Option.some.injEq, Prod.mk.injEq] at hserve
    obtain ⟨rfl, rfl⟩ := hserve
    exact ⟨state', hperform, hafter⟩

end Carries

-- A new queue, used through a variable outside of its storage, is the bounded
-- queue of values that the tasks of the firmware count on.
theorem queue_carries_values (layout : Layout α) {pucQueueStorage pxNewQueue buffer : Int}
    {before queue : Queue} {memory : ByteMemory} {uses : List (ValueUse α)}
    {answers : List (ValueAnswer α)} {last : BoundedQueue α length}
    (hnew : prvInitialiseNewQueue length layout.size pucQueueStorage pxNewQueue before =
      some queue)
    (husable : (newStorage length layout.size pucQueueStorage pxNewQueue).Usable buffer)
    (huses : callAll serveValue uses BoundedQueue.empty = some (answers, last)) :
    ∃ state', callAll (performValue layout buffer) uses (queue, memory) =
      some (answers, state') := by
  have hserves : Serves _ (queue, memory) _ := serves_new hnew
  have hempty : Carries layout (newStorage length layout.size pucQueueStorage pxNewQueue)
      (queue, memory) BoundedQueue.empty := ⟨rfl, _, hserves, rfl⟩
  obtain ⟨state', hcalls, -⟩ := callAll_simulates
    (fun _ _ _ _ _ hcarries huse => hcarries.performValue_serves husable huse) hempty huses
  exact ⟨state', hcalls⟩

def byteLayout : Layout (BitVec 8) where
  size := 1
  encode := fun byte => [byte]
  decode := fun bytes => bytes.headD 0
  encode_length := fun _ => rfl
  decode_encode := fun _ => rfl

theorem queue_carries_values_two :
    ∃ queue, prvInitialiseNewQueue 1 1 0x80001000 0x80000f00 clearedQueue = some queue ∧
      ∃ state', callAll (performValue byteLayout 0x80002000)
          [.Receive, .Send 7, .Send 8, .Receive] (queue, fun _ => 0) =
        some ([.Received none, .Sent true, .Sent false, .Received (some 7)], state') := by
  have hnew : prvInitialiseNewQueue 1 byteLayout.size 0x80001000 0x80000f00 clearedQueue =
    some _ := rfl
  have huses : callAll (serveValue (α := BitVec 8)) [.Receive, .Send 7, .Send 8, .Receive]
    (BoundedQueue.empty (α := BitVec 8) : BoundedQueue (BitVec 8) 1) = some (_, _) := rfl
  exact ⟨_, hnew, queue_carries_values byteLayout hnew (by decide) huses⟩

end SpaceBaremetal.Queues
