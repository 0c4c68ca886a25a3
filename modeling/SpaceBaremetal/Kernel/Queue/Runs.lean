import SpaceBaremetal.Kernel.Queue.Refinement
import SpaceBaremetal.Lib.BoundedQueue
import SpaceBaremetal.Lib.Calls

namespace SpaceBaremetal.Queues

open Calls CString

-- What the tasks do with one queue and with their own memory.
inductive Use
  | Write (dest : Int) (bytes : List (BitVec 8))
  | Send (pvItemToQueue : Int) (xCopyPosition : CopyPosition)
  | Receive (pvBuffer : Int)
  | MessagesWaiting
  | SpacesAvailable
deriving DecidableEq, Repr

inductive Answer
  | Done
  | Succeeded (answer : Bool)
  | Count (n : Nat)
deriving DecidableEq, Repr

def perform (use : Use) (state : Queue × ByteMemory) : Option (Answer × Queue × ByteMemory) :=
  match use with
  | .Write dest bytes => some (.Done, state.1, store dest bytes state.2)
  | .Send pvItemToQueue xCopyPosition => do
    let (sent, state) ← xQueueGenericSend pvItemToQueue xCopyPosition state.1 state.2
    some (.Succeeded sent, state)
  | .Receive pvBuffer => do
    let (received, state) ← xQueueReceive pvBuffer state.1 state.2
    some (.Succeeded received, state)
  | .MessagesWaiting => some (.Count (uxQueueMessagesWaiting state.1), state)
  | .SpacesAvailable => some (.Count (uxQueueSpacesAvailable state.1), state)

-- What a queue is for: items of bytes in a list of bounded length, apart from
-- the memory of the tasks.
structure ItemQueue (length : Nat) where
  queue : BoundedQueue (List (BitVec 8)) length
  memory : ByteMemory

-- The address of the storage of a queue, and how long its items are.
structure Storage (length : Nat) where
  head : Int
  size : Nat

namespace Storage

variable {length : Nat}

def tail (storage : Storage length) : Int := slotAddress storage.head storage.size length

-- Bytes that the tasks may write.
def Apart (storage : Storage length) (start : Int) (n : Nat) : Prop :=
  start + n ≤ storage.head ∨ storage.tail ≤ start

instance (storage : Storage length) (start : Int) (n : Nat) : Decidable (storage.Apart start n) :=
  inferInstanceAs (Decidable (_ ∨ _))

-- Where the tasks may have an item.
def Usable (storage : Storage length) (pointer : Int) : Prop :=
  (pointer = NULL → storage.size = 0) ∧ storage.Apart pointer storage.size

instance (storage : Storage length) (pointer : Int) : Decidable (storage.Usable pointer) :=
  inferInstanceAs (Decidable (_ ∧ _))

end Storage

namespace ItemQueue

variable {length : Nat}

-- An overwrite is for queues of one item, and for items that have bytes: an
-- item without bytes would be counted twice.
def send (storage : Storage length) (xCopyPosition : CopyPosition) (item : List (BitVec 8))
    (queue : BoundedQueue (List (BitVec 8)) length) :
    Option (Bool × BoundedQueue (List (BitVec 8)) length) :=
  match xCopyPosition with
  | .queueSEND_TO_BACK => some (queue.send item)
  | .queueSEND_TO_FRONT => some (queue.sendToFront item)
  | .queueOVERWRITE =>
    if h : length = 1 ∧ storage.size ≠ 0 then
      some (true, BoundedQueue.overwrite item (h.1 ▸ Nat.one_pos))
    else
      none

-- `none` when the tasks must not do this.
def perform (storage : Storage length) (use : Use) (s : ItemQueue length) :
    Option (Answer × ItemQueue length) :=
  match use with
  | .Write dest bytes =>
    if storage.Apart dest bytes.length then
      some (.Done, { s with memory := store dest bytes s.memory })
    else
      none
  | .Send pvItemToQueue xCopyPosition =>
    if storage.Usable pvItemToQueue then do
      let item := bytesAt pvItemToQueue storage.size s.memory
      let (sent, queue) ← send storage xCopyPosition item s.queue
      some (.Succeeded sent, { s with queue := queue })
    else
      none
  | .Receive pvBuffer =>
    if storage.Usable pvBuffer then
      match s.queue.receive with
      | none => some (.Succeeded false, s)
      | some (item, queue) => some (.Succeeded true, ⟨queue, store pvBuffer item s.memory⟩)
    else
      none
  | .MessagesWaiting => some (.Count s.queue.items.length, s)
  | .SpacesAvailable => some (.Count (length - s.queue.items.length), s)

end ItemQueue

-- The queue holds these items, and the tasks have this memory.
structure Serves {length : Nat} (storage : Storage length) (state : Queue × ByteMemory)
    (s : ItemQueue length) : Prop where
  pcHead : state.1.pcHead = storage.head
  uxItemSize : state.1.uxItemSize = storage.size
  holds : ∃ ring : SlotRing (List (BitVec 8)) length,
    Holds state.1 state.2 ring ∧ ring.items = s.queue.items
  memory : ∀ a, a < storage.head ∨ storage.tail ≤ a → state.2 a = s.memory a

namespace Serves

variable {length : Nat} {storage : Storage length} {state : Queue × ByteMemory}
  {s : ItemQueue length}

theorem pcTail (h : Serves storage state s) : state.1.pcTail = storage.tail := by
  obtain ⟨ring, hholds, -⟩ := h.holds
  rw [hholds.pcTail, h.pcHead, h.uxItemSize]
  rfl

theorem count (h : Serves storage state s) :
    state.1.uxMessagesWaiting = s.queue.items.length ∧ state.1.uxLength = length := by
  obtain ⟨ring, hholds, hitems⟩ := h.holds
  rw [← hitems, ring.items_length]
  exact ⟨hholds.uxMessagesWaiting, hholds.uxLength⟩

theorem item (h : Serves storage state s) {pointer : Int}
    (hapart : storage.Apart pointer storage.size) :
    bytesAt pointer state.1.uxItemSize state.2 = bytesAt pointer storage.size s.memory := by
  rw [h.uxItemSize]
  apply bytesAt_congr
  intro a ha ha'
  unfold Storage.Apart at hapart
  exact h.memory a (by omega)

-- A send that copies the item to the storage.
theorem sent (h : Serves storage state s) {after : Queue × ByteMemory}
    {queue : BoundedQueue _ length}
    (hframe : Frame state after)
    (hholds : ∃ ring : SlotRing (List (BitVec 8)) length,
      Holds after.1 after.2 ring ∧ ring.items = queue.items) :
    Serves storage after { s with queue := queue } where
  pcHead := hframe.pcHead.trans h.pcHead
  uxItemSize := hframe.uxItemSize.trans h.uxItemSize
  holds := hholds
  memory := by
    intro a ha
    have houtside := hframe.outside a
    rw [h.pcHead, h.pcTail] at houtside
    rw [houtside ha]
    exact h.memory a ha

-- What the tasks write reaches their memory and nothing else.
theorem store_apart (h : Serves storage state s) {dest : Int} {bytes : List (BitVec 8)}
    (hapart : storage.Apart dest bytes.length) :
    Serves storage (state.1, store dest bytes state.2)
      { s with memory := store dest bytes s.memory } where
  pcHead := h.pcHead
  uxItemSize := h.uxItemSize
  holds := by
    obtain ⟨ring, hholds, hitems⟩ := h.holds
    refine ⟨ring, hholds.store_apart ?_, hitems⟩
    rw [h.pcHead, h.pcTail]
    exact hapart
  memory := by
    intro a ha
    simp only [store, h.memory a ha]

theorem apart (h : Serves storage state s) {pointer : Int} (husable : storage.Usable pointer) :
    state.1.Apart pointer := by
  unfold Queue.Apart
  rw [h.uxItemSize, h.pcHead, h.pcTail]
  exact husable.2

-- The assertion on a pointer to an item.
theorem pointer_asserted (h : Serves storage state s) {pointer : Int}
    (husable : storage.Usable pointer) :
    ¬(pointer = NULL ∧ state.1.uxItemSize ≠ 0) := by
  rw [h.uxItemSize]
  rintro ⟨hnull, hsize⟩
  exact hsize (husable.1 hnull)

variable {answer : Answer} {s' : ItemQueue length} {pvItemToQueue pvBuffer : Int}

theorem sendToBack (h : Serves storage state s) (husable : storage.Usable pvItemToQueue)
    (hroom : s.queue.items.length < length) :
    Serves storage (prvCopyDataToQueue pvItemToQueue .queueSEND_TO_BACK state.1 state.2)
      { s with queue := (s.queue.send (bytesAt pvItemToQueue storage.size s.memory)).2 } := by
  obtain ⟨ring, hholds, hitems⟩ := h.holds
  have hcount : ring.count < length := by rwa [← hitems, ring.items_length] at hroom
  refine h.sent (hholds.frame_sendToBack hcount)
    ⟨_, hholds.sendToBack hcount (h.apart husable), ?_⟩
  rw [ring.items_pushBack, hitems, h.item husable.2, (BoundedQueue.send_of_lt _ hroom).2]

theorem sendToFront (h : Serves storage state s) (husable : storage.Usable pvItemToQueue)
    (hroom : s.queue.items.length < length) :
    Serves storage (prvCopyDataToQueue pvItemToQueue .queueSEND_TO_FRONT state.1 state.2)
      { s with queue :=
          (s.queue.sendToFront (bytesAt pvItemToQueue storage.size s.memory)).2 } := by
  obtain ⟨ring, hholds, hitems⟩ := h.holds
  have hcount : ring.count < length := by rwa [← hitems, ring.items_length] at hroom
  refine h.sent hholds.frame_sendToFront
    ⟨_, hholds.sendToFront hcount (h.apart husable), ?_⟩
  rw [ring.items_pushFront, hitems, h.item husable.2, (BoundedQueue.sendToFront_of_lt _ hroom).2]

theorem overwrite {storage : Storage 1} {s : ItemQueue 1} (h : Serves storage state s)
    (husable : storage.Usable pvItemToQueue) (hsize : storage.size ≠ 0) :
    Serves storage (prvCopyDataToQueue pvItemToQueue .queueOVERWRITE state.1 state.2)
      { s with queue :=
          BoundedQueue.overwrite (bytesAt pvItemToQueue storage.size s.memory) Nat.one_pos } := by
  obtain ⟨ring, hholds, -⟩ := h.holds
  obtain ⟨left, hleft, hholds⟩ := hholds.popOnly
  have hcount : left.count < 1 := by
    rw [← left.items_length, hleft]
    exact Nat.one_pos
  rw [prvCopyDataToQueue_overwrite (by rwa [h.uxItemSize])]
  have hframe : Frame _ (prvCopyDataToQueue pvItemToQueue .queueSEND_TO_FRONT _ state.2) :=
    hholds.frame_sendToFront
  refine h.sent ⟨hframe.pcHead, hframe.uxItemSize, hframe.outside⟩
    ⟨_, hholds.sendToFront hcount (h.apart husable), ?_⟩
  rw [left.items_pushFront, hleft]
  exact congrArg (· :: []) (h.item husable.2)

theorem receive (h : Serves storage state s) (husable : storage.Usable pvBuffer)
    {item : List (BitVec 8)} {rest : BoundedQueue (List (BitVec 8)) length}
    (hreceive : s.queue.receive = some (item, rest)) :
    Serves storage
      ({ (prvCopyDataFromQueue pvBuffer state.1 state.2).1 with
          uxMessagesWaiting := state.1.uxMessagesWaiting - 1 },
        (prvCopyDataFromQueue pvBuffer state.1 state.2).2)
      ⟨rest, store pvBuffer item s.memory⟩ := by
  obtain ⟨ring, hholds, hitems⟩ := h.holds
  have hqueue : ring.items = item :: rest.items :=
    hitems.trans (BoundedQueue.receive_eq_some.mp hreceive)
  have hcount : 0 < ring.count := by
    rw [← ring.items_length, hqueue]
    exact Nat.succ_pos _
  have hpop := ring.items_pop hcount
  rw [hqueue, List.cons.injEq] at hpop
  obtain ⟨hitem, hrest⟩ := hpop
  have hafter := hholds.receive hcount (h.apart husable)
  rw [hholds.copyFrom (h.apart husable)] at hafter ⊢
  refine ⟨h.pcHead, h.uxItemSize, ⟨_, hafter, hrest.symm⟩, ?_⟩
  intro a ha
  simp only [store, h.memory a ha, hitem]

-- A send that is refused by a full queue and copies the item otherwise.
theorem send_asks_for_room {xCopyPosition : CopyPosition}
    {result : Bool × BoundedQueue (List (BitVec 8)) length} (h : Serves storage state s)
    (husable : storage.Usable pvItemToQueue) (hposition : xCopyPosition ≠ .queueOVERWRITE)
    (hfull : length ≤ s.queue.items.length → result = (false, s.queue))
    (hroom : s.queue.items.length < length → result.1 = true ∧
      Serves storage (prvCopyDataToQueue pvItemToQueue xCopyPosition state.1 state.2)
        { s with queue := result.2 }) :
    ∃ state', xQueueGenericSend pvItemToQueue xCopyPosition state.1 state.2 =
        some (result.1, state') ∧ Serves storage state' { s with queue := result.2 } := by
  have hpointer := h.pointer_asserted husable
  obtain ⟨hwaiting, hbound⟩ := h.count
  by_cases hlt : s.queue.items.length < length
  · obtain ⟨hsent, hafter⟩ := hroom hlt
    rw [← hwaiting, ← hbound] at hlt
    rw [hsent]
    exact ⟨_, xQueueGenericSend_room hpointer (fun hover => hposition hover.1) (.inl hlt), hafter⟩
  · rw [hfull (Nat.not_lt.mp hlt)]
    rw [← hwaiting, ← hbound] at hlt
    exact ⟨_, xQueueGenericSend_full hpointer hposition hlt, h⟩

theorem send_serves {xCopyPosition : CopyPosition} {sent : Bool}
    {queue : BoundedQueue (List (BitVec 8)) length} (h : Serves storage state s)
    (husable : storage.Usable pvItemToQueue)
    (hsend : ItemQueue.send storage xCopyPosition (bytesAt pvItemToQueue storage.size s.memory)
      s.queue = some (sent, queue)) :
    ∃ state', xQueueGenericSend pvItemToQueue xCopyPosition state.1 state.2 =
        some (sent, state') ∧ Serves storage state' { s with queue := queue } := by
  cases xCopyPosition with
  | queueSEND_TO_BACK =>
    have hresult := h.send_asks_for_room husable (by simp) (BoundedQueue.send_of_full _)
      fun hroom => ⟨(BoundedQueue.send_of_lt _ hroom).1, h.sendToBack husable hroom⟩
    rwa [Option.some.inj hsend] at hresult
  | queueSEND_TO_FRONT =>
    have hresult := h.send_asks_for_room husable (by simp) (BoundedQueue.sendToFront_of_full _)
      fun hroom => ⟨(BoundedQueue.sendToFront_of_lt _ hroom).1, h.sendToFront husable hroom⟩
    rwa [Option.some.inj hsend] at hresult
  | queueOVERWRITE =>
    -- an overwrite does not ask for room
    simp only [ItemQueue.send, Option.dite_none_right_eq_some, Option.some.injEq,
      Prod.mk.injEq] at hsend
    obtain ⟨⟨rfl, hsize⟩, rfl, rfl⟩ := hsend
    obtain ⟨-, hbound⟩ := h.count
    exact ⟨_, xQueueGenericSend_room (h.pointer_asserted husable) (by simp [hbound]) (.inr rfl),
      h.overwrite husable hsize⟩

theorem receive_serves (h : Serves storage state s) (husable : storage.Usable pvBuffer) :
    ∃ received state', xQueueReceive pvBuffer state.1 state.2 = some (received, state') ∧
      match s.queue.receive with
      | none => received = false ∧ Serves storage state' s
      | some (item, queue) =>
        received = true ∧ Serves storage state' ⟨queue, store pvBuffer item s.memory⟩ := by
  obtain ⟨hwaiting, -⟩ := h.count
  rw [xQueueReceive_asserted (h.pointer_asserted husable), hwaiting]
  cases hreceive : s.queue.receive with
  | none =>
    have hempty := BoundedQueue.receive_eq_none.mp hreceive
    rw [if_neg (by simp [hempty])]
    exact ⟨_, _, rfl, rfl, h⟩
  | some taken =>
    obtain ⟨item, queue⟩ := taken
    have hitems := BoundedQueue.receive_eq_some.mp hreceive
    have hafter := h.receive husable hreceive
    rw [hwaiting] at hafter
    rw [if_pos (by simp [hitems])]
    exact ⟨_, _, rfl, rfl, hafter⟩

-- One use gives the answer of the bounded list.
theorem perform_serves {use : Use} (hlength : length < 2 ^ 64) (h : Serves storage state s)
    (huse : ItemQueue.perform storage use s = some (answer, s')) :
    ∃ state', perform use state = some (answer, state') ∧ Serves storage state' s' := by
  obtain ⟨hwaiting, hbound⟩ := h.count
  cases use with
  | Write dest bytes =>
    simp only [ItemQueue.perform, Option.ite_none_right_eq_some, Option.some.injEq,
      Prod.mk.injEq] at huse
    obtain ⟨hapart, rfl, rfl⟩ := huse
    exact ⟨_, rfl, h.store_apart hapart⟩
  | Send pvItemToQueue xCopyPosition =>
    simp only [ItemQueue.perform, Option.ite_none_right_eq_some, Option.bind_eq_bind,
      Option.bind_eq_some_iff, Prod.exists, Option.some.injEq, Prod.mk.injEq] at huse
    obtain ⟨husable, sent, queue, hsend, rfl, rfl⟩ := huse
    obtain ⟨state', hcall, hafter⟩ := h.send_serves husable hsend
    refine ⟨state', ?_, hafter⟩
    simp [perform, hcall]
  | Receive pvBuffer =>
    simp only [ItemQueue.perform, Option.ite_none_right_eq_some] at huse
    obtain ⟨husable, huse⟩ := huse
    obtain ⟨received, state', hcall, hafter⟩ := h.receive_serves husable
    have hperform : perform (.Receive pvBuffer) state = some (.Succeeded received, state') := by
      simp [perform, hcall]
    split at huse
    · rename_i hnone
      simp only [Option.some.injEq, Prod.mk.injEq] at huse
      obtain ⟨rfl, rfl⟩ := huse
      rw [hnone] at hafter
      obtain ⟨rfl, hserves⟩ := hafter
      exact ⟨state', hperform, hserves⟩
    · rename_i item queue hsome
      simp only [Option.some.injEq, Prod.mk.injEq] at huse
      obtain ⟨rfl, rfl⟩ := huse
      rw [hsome] at hafter
      obtain ⟨rfl, hserves⟩ := hafter
      exact ⟨state', hperform, hserves⟩
  | MessagesWaiting =>
    simp only [ItemQueue.perform, Option.some.injEq, Prod.mk.injEq] at huse
    obtain ⟨rfl, rfl⟩ := huse
    refine ⟨state, ?_, h⟩
    rw [← hwaiting]
    rfl
  | SpacesAvailable =>
    simp only [ItemQueue.perform, Option.some.injEq, Prod.mk.injEq] at huse
    obtain ⟨rfl, rfl⟩ := huse
    have hle := s.queue.items_le
    have hspaces : uxQueueSpacesAvailable state.1 = length - s.queue.items.length := by
      rw [uxQueueSpacesAvailable, hwaiting, hbound]
      omega
    refine ⟨state, ?_, h⟩
    rw [← hspaces]
    rfl

end Serves

-- The storage of a new queue; one that has no bytes is at the queue itself.
def newStorage (uxQueueLength uxItemSize : Nat) (pucQueueStorage pxNewQueue : Int) :
    Storage uxQueueLength where
  head := if uxItemSize = 0 then pxNewQueue else pucQueueStorage
  size := uxItemSize

section New

variable {uxQueueLength uxItemSize : Nat} {pucQueueStorage pxNewQueue : Int}
  {before queue : Queue} {memory : ByteMemory}

theorem serves_new
    (hnew : prvInitialiseNewQueue uxQueueLength uxItemSize pucQueueStorage pxNewQueue before =
      some queue) :
    Serves (newStorage uxQueueLength uxItemSize pucQueueStorage pxNewQueue) (queue, memory)
      ⟨BoundedQueue.empty, memory⟩ := by
  obtain ⟨hhead, hsize, hholds⟩ := holds_xQueueGenericReset memory hnew
  exact ⟨hhead, hsize, hholds, fun _ _ => rfl⟩

-- Whatever the tasks do with a new queue, they get the answers and the items of
-- a list of bounded length, and no byte outside of the storage is changed but
-- by them.
theorem queue_serves_bounded_list {uses : List Use} {answers : List Answer}
    {s : ItemQueue uxQueueLength} (hlength : uxQueueLength < 2 ^ 64)
    (hnew : prvInitialiseNewQueue uxQueueLength uxItemSize pucQueueStorage pxNewQueue before =
      some queue)
    (huses : callAll
      (ItemQueue.perform (newStorage uxQueueLength uxItemSize pucQueueStorage pxNewQueue)) uses
      ⟨BoundedQueue.empty, memory⟩ = some (answers, s)) :
    ∃ queue' memory', callAll perform uses (queue, memory) = some (answers, queue', memory') ∧
      ∀ a, a < queue.pcHead ∨ queue.pcTail ≤ a → memory' a = s.memory a := by
  have hserves : Serves _ (queue, memory) _ := serves_new hnew
  obtain ⟨state', hcalls, hafter⟩ :=
    callAll_simulates (fun _ _ _ _ _ hrel huse => hrel.perform_serves hlength huse) hserves huses
  refine ⟨state'.1, state'.2, hcalls, ?_⟩
  intro a ha
  have hhead : queue.pcHead = _ := hserves.pcHead
  have htail : queue.pcTail = _ := hserves.pcTail
  rw [hhead, htail] at ha
  exact hafter.memory a ha

-- Two items of two bytes are sent, one of them to the front, and a third does
-- not fit; what is received is the one that was sent to the front.
def sendsAndReceive : List Use := [
  .Write 0x80002000 [1, 2], .Send 0x80002000 .queueSEND_TO_BACK,
  .Write 0x80002000 [3, 4], .Send 0x80002000 .queueSEND_TO_FRONT,
  .Send 0x80002000 .queueSEND_TO_BACK, .Receive 0x80002010, .MessagesWaiting]

def clearedQueue : Queue := ⟨0, 0, 0, 0, 0, 0, 0, 0, 0⟩

theorem queue_serves_bounded_list_two :
    ∃ queue, prvInitialiseNewQueue 2 2 0x80001000 0x80000f00 clearedQueue = some queue ∧
      ∃ queue' memory', callAll perform sendsAndReceive (queue, fun _ => 0) =
          some ([.Done, .Succeeded true, .Done, .Succeeded true, .Succeeded false,
            .Succeeded true, .Count 1], queue', memory') ∧
        memory' 0x80002010 = 3 ∧ memory' 0x80002011 = 4 := by
  have huses : callAll (ItemQueue.perform (newStorage 2 2 0x80001000 0x80000f00)) sendsAndReceive
    ⟨BoundedQueue.empty, fun _ => 0⟩ = some (_, _) := rfl
  have hnew : prvInitialiseNewQueue 2 2 0x80001000 0x80000f00 clearedQueue = some _ := rfl
  obtain ⟨queue', memory', hcalls, houtside⟩ := queue_serves_bounded_list (by decide) hnew huses
  exact ⟨_, hnew, queue', memory', hcalls, (houtside _ (by decide)).trans (by decide),
    (houtside _ (by decide)).trans (by decide)⟩

end New

end SpaceBaremetal.Queues
