import Mathlib.Data.List.Basic

-- A first-in first-out queue of bounded length. The bound is a field, so a
-- queue that holds more than its capacity cannot be built.
structure BoundedQueue (α : Type) (capacity : Nat) where
  items : List α
  items_le : items.length ≤ capacity
deriving DecidableEq

namespace BoundedQueue

variable {α : Type} {capacity : Nat}

def empty : BoundedQueue α capacity := ⟨[], Nat.zero_le _⟩

-- A send that does not wait: it fails on a full queue.
def send (queue : BoundedQueue α capacity) (item : α) : Bool × BoundedQueue α capacity :=
  if h : queue.items.length < capacity then
    (true, ⟨queue.items ++ [item], by simpa using Nat.succ_le_of_lt h⟩)
  else
    (false, queue)

-- The item is the next one that is received.
def sendToFront (queue : BoundedQueue α capacity) (item : α) : Bool × BoundedQueue α capacity :=
  if h : queue.items.length < capacity then
    (true, ⟨item :: queue.items, Nat.succ_le_of_lt h⟩)
  else
    (false, queue)

-- The item takes the place of all that the queue holds.
def overwrite (item : α) (h : 0 < capacity) : BoundedQueue α capacity := ⟨[item], h⟩

-- A receive that does not wait: `none` on an empty queue.
def receive : BoundedQueue α capacity → Option (α × BoundedQueue α capacity)
  | ⟨[], _⟩ => none
  | ⟨item :: rest, h⟩ => some (item, ⟨rest, Nat.le_of_succ_le h⟩)

@[ext] theorem ext_items {queue other : BoundedQueue α capacity}
    (h : queue.items = other.items) : queue = other := by
  cases queue
  cases other
  simpa using h

@[simp] theorem empty_items : (empty : BoundedQueue α capacity).items = [] := rfl

theorem send_of_lt {queue : BoundedQueue α capacity} (item : α)
    (h : queue.items.length < capacity) :
    (queue.send item).1 = true ∧ (queue.send item).2.items = queue.items ++ [item] := by
  simp [send, h]

theorem send_of_full {queue : BoundedQueue α capacity} (item : α)
    (h : capacity ≤ queue.items.length) : queue.send item = (false, queue) := by
  simp [send, Nat.not_lt.mpr h]

theorem sendToFront_of_lt {queue : BoundedQueue α capacity} (item : α)
    (h : queue.items.length < capacity) :
    (queue.sendToFront item).1 = true ∧ (queue.sendToFront item).2.items = item :: queue.items := by
  simp [sendToFront, h]

theorem sendToFront_of_full {queue : BoundedQueue α capacity} (item : α)
    (h : capacity ≤ queue.items.length) : queue.sendToFront item = (false, queue) := by
  simp [sendToFront, Nat.not_lt.mpr h]

theorem send_of_refused {queue : BoundedQueue α capacity} {item : α}
    (h : (queue.send item).1 = false) : (queue.send item).2 = queue := by
  unfold send at h ⊢
  split at h
  · cases h
  · rename_i hroom
    rw [dif_neg hroom]

-- Whatever the outcome, a send only ever appends the item it was given.
theorem send_items (queue : BoundedQueue α capacity) (item : α) :
    (queue.send item).2.items =
      queue.items ++ if (queue.send item).1 then [item] else [] := by
  unfold send
  split <;> simp

-- While nothing is taken out, the queue holds the first items sent to it.
theorem send_items_take {queue : BoundedQueue α capacity} {sent : List α} (item : α)
    (h : queue.items = sent.take capacity) :
    (queue.send item).2.items = (sent ++ [item]).take capacity := by
  by_cases hroom : sent.length < capacity
  · have hsent : queue.items = sent := by rw [h, List.take_of_length_le (Nat.le_of_lt hroom)]
    have hlen : (sent ++ [item]).length ≤ capacity := by simpa using Nat.succ_le_of_lt hroom
    have hqueue : queue.items.length < capacity := by rw [hsent]; exact hroom
    rw [(send_of_lt item hqueue).2, hsent, List.take_of_length_le hlen]
  · have hfull : queue.items.length = capacity := by
      rw [h, List.length_take]
      omega
    rw [send_of_full item (Nat.le_of_eq hfull.symm), h, List.take_append_of_le_length (by omega)]

theorem receive_eq_none {queue : BoundedQueue α capacity} :
    queue.receive = none ↔ queue.items = [] := by
  rcases queue with ⟨_ | ⟨item, rest⟩, h⟩ <;> simp [receive]

theorem receive_eq_some {queue rest : BoundedQueue α capacity} {item : α} :
    queue.receive = some (item, rest) ↔ queue.items = item :: rest.items := by
  rcases queue with ⟨_ | ⟨first, tail⟩, h⟩
  · simp [receive]
  · constructor
    · intro hr
      simp only [receive, Option.some.injEq, Prod.mk.injEq] at hr
      obtain ⟨rfl, rfl⟩ := hr
      rfl
    · intro hr
      simp only [List.cons.injEq] at hr
      obtain ⟨rfl, rfl⟩ := hr
      rfl

-- A queue of images sends and keeps as the queue of what they are images of.
theorem send_map {β : Type} {images : BoundedQueue β capacity} {queue : BoundedQueue α capacity}
    {f : α → β} (h : images.items = queue.items.map f) (item : α) :
    (images.send (f item)).1 = (queue.send item).1 ∧
      (images.send (f item)).2.items = (queue.send item).2.items.map f := by
  have hlength : images.items.length = queue.items.length := by rw [h, List.length_map]
  by_cases hroom : queue.items.length < capacity
  · obtain ⟨hsent, hitems⟩ := send_of_lt item hroom
    rw [← hlength] at hroom
    obtain ⟨hsent', hitems'⟩ := send_of_lt (f item) hroom
    rw [hsent, hitems, hsent', hitems', h]
    simp
  · have hfull := Nat.not_lt.mp hroom
    rw [send_of_full item hfull]
    rw [← hlength] at hfull
    rw [send_of_full (f item) hfull]
    exact ⟨rfl, h⟩

section Flow

variable {queue rest : BoundedQueue α capacity} {sent received : List α}

-- What was sent is what was received and what still waits, in that order.
theorem send_flow (item : α) (h : sent = received ++ queue.items) :
    sent ++ (if (queue.send item).1 then [item] else []) =
      received ++ (queue.send item).2.items := by
  rw [send_items, h, List.append_assoc]

theorem receive_flow {item : α} (h : sent = received ++ queue.items)
    (hreceive : queue.receive = some (item, rest)) :
    sent = (received ++ [item]) ++ rest.items := by
  rw [h, receive_eq_some.mp hreceive, List.append_assoc]
  rfl

end Flow

end BoundedQueue
