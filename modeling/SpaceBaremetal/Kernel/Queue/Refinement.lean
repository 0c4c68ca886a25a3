import SpaceBaremetal.Kernel.Queue
import SpaceBaremetal.Lib.SlotRing

namespace SpaceBaremetal.Queues

open CString

-- Where the item in a slot of the storage begins.
def slotAddress (head : Int) (size i : Nat) : Int := head + (i * size : Nat)

section Slots

variable {head : Int} {size i j length : Nat}

theorem slotAddress_zero : slotAddress head size 0 = head := by simp [slotAddress]

theorem slotAddress_succ : slotAddress head size (i + 1) = slotAddress head size i + size := by
  simp only [slotAddress, Nat.succ_mul]
  omega

theorem slotAddress_mono (h : i ≤ j) : slotAddress head size i ≤ slotAddress head size j := by
  have hle : i * size ≤ j * size := Nat.mul_le_mul_right size h
  simp only [slotAddress]
  omega

theorem slotAddress_le_iff (hsize : 0 < size) :
    slotAddress head size i ≤ slotAddress head size j ↔ i ≤ j := by
  have hle : i * size ≤ j * size ↔ i ≤ j := Nat.mul_le_mul_right_iff hsize
  simp only [slotAddress]
  omega

-- Two slots have no byte in common.
theorem slotAddress_apart (h : i ≠ j) :
    slotAddress head size i + size ≤ slotAddress head size j ∨
      slotAddress head size j + size ≤ slotAddress head size i := by
  simp only [← slotAddress_succ]
  obtain hlt | hlt := Nat.lt_or_gt_of_ne h
  · exact .inl (slotAddress_mono hlt)
  · exact .inr (slotAddress_mono hlt)

end Slots

-- An overwrite is a send to the front of a queue that holds one item less.
theorem prvCopyDataToQueue_overwrite {queue : Queue} {memory : ByteMemory} {pvItemToQueue : Int}
    (hsize : queue.uxItemSize ≠ 0) :
    prvCopyDataToQueue pvItemToQueue .queueOVERWRITE queue memory =
      prvCopyDataToQueue pvItemToQueue .queueSEND_TO_FRONT
        { queue with uxMessagesWaiting := queue.uxMessagesWaiting - 1 } memory := by
  by_cases hwaiting : queue.uxMessagesWaiting > 0
  · simp [prvCopyDataToQueue, hsize, hwaiting]
  · have hnone : queue.uxMessagesWaiting = 0 := by omega
    simp [prvCopyDataToQueue, hsize, hnone]

section Asserted

variable {queue : Queue} {memory : ByteMemory} {pointer : Int} {xCopyPosition : CopyPosition}

theorem xQueueGenericSend_room (hpointer : ¬(pointer = NULL ∧ queue.uxItemSize ≠ 0))
    (hposition : ¬(xCopyPosition = .queueOVERWRITE ∧ queue.uxLength ≠ 1))
    (hroom : queue.uxMessagesWaiting < queue.uxLength ∨ xCopyPosition = .queueOVERWRITE) :
    xQueueGenericSend pointer xCopyPosition queue memory =
      some (true, prvCopyDataToQueue pointer xCopyPosition queue memory) := by
  simp only [xQueueGenericSend, Heap.configASSERT, hpointer, hposition, hroom, not_false_eq_true,
    decide_true, if_true, Option.bind_eq_bind, Option.bind_some]

theorem xQueueGenericSend_full (hpointer : ¬(pointer = NULL ∧ queue.uxItemSize ≠ 0))
    (hposition : xCopyPosition ≠ .queueOVERWRITE)
    (hfull : ¬queue.uxMessagesWaiting < queue.uxLength) :
    xQueueGenericSend pointer xCopyPosition queue memory = some (false, queue, memory) := by
  simp only [xQueueGenericSend, Heap.configASSERT, hpointer, hposition, hfull, false_and, or_self,
    not_false_eq_true, decide_true, if_true, if_false, Option.bind_eq_bind, Option.bind_some]

theorem xQueueReceive_asserted (hpointer : ¬(pointer = NULL ∧ queue.uxItemSize ≠ 0)) :
    xQueueReceive pointer queue memory =
      some (if queue.uxMessagesWaiting > 0 then
        (true, { (prvCopyDataFromQueue pointer queue memory).1 with
          uxMessagesWaiting := queue.uxMessagesWaiting - 1 },
          (prvCopyDataFromQueue pointer queue memory).2)
      else
        (false, queue, memory)) := by
  simp only [xQueueReceive, Heap.configASSERT, hpointer, not_false_eq_true, decide_true, if_true,
    Option.bind_eq_bind, Option.bind_some]
  split
  · rfl
  · rfl

end Asserted

-- The storage of a queue as slots of bytes.
structure Holds (queue : Queue) (memory : ByteMemory) {length : Nat}
    (ring : SlotRing (List (BitVec 8)) length) : Prop where
  uxLength : queue.uxLength = length
  uxMessagesWaiting : queue.uxMessagesWaiting = ring.count
  pcTail : queue.pcTail = slotAddress queue.pcHead queue.uxItemSize length
  pcWriteTo : queue.pcWriteTo = slotAddress queue.pcHead queue.uxItemSize ring.free
  pcReadFrom : queue.pcReadFrom = slotAddress queue.pcHead queue.uxItemSize ring.last
  slots : ∀ i < length,
    bytesAt (slotAddress queue.pcHead queue.uxItemSize i) queue.uxItemSize memory = ring.slots i

-- Where an item may be that is copied to the queue or from it.
def Queue.Apart (queue : Queue) (pointer : Int) : Prop :=
  pointer + queue.uxItemSize ≤ queue.pcHead ∨ queue.pcTail ≤ pointer

namespace Holds

variable {queue : Queue} {memory : ByteMemory} {length : Nat} {pvItemToQueue : Int}
  {ring : SlotRing (List (BitVec 8)) length}

theorem slot_within (h : Holds queue memory ring) {i : Nat} (hi : i < length) :
    queue.pcHead ≤ slotAddress queue.pcHead queue.uxItemSize i ∧
      slotAddress queue.pcHead queue.uxItemSize i + queue.uxItemSize ≤ queue.pcTail := by
  have hlast : slotAddress queue.pcHead queue.uxItemSize (i + 1) ≤
    slotAddress queue.pcHead queue.uxItemSize length := slotAddress_mono hi
  rw [slotAddress_succ, ← h.pcTail] at hlast
  refine ⟨?_, hlast⟩
  simp only [slotAddress]
  omega

-- Writing one slot changes that slot and no other.
theorem slots_memcpy (h : Holds queue memory ring) {i : Nat} (hi : i < length)
    (hapart : queue.Apart pvItemToQueue) :
    ∀ j < length, bytesAt (slotAddress queue.pcHead queue.uxItemSize j) queue.uxItemSize
        (memcpy (slotAddress queue.pcHead queue.uxItemSize i) pvItemToQueue queue.uxItemSize
          memory) =
      Function.update ring.slots i (bytesAt pvItemToQueue queue.uxItemSize memory) j := by
  have hslot := h.slot_within hi
  unfold Queue.Apart at hapart
  intro j hj
  by_cases hji : j = i
  · subst hji
    rw [bytesAt_memcpy (by omega), Function.update_self]
  · rw [Function.update_of_ne hji, ← h.slots j hj]
    exact bytesAt_memcpy_apart (slotAddress_apart hji)

-- A pointer past the last slot goes back to the first.
theorem wrap_forward (h : Holds queue memory ring) (hsize : queue.uxItemSize ≠ 0) (i : Nat) :
    (if slotAddress queue.pcHead queue.uxItemSize i + queue.uxItemSize ≥ queue.pcTail then
      queue.pcHead
    else
      slotAddress queue.pcHead queue.uxItemSize i + queue.uxItemSize) =
      slotAddress queue.pcHead queue.uxItemSize (if length ≤ i + 1 then 0 else i + 1) := by
  rw [h.pcTail, ← slotAddress_succ]
  simp only [ge_iff_le, slotAddress_le_iff (Nat.pos_of_ne_zero hsize)]
  split
  · exact slotAddress_zero.symm
  · rfl

-- A pointer before the first slot goes on to the last.
theorem wrap_backward (h : Holds queue memory ring) (hsize : queue.uxItemSize ≠ 0) :
    (if queue.pcReadFrom - queue.uxItemSize < queue.pcHead then
      queue.pcTail - queue.uxItemSize
    else
      queue.pcReadFrom - queue.uxItemSize) =
      slotAddress queue.pcHead queue.uxItemSize (SlotRing.before length ring.last) := by
  have hlast := ring.last_lt
  have hpos : 0 < (queue.uxItemSize : Int) := by omega
  rw [h.pcTail, h.pcReadFrom]
  unfold SlotRing.before
  by_cases hzero : ring.last = 0
  · obtain ⟨n, rfl⟩ := Nat.exists_eq_succ_of_ne_zero (show length ≠ 0 by omega)
    rw [hzero, slotAddress_zero, if_pos (by omega), if_pos rfl, slotAddress_succ,
      Nat.succ_sub_one]
    omega
  · obtain ⟨n, hn⟩ := Nat.exists_eq_succ_of_ne_zero hzero
    have hhead : queue.pcHead ≤ slotAddress queue.pcHead queue.uxItemSize n := by
      simp only [slotAddress]
      omega
    rw [hn, slotAddress_succ, if_neg (by omega), if_neg (Nat.succ_ne_zero n), Nat.succ_sub_one]
    omega

-- Items without bytes are only counted, which moving the pointers and copying
-- no byte comes to as well.
theorem copyToBack (h : Holds queue memory ring) (hroom : ring.count < length) :
    prvCopyDataToQueue pvItemToQueue .queueSEND_TO_BACK queue memory =
      ({ queue with
          pcWriteTo := slotAddress queue.pcHead queue.uxItemSize (ring.slot (ring.count + 1))
          uxMessagesWaiting := queue.uxMessagesWaiting + 1 },
        memcpy (slotAddress queue.pcHead queue.uxItemSize ring.free) pvItemToQueue
          queue.uxItemSize memory) := by
  by_cases hsize : queue.uxItemSize = 0
  · have hwrite : slotAddress queue.pcHead queue.uxItemSize (ring.slot (ring.count + 1)) =
      queue.pcWriteTo := by simp [h.pcWriteTo, slotAddress, hsize]
    have hcopy : ∀ dest, memcpy dest pvItemToQueue queue.uxItemSize memory = memory := by
      simp [hsize, memcpy]
    rw [hwrite, hcopy]
    exact if_pos hsize
  · have hnext := h.wrap_forward hsize ring.free
    have hfree : ring.slot ring.count = ring.free := rfl
    rw [ring.slot_succ hroom, hfree, ← hnext, ← h.pcWriteTo]
    exact (if_neg hsize).trans (if_pos rfl)

theorem copyToFront (h : Holds queue memory ring) :
    prvCopyDataToQueue pvItemToQueue .queueSEND_TO_FRONT queue memory =
      ({ queue with
          pcReadFrom :=
            slotAddress queue.pcHead queue.uxItemSize (SlotRing.before length ring.last)
          uxMessagesWaiting := queue.uxMessagesWaiting + 1 },
        memcpy (slotAddress queue.pcHead queue.uxItemSize ring.last) pvItemToQueue
          queue.uxItemSize memory) := by
  by_cases hsize : queue.uxItemSize = 0
  · have hread : slotAddress queue.pcHead queue.uxItemSize (SlotRing.before length ring.last) =
      queue.pcReadFrom := by simp [h.pcReadFrom, slotAddress, hsize]
    have hcopy : ∀ dest, memcpy dest pvItemToQueue queue.uxItemSize memory = memory := by
      simp [hsize, memcpy]
    rw [hread, hcopy]
    exact if_pos hsize
  · rw [← h.wrap_backward hsize, ← h.pcReadFrom]
    simp [prvCopyDataToQueue, hsize]

theorem copyFrom {pvBuffer : Int} (h : Holds queue memory ring) (hapart : queue.Apart pvBuffer) :
    prvCopyDataFromQueue pvBuffer queue memory =
      ({ queue with pcReadFrom := slotAddress queue.pcHead queue.uxItemSize (ring.slot 0) },
        store pvBuffer ring.pop.1 memory) := by
  have hitem : ring.pop.1 =
      bytesAt (slotAddress queue.pcHead queue.uxItemSize (ring.slot 0)) queue.uxItemSize memory :=
    (h.slots _ (ring.slot_lt (Nat.zero_le _))).symm
  rw [hitem]
  by_cases hsize : queue.uxItemSize = 0
  · have hread : slotAddress queue.pcHead queue.uxItemSize (ring.slot 0) = queue.pcReadFrom := by
      simp [h.pcReadFrom, slotAddress, hsize]
    have hcopy : store pvBuffer (bytesAt queue.pcReadFrom queue.uxItemSize memory) memory =
        memory := by
      rw [hsize]
      exact store_nil
    rw [hread, hcopy, prvCopyDataFromQueue, if_neg (not_not.mpr hsize)]
  · have hnext := h.wrap_forward hsize ring.last
    have hslot := h.slot_within (ring.slot_lt (Nat.zero_le _))
    unfold Queue.Apart at hapart
    rw [← memcpy_apart (by omega), ring.slot_zero, ← hnext, ← h.pcReadFrom]
    exact if_pos hsize

theorem sendToBack (h : Holds queue memory ring) (hroom : ring.count < length)
    (hapart : queue.Apart pvItemToQueue) :
    Holds (prvCopyDataToQueue pvItemToQueue .queueSEND_TO_BACK queue memory).1
      (prvCopyDataToQueue pvItemToQueue .queueSEND_TO_BACK queue memory).2
      (ring.pushBack (bytesAt pvItemToQueue queue.uxItemSize memory) hroom) := by
  rw [h.copyToBack hroom]
  exact {
    uxLength := h.uxLength
    uxMessagesWaiting := congrArg (· + 1) h.uxMessagesWaiting
    pcTail := h.pcTail
    pcWriteTo := rfl
    pcReadFrom := h.pcReadFrom
    slots := h.slots_memcpy ring.free_lt hapart }

theorem sendToFront (h : Holds queue memory ring) (hroom : ring.count < length)
    (hapart : queue.Apart pvItemToQueue) :
    Holds (prvCopyDataToQueue pvItemToQueue .queueSEND_TO_FRONT queue memory).1
      (prvCopyDataToQueue pvItemToQueue .queueSEND_TO_FRONT queue memory).2
      (ring.pushFront (bytesAt pvItemToQueue queue.uxItemSize memory) hroom) := by
  have hfree : (ring.pushFront (bytesAt pvItemToQueue queue.uxItemSize memory) hroom).free =
    ring.free := (ring.slotAfter_before hroom).1
  rw [h.copyToFront]
  exact {
    uxLength := h.uxLength
    uxMessagesWaiting := congrArg (· + 1) h.uxMessagesWaiting
    pcTail := h.pcTail
    pcWriteTo := by
      rw [hfree]
      exact h.pcWriteTo
    pcReadFrom := rfl
    slots := h.slots_memcpy ring.last_lt hapart }

-- What is stored outside of the slots does not change them.
theorem store_apart (h : Holds queue memory ring) {dest : Int} {bytes : List (BitVec 8)}
    (hapart : dest + bytes.length ≤ queue.pcHead ∨ queue.pcTail ≤ dest) :
    Holds queue (store dest bytes memory) ring where
  uxLength := h.uxLength
  uxMessagesWaiting := h.uxMessagesWaiting
  pcTail := h.pcTail
  pcWriteTo := h.pcWriteTo
  pcReadFrom := h.pcReadFrom
  slots := by
    intro i hi
    rw [← h.slots i hi]
    apply bytesAt_store_apart
    have hslot := h.slot_within hi
    omega

theorem pop (h : Holds queue memory ring) (hitems : 0 < ring.count) :
    Holds { queue with
        pcReadFrom := slotAddress queue.pcHead queue.uxItemSize (ring.slot 0)
        uxMessagesWaiting := queue.uxMessagesWaiting - 1 } memory ring.pop.2 where
  uxLength := h.uxLength
  uxMessagesWaiting := congrArg (· - 1) h.uxMessagesWaiting
  pcTail := h.pcTail
  pcWriteTo := by
    have hcount := ring.count_le
    have hfree : ring.pop.2.free = ring.slot (ring.count - 1 + 1) :=
      ring.slotAfter_slot_zero (i := ring.count - 1) (by omega)
    rw [hfree, Nat.sub_add_cancel hitems]
    exact h.pcWriteTo
  pcReadFrom := rfl
  slots := h.slots

-- With one slot the pointers stay where they are.
theorem popOnly {ring : SlotRing (List (BitVec 8)) 1} (h : Holds queue memory ring) :
    ∃ left : SlotRing (List (BitVec 8)) 1, left.items = [] ∧
      Holds { queue with uxMessagesWaiting := queue.uxMessagesWaiting - 1 } memory left := by
  have hcount := ring.count_le
  by_cases hitems : 0 < ring.count
  · have hslot : ring.slot 0 = ring.last := by
      have hlt := ring.slot_lt (Nat.zero_le 1)
      have hlast := ring.last_lt
      omega
    have hpop := h.pop hitems
    rw [hslot, ← h.pcReadFrom] at hpop
    have hleft : ring.count - 1 = 0 := by omega
    exact ⟨ring.pop.2,
      List.eq_nil_of_length_eq_zero (ring.pop.2.items_length.trans hleft), hpop⟩
  · have hnone : ring.count = 0 := by omega
    have hwaiting : queue.uxMessagesWaiting - 1 = queue.uxMessagesWaiting := by
      rw [h.uxMessagesWaiting, hnone]
    refine ⟨ring, List.eq_nil_of_length_eq_zero (ring.items_length.trans hnone), ?_⟩
    rw [hwaiting]
    exact h

theorem receive {pvBuffer : Int} (h : Holds queue memory ring) (hitems : 0 < ring.count)
    (hapart : queue.Apart pvBuffer) :
    Holds
      { (prvCopyDataFromQueue pvBuffer queue memory).1 with
        uxMessagesWaiting := queue.uxMessagesWaiting - 1 }
      (prvCopyDataFromQueue pvBuffer queue memory).2 ring.pop.2 := by
  have hlength : ring.pop.1.length = queue.uxItemSize := by
    rw [SlotRing.pop, ← h.slots _ (ring.slot_lt (Nat.zero_le _)), bytesAt_length]
  rw [h.copyFrom hapart]
  apply (h.pop hitems).store_apart
  rw [hlength]
  exact hapart

theorem slot_outside (h : Holds queue memory ring) {i : Nat} (hi : i < length) {a : Int}
    (ha : a < queue.pcHead ∨ queue.pcTail ≤ a) :
    memcpy (slotAddress queue.pcHead queue.uxItemSize i) pvItemToQueue queue.uxItemSize memory a =
      memory a := by
  have hslot := h.slot_within hi
  exact memcpy_outside (by omega)

end Holds

-- A reset empties the queue, whatever it holds.
theorem holds_xQueueGenericReset {queue after : Queue} (memory : ByteMemory)
    (h : xQueueGenericReset queue = some after) :
    after.pcHead = queue.pcHead ∧ after.uxItemSize = queue.uxItemSize ∧
      ∃ ring : SlotRing (List (BitVec 8)) queue.uxLength,
        Holds after memory ring ∧ ring.items = [] := by
  simp only [xQueueGenericReset, Option.ite_none_right_eq_some, Option.some.injEq] at h
  obtain ⟨⟨hlength, -⟩, rfl⟩ := h
  let slots := fun i =>
    bytesAt (slotAddress queue.pcHead queue.uxItemSize i) queue.uxItemSize memory
  have hfree : (SlotRing.empty slots hlength).free = 0 := by
    refine (SlotRing.empty slots hlength).slot_zero.trans (if_pos ?_)
    exact Nat.le_of_eq (Nat.sub_add_cancel hlength).symm
  refine ⟨rfl, rfl, SlotRing.empty slots hlength, ?_, rfl⟩
  exact {
    uxLength := rfl
    uxMessagesWaiting := rfl
    pcTail := rfl
    pcWriteTo := by rw [hfree, slotAddress_zero]
    pcReadFrom := rfl
    slots := fun _ _ => rfl }

-- What a send leaves as it was: where the storage is, and all the rest of the
-- memory.
structure Frame (before after : Queue × ByteMemory) : Prop where
  pcHead : after.1.pcHead = before.1.pcHead
  uxItemSize : after.1.uxItemSize = before.1.uxItemSize
  outside : ∀ a, a < before.1.pcHead ∨ before.1.pcTail ≤ a → after.2 a = before.2 a

namespace Holds

variable {queue : Queue} {memory : ByteMemory} {length : Nat} {pvItemToQueue : Int}
  {ring : SlotRing (List (BitVec 8)) length}

theorem frame_sendToBack (h : Holds queue memory ring) (hroom : ring.count < length) :
    Frame (queue, memory) (prvCopyDataToQueue pvItemToQueue .queueSEND_TO_BACK queue memory) := by
  rw [h.copyToBack hroom]
  exact ⟨rfl, rfl, fun _ ha => h.slot_outside ring.free_lt ha⟩

theorem frame_sendToFront (h : Holds queue memory ring) :
    Frame (queue, memory) (prvCopyDataToQueue pvItemToQueue .queueSEND_TO_FRONT queue memory) := by
  rw [h.copyToFront]
  exact ⟨rfl, rfl, fun _ ha => h.slot_outside ring.last_lt ha⟩

end Holds

end SpaceBaremetal.Queues
