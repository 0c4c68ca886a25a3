import SpaceBaremetal.CString
import SpaceBaremetal.Kernel.Heap

namespace SpaceBaremetal.Queues

open CString
open Heap (configASSERT)

def NULL : Int := 0

def SIZE_MAX : Nat := 2 ^ 64 - 1

def queueUNLOCKED : Int := -1

-- A queue that is no mutex: `pcHead` points to its storage.
structure Queue where
  pcHead : Int
  pcWriteTo : Int
  pcTail : Int
  pcReadFrom : Int
  uxMessagesWaiting : Nat
  uxLength : Nat
  uxItemSize : Nat
  cRxLock : Int
  cTxLock : Int
deriving DecidableEq, Repr

inductive CopyPosition
  | queueSEND_TO_BACK
  | queueSEND_TO_FRONT
  | queueOVERWRITE
deriving DecidableEq, Repr

open CopyPosition

-- For a new queue, whose lists are initialised too. `none` is the assertion
-- at its end.
def xQueueGenericReset (queue : Queue) : Option Queue :=
  if queue.uxLength ≥ 1 ∧ SIZE_MAX / queue.uxLength ≥ queue.uxItemSize then
    some { queue with
      pcTail := queue.pcHead + (queue.uxLength * queue.uxItemSize : Nat)
      uxMessagesWaiting := 0
      pcWriteTo := queue.pcHead
      pcReadFrom := queue.pcHead + ((queue.uxLength - 1) * queue.uxItemSize : Nat)
      cRxLock := queueUNLOCKED
      cTxLock := queueUNLOCKED }
  else
    none

-- The fields that are not written by `xQueueGenericReset` have what was in the
-- memory before.
def prvInitialiseNewQueue (uxQueueLength uxItemSize : Nat) (pucQueueStorage pxNewQueue : Int)
    (memory : Queue) : Option Queue :=
  xQueueGenericReset { memory with
    pcHead := if uxItemSize = 0 then pxNewQueue else pucQueueStorage
    uxLength := uxQueueLength
    uxItemSize := uxItemSize }

def prvCopyDataToQueue (pvItemToQueue : Int) (xPosition : CopyPosition) (queue : Queue)
    (memory : ByteMemory) : Queue × ByteMemory :=
  let uxMessagesWaiting := queue.uxMessagesWaiting
  if queue.uxItemSize = 0 then
    ({ queue with uxMessagesWaiting := uxMessagesWaiting + 1 }, memory)
  else if xPosition = queueSEND_TO_BACK then
    let memory := memcpy queue.pcWriteTo pvItemToQueue queue.uxItemSize memory
    let pcWriteTo := queue.pcWriteTo + queue.uxItemSize
    let pcWriteTo := if pcWriteTo ≥ queue.pcTail then queue.pcHead else pcWriteTo
    ({ queue with pcWriteTo := pcWriteTo, uxMessagesWaiting := uxMessagesWaiting + 1 }, memory)
  else
    let memory := memcpy queue.pcReadFrom pvItemToQueue queue.uxItemSize memory
    let pcReadFrom := queue.pcReadFrom - queue.uxItemSize
    let pcReadFrom :=
      if pcReadFrom < queue.pcHead then queue.pcTail - queue.uxItemSize else pcReadFrom
    let uxMessagesWaiting :=
      if xPosition = queueOVERWRITE ∧ uxMessagesWaiting > 0 then
        uxMessagesWaiting - 1
      else
        uxMessagesWaiting
    ({ queue with pcReadFrom := pcReadFrom, uxMessagesWaiting := uxMessagesWaiting + 1 }, memory)

def prvCopyDataFromQueue (pvBuffer : Int) (queue : Queue) (memory : ByteMemory) :
    Queue × ByteMemory :=
  if queue.uxItemSize ≠ 0 then
    let pcReadFrom := queue.pcReadFrom + queue.uxItemSize
    let pcReadFrom := if pcReadFrom ≥ queue.pcTail then queue.pcHead else pcReadFrom
    ({ queue with pcReadFrom := pcReadFrom },
      memcpy pvBuffer pcReadFrom queue.uxItemSize memory)
  else
    (queue, memory)

def uxQueueMessagesWaiting (queue : Queue) : Nat := queue.uxMessagesWaiting

-- A subtraction of words.
def uxQueueSpacesAvailable (queue : Queue) : Nat :=
  (queue.uxLength + 2 ^ 64 - queue.uxMessagesWaiting) % 2 ^ 64

-- With no time to wait. A task that waits for data is woken by the kernel, which
-- does not touch the queue.
def xQueueGenericSend (pvItemToQueue : Int) (xCopyPosition : CopyPosition) (queue : Queue)
    (memory : ByteMemory) : Option (Bool × Queue × ByteMemory) := do
  configASSERT (¬(pvItemToQueue = NULL ∧ queue.uxItemSize ≠ 0))
  configASSERT (¬(xCopyPosition = queueOVERWRITE ∧ queue.uxLength ≠ 1))
  if queue.uxMessagesWaiting < queue.uxLength ∨ xCopyPosition = queueOVERWRITE then
    some (true, prvCopyDataToQueue pvItemToQueue xCopyPosition queue memory)
  else
    some (false, queue, memory)

def xQueueReceive (pvBuffer : Int) (queue : Queue) (memory : ByteMemory) :
    Option (Bool × Queue × ByteMemory) := do
  configASSERT (¬(pvBuffer = NULL ∧ queue.uxItemSize ≠ 0))
  let uxMessagesWaiting := queue.uxMessagesWaiting
  if uxMessagesWaiting > 0 then
    let (queue, memory) := prvCopyDataFromQueue pvBuffer queue memory
    some (true, { queue with uxMessagesWaiting := uxMessagesWaiting - 1 }, memory)
  else
    some (false, queue, memory)

end SpaceBaremetal.Queues
