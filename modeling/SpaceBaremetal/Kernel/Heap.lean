import SpaceBaremetal.Lib.FreeList
import SpaceBaremetal.Lib.LinkPath
import Mathlib.Algebra.Group.Nat.Defs

namespace SpaceBaremetal

def configTOTAL_HEAP_SIZE : Nat := 32 * 1024
def portBYTE_ALIGNMENT : Nat := 16
def portBYTE_ALIGNMENT_MASK : Nat := 0x000f
def xHeapStructSize : Nat := 16
def heapMINIMUM_BLOCK_SIZE : Nat := xHeapStructSize <<< 1
def heapSIZE_MAX : Nat := 2 ^ 64 - 1
def heapBLOCK_ALLOCATED_BITMASK : Nat := 2 ^ 63
def heapNULL : Nat := 0

-- Where the linker puts the array and the list head, which is not part of it.
structure HeapLayout where
  ucHeap : Nat
  xStart : Nat
  ucHeap_pos : 0 < ucHeap
  ucHeap_fits : ucHeap + configTOTAL_HEAP_SIZE ≤ 2 ^ 64
  xStart_outside : xStart + xHeapStructSize ≤ ucHeap ∨ ucHeap + configTOTAL_HEAP_SIZE ≤ xStart

-- The two fields of the `BlockLink_t` at each address, and the variables. A
-- block starts at a multiple of 16, the size of a `BlockLink_t`, so two of them
-- are the same or do not overlap.
structure Heap where
  pxNextFreeBlock : Nat → Nat
  xBlockSize : Nat → Nat
  pxEnd : Nat
  xFreeBytesRemaining : Nat
  xMinimumEverFreeBytesRemaining : Nat
  xNumberOfSuccessfulAllocations : Nat
  xNumberOfSuccessfulFrees : Nat

namespace Heap

-- Arithmetic of `size_t`.
def addSize (a b : Nat) : Nat := (a + b) % 2 ^ 64

def subSize (a b : Nat) : Nat := (a + (2 ^ 64 - b)) % 2 ^ 64

def heapADD_WILL_OVERFLOW (a b : Nat) : Bool := decide (a > heapSIZE_MAX - b)

def heapSUBTRACT_WILL_UNDERFLOW (a b : Nat) : Bool := decide (a < b)

def heapBLOCK_SIZE_IS_VALID (size : Nat) : Bool := size &&& heapBLOCK_ALLOCATED_BITMASK == 0

def alignDown (address : Nat) : Nat := address - (address &&& portBYTE_ALIGNMENT_MASK)

-- A failed assertion stops the core with the interrupts off.
def configASSERT (holds : Bool) : Option Unit := if holds then some () else none

def heapVALIDATE_BLOCK_POINTER (layout : HeapLayout) (pxBlock : Nat) : Option Unit :=
  configASSERT (decide (layout.ucHeap ≤ pxBlock ∧
    pxBlock ≤ layout.ucHeap + configTOTAL_HEAP_SIZE - 1))

def setNext (heap : Heap) (pxBlock next : Nat) : Heap :=
  { heap with pxNextFreeBlock := Function.update heap.pxNextFreeBlock pxBlock next }

def setSize (heap : Heap) (pxBlock size : Nat) : Heap :=
  { heap with xBlockSize := Function.update heap.xBlockSize pxBlock size }

def heapBLOCK_IS_ALLOCATED (heap : Heap) (pxBlock : Nat) : Bool :=
  heap.xBlockSize pxBlock &&& heapBLOCK_ALLOCATED_BITMASK != 0

def heapALLOCATE_BLOCK (heap : Heap) (pxBlock : Nat) : Heap :=
  heap.setSize pxBlock (heap.xBlockSize pxBlock ||| heapBLOCK_ALLOCATED_BITMASK)

def heapFREE_BLOCK (heap : Heap) (pxBlock : Nat) : Heap :=
  heap.setSize pxBlock (heap.xBlockSize pxBlock &&& (heapBLOCK_ALLOCATED_BITMASK - 1))

def startAddress (layout : HeapLayout) : Nat :=
  if layout.ucHeap &&& portBYTE_ALIGNMENT_MASK ≠ 0 then
    alignDown (layout.ucHeap + (portBYTE_ALIGNMENT - 1))
  else
    layout.ucHeap

def endAddress (layout : HeapLayout) : Nat :=
  let uxStartAddress := startAddress layout
  let xTotalHeapSize := configTOTAL_HEAP_SIZE - (uxStartAddress - layout.ucHeap)
  alignDown (uxStartAddress + xTotalHeapSize - xHeapStructSize)

def prvHeapInit (layout : HeapLayout) (heap : Heap) : Heap :=
  let uxStartAddress := startAddress layout
  let uxEndAddress := endAddress layout
  let heap := (heap.setNext layout.xStart uxStartAddress).setSize layout.xStart 0
  let heap := { heap with pxEnd := uxEndAddress }
  let heap := (heap.setSize uxEndAddress 0).setNext uxEndAddress heapNULL
  let heap := heap.setSize uxStartAddress (uxEndAddress - uxStartAddress)
  let heap := heap.setNext uxStartAddress uxEndAddress
  { heap with
    xMinimumEverFreeBytesRemaining := heap.xBlockSize uxStartAddress
    xFreeBytesRemaining := heap.xBlockSize uxStartAddress }

-- The request with its header, rounded up. Zero when that overflows.
def requiredBlockSize (xWantedSize : Nat) : Nat :=
  if xWantedSize > 0 then
    if heapADD_WILL_OVERFLOW xWantedSize xHeapStructSize = false then
      let xWantedSize := xWantedSize + xHeapStructSize
      if xWantedSize &&& portBYTE_ALIGNMENT_MASK ≠ 0 then
        let xAdditionalRequiredSize :=
          portBYTE_ALIGNMENT - (xWantedSize &&& portBYTE_ALIGNMENT_MASK)
        if heapADD_WILL_OVERFLOW xWantedSize xAdditionalRequiredSize = false then
          xWantedSize + xAdditionalRequiredSize
        else
          0
      else
        xWantedSize
    else
      0
  else
    xWantedSize

-- The search of `pvPortMalloc`: the block before and the block found. `none`
-- also stands for a search that goes on for more than `fuel` blocks.
def findBlock (layout : HeapLayout) (heap : Heap) (xWantedSize : Nat) :
    Nat → Nat → Nat → Option (Nat × Nat)
  | 0, _, _ => none
  | fuel + 1, pxPreviousBlock, pxBlock =>
    if heap.xBlockSize pxBlock < xWantedSize ∧ heap.pxNextFreeBlock pxBlock ≠ heapNULL then do
      heapVALIDATE_BLOCK_POINTER layout (heap.pxNextFreeBlock pxBlock)
      findBlock layout heap xWantedSize fuel pxBlock (heap.pxNextFreeBlock pxBlock)
    else
      some (pxPreviousBlock, pxBlock)

-- What is left of a block that is larger than required goes back to the list.
def splitBlock (heap : Heap) (xWantedSize pxPreviousBlock pxBlock : Nat) : Option Heap :=
  if subSize (heap.xBlockSize pxBlock) xWantedSize > heapMINIMUM_BLOCK_SIZE then do
    let pxNewBlockLink := pxBlock + xWantedSize
    configASSERT (pxNewBlockLink &&& portBYTE_ALIGNMENT_MASK == 0)
    let heap := heap.setSize pxNewBlockLink (subSize (heap.xBlockSize pxBlock) xWantedSize)
    let heap := heap.setSize pxBlock xWantedSize
    let heap := heap.setNext pxNewBlockLink (heap.pxNextFreeBlock pxPreviousBlock)
    some (heap.setNext pxPreviousBlock pxNewBlockLink)
  else
    some heap

def accountBlock (heap : Heap) (pxBlock : Nat) : Heap :=
  let heap := { heap with
    xFreeBytesRemaining := subSize heap.xFreeBytesRemaining (heap.xBlockSize pxBlock) }
  let heap :=
    if heap.xFreeBytesRemaining < heap.xMinimumEverFreeBytesRemaining then
      { heap with xMinimumEverFreeBytesRemaining := heap.xFreeBytesRemaining }
    else
      heap
  let heap := (heap.heapALLOCATE_BLOCK pxBlock).setNext pxBlock heapNULL
  { heap with xNumberOfSuccessfulAllocations := addSize heap.xNumberOfSuccessfulAllocations 1 }

def takeBlock (layout : HeapLayout) (heap : Heap) (xWantedSize pxPreviousBlock pxBlock : Nat) :
    Option (Nat × Heap) := do
  let pvReturn := heap.pxNextFreeBlock pxPreviousBlock + xHeapStructSize
  heapVALIDATE_BLOCK_POINTER layout pvReturn
  let heap := heap.setNext pxPreviousBlock (heap.pxNextFreeBlock pxBlock)
  configASSERT (!heapSUBTRACT_WILL_UNDERFLOW (heap.xBlockSize pxBlock) xWantedSize)
  let heap ← heap.splitBlock xWantedSize pxPreviousBlock pxBlock
  some (pvReturn, heap.accountBlock pxBlock)

-- The part of `pvPortMalloc` that looks for a block, once the size is valid.
def allocateBlock (layout : HeapLayout) (heap : Heap) (xWantedSize : Nat) :
    Option (Nat × Heap) := do
  heapVALIDATE_BLOCK_POINTER layout (heap.pxNextFreeBlock layout.xStart)
  let found ← findBlock layout heap xWantedSize configTOTAL_HEAP_SIZE layout.xStart
    (heap.pxNextFreeBlock layout.xStart)
  if found.2 ≠ heap.pxEnd then
    takeBlock layout heap xWantedSize found.1 found.2
  else
    some (heapNULL, heap)

def pvPortMalloc (layout : HeapLayout) (xWantedSize : Nat) (heap : Heap) :
    Option (Nat × Heap) := do
  let xWantedSize := requiredBlockSize xWantedSize
  let heap := if heap.pxEnd = heapNULL then heap.prvHeapInit layout else heap
  let (pvReturn, heap) ←
    if heapBLOCK_SIZE_IS_VALID xWantedSize ∧ xWantedSize > 0 ∧
        xWantedSize ≤ heap.xFreeBytesRemaining then
      allocateBlock layout heap xWantedSize
    else
      some (heapNULL, heap)
  configASSERT (pvReturn &&& portBYTE_ALIGNMENT_MASK == 0)
  some (pvReturn, heap)

-- The loop of `prvInsertBlockIntoFreeList`: the last link below the block.
def findPlace (heap : Heap) (pxBlockToInsert : Nat) : Nat → Nat → Option Nat
  | 0, _ => none
  | fuel + 1, pxIterator =>
    if heap.pxNextFreeBlock pxIterator < pxBlockToInsert then
      findPlace heap pxBlockToInsert fuel (heap.pxNextFreeBlock pxIterator)
    else
      some pxIterator

def joinBefore (heap : Heap) (pxIterator pxBlockToInsert : Nat) : Nat × Heap :=
  if pxIterator + heap.xBlockSize pxIterator = pxBlockToInsert then
    (pxIterator, heap.setSize pxIterator
      (addSize (heap.xBlockSize pxIterator) (heap.xBlockSize pxBlockToInsert)))
  else
    (pxBlockToInsert, heap)

def joinAfter (heap : Heap) (pxIterator pxBlockToInsert : Nat) : Heap :=
  let next := heap.pxNextFreeBlock pxIterator
  if pxBlockToInsert + heap.xBlockSize pxBlockToInsert = next then
    if next ≠ heap.pxEnd then
      let heap := heap.setSize pxBlockToInsert
        (addSize (heap.xBlockSize pxBlockToInsert) (heap.xBlockSize next))
      heap.setNext pxBlockToInsert (heap.pxNextFreeBlock next)
    else
      heap.setNext pxBlockToInsert heap.pxEnd
  else
    heap.setNext pxBlockToInsert next

def prvInsertBlockIntoFreeList (layout : HeapLayout) (pxBlockToInsert : Nat) (heap : Heap) :
    Option Heap := do
  let pxIterator ← findPlace heap pxBlockToInsert configTOTAL_HEAP_SIZE layout.xStart
  if pxIterator ≠ layout.xStart then
    heapVALIDATE_BLOCK_POINTER layout pxIterator
  let (pxBlockToInsert, heap) := joinBefore heap pxIterator pxBlockToInsert
  let heap := joinAfter heap pxIterator pxBlockToInsert
  if pxIterator ≠ pxBlockToInsert then
    some (heap.setNext pxIterator pxBlockToInsert)
  else
    some heap

def vPortFree (layout : HeapLayout) (pv : Nat) (heap : Heap) : Option Heap :=
  if pv ≠ heapNULL then do
    let pxLink := pv - xHeapStructSize
    heapVALIDATE_BLOCK_POINTER layout pxLink
    configASSERT (heap.heapBLOCK_IS_ALLOCATED pxLink)
    configASSERT (heap.pxNextFreeBlock pxLink == heapNULL)
    let heap := heap.heapFREE_BLOCK pxLink
    let heap := { heap with
      xFreeBytesRemaining := addSize heap.xFreeBytesRemaining (heap.xBlockSize pxLink) }
    let heap ← prvInsertBlockIntoFreeList layout pxLink heap
    some { heap with xNumberOfSuccessfulFrees := addSize heap.xNumberOfSuccessfulFrees 1 }
  else
    some heap

def xPortGetFreeHeapSize (heap : Heap) : Nat := heap.xFreeBytesRemaining

def xPortGetMinimumEverFreeHeapSize (heap : Heap) : Nat := heap.xMinimumEverFreeBytesRemaining

def xPortResetHeapMinimumEverFreeHeapSize (heap : Heap) : Heap :=
  { heap with xMinimumEverFreeBytesRemaining := heap.xFreeBytesRemaining }

def vPortHeapResetState (heap : Heap) : Heap :=
  { heap with
    pxEnd := heapNULL
    xFreeBytesRemaining := 0
    xMinimumEverFreeBytesRemaining := 0
    xNumberOfSuccessfulAllocations := 0
    xNumberOfSuccessfulFrees := 0 }

structure HeapStats where
  xAvailableHeapSpaceInBytes : Nat
  xSizeOfLargestFreeBlockInBytes : Nat
  xSizeOfSmallestFreeBlockInBytes : Nat
  xNumberOfFreeBlocks : Nat
  xMinimumEverFreeBytesRemaining : Nat
  xNumberOfSuccessfulAllocations : Nat
  xNumberOfSuccessfulFrees : Nat
deriving DecidableEq, Repr

-- The walk of `vPortGetHeapStats`: number, largest and smallest.
def countBlocks (heap : Heap) : Nat → Nat → Nat → Nat → Nat → Option (Nat × Nat × Nat)
  | 0, _, _, _, _ => none
  | fuel + 1, pxBlock, xBlocks, xMaxSize, xMinSize =>
    if pxBlock ≠ heap.pxEnd then
      countBlocks heap fuel (heap.pxNextFreeBlock pxBlock) (addSize xBlocks 1)
        (if heap.xBlockSize pxBlock > xMaxSize then heap.xBlockSize pxBlock else xMaxSize)
        (if heap.xBlockSize pxBlock < xMinSize then heap.xBlockSize pxBlock else xMinSize)
    else
      some (xBlocks, xMaxSize, xMinSize)

def vPortGetHeapStats (layout : HeapLayout) (heap : Heap) : Option HeapStats := do
  let pxBlock := heap.pxNextFreeBlock layout.xStart
  let (xBlocks, xMaxSize, xMinSize) ←
    if pxBlock ≠ heapNULL then
      countBlocks heap configTOTAL_HEAP_SIZE pxBlock 0 0 heapSIZE_MAX
    else
      some (0, 0, heapSIZE_MAX)
  some {
    xAvailableHeapSpaceInBytes := heap.xFreeBytesRemaining
    xSizeOfLargestFreeBlockInBytes := xMaxSize
    xSizeOfSmallestFreeBlockInBytes := xMinSize
    xNumberOfFreeBlocks := xBlocks
    xMinimumEverFreeBytesRemaining := heap.xMinimumEverFreeBytesRemaining
    xNumberOfSuccessfulAllocations := heap.xNumberOfSuccessfulAllocations
    xNumberOfSuccessfulFrees := heap.xNumberOfSuccessfulFrees }

end Heap

end SpaceBaremetal
