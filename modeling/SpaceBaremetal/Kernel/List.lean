import SpaceBaremetal.Lib.LinkPath
import SpaceBaremetal.Lib.CursorList
import Mathlib.Data.BitVec

namespace SpaceBaremetal

-- An item of a list, or the `xListEnd` that is part of a list.
inductive ListNode (ι τ : Type)
  | End (l : ι)
  | Item (i : τ)
deriving DecidableEq, Repr

-- The lists of the kernel and the items that can be on them. A pointer is the
-- node it points to.
structure Lists (ι τ : Type) where
  pxNext : ListNode ι τ → ListNode ι τ
  pxPrevious : ListNode ι τ → ListNode ι τ
  xItemValue : ListNode ι τ → BitVec 64
  pxContainer : τ → Option ι
  pxIndex : ι → ListNode ι τ
  uxNumberOfItems : ι → Nat

namespace Lists

variable {ι τ : Type} [DecidableEq ι] [DecidableEq τ]

def listMAX_VALUE : BitVec 64 := BitVec.allOnes 64

def setNext (lists : Lists ι τ) (node next : ListNode ι τ) : Lists ι τ :=
  { lists with pxNext := Function.update lists.pxNext node next }

def setPrevious (lists : Lists ι τ) (node previous : ListNode ι τ) : Lists ι τ :=
  { lists with pxPrevious := Function.update lists.pxPrevious node previous }

def setValue (lists : Lists ι τ) (node : ListNode ι τ) (value : BitVec 64) : Lists ι τ :=
  { lists with xItemValue := Function.update lists.xItemValue node value }

def setContainer (lists : Lists ι τ) (item : τ) (container : Option ι) : Lists ι τ :=
  { lists with pxContainer := Function.update lists.pxContainer item container }

def setIndex (lists : Lists ι τ) (pxList : ι) (node : ListNode ι τ) : Lists ι τ :=
  { lists with pxIndex := Function.update lists.pxIndex pxList node }

def setCount (lists : Lists ι τ) (pxList : ι) (count : Nat) : Lists ι τ :=
  { lists with uxNumberOfItems := Function.update lists.uxNumberOfItems pxList count }

def vListInitialise (pxList : ι) (lists : Lists ι τ) : Lists ι τ :=
  let lists := lists.setIndex pxList (.End pxList)
  let lists := lists.setValue (.End pxList) listMAX_VALUE
  let lists := lists.setNext (.End pxList) (.End pxList)
  let lists := lists.setPrevious (.End pxList) (.End pxList)
  lists.setCount pxList 0

def vListInitialiseItem (pxItem : τ) (lists : Lists ι τ) : Lists ι τ :=
  lists.setContainer pxItem none

def vListInsertEnd (pxList : ι) (pxNewListItem : τ) (lists : Lists ι τ) : Lists ι τ :=
  let pxIndex := lists.pxIndex pxList
  let lists := lists.setNext (.Item pxNewListItem) pxIndex
  let lists := lists.setPrevious (.Item pxNewListItem) (lists.pxPrevious pxIndex)
  let lists := lists.setNext (lists.pxPrevious pxIndex) (.Item pxNewListItem)
  let lists := lists.setPrevious pxIndex (.Item pxNewListItem)
  let lists := lists.setContainer pxNewListItem (some pxList)
  lists.setCount pxList (lists.uxNumberOfItems pxList + 1)

-- The loop of `vListInsert`. `none` stands for a loop of more than `fuel` rounds.
def findPosition (lists : Lists ι τ) (xValueOfInsertion : BitVec 64) :
    Nat → ListNode ι τ → Option (ListNode ι τ)
  | 0, _ => none
  | fuel + 1, pxIterator =>
    if lists.xItemValue (lists.pxNext pxIterator) ≤ xValueOfInsertion then
      findPosition lists xValueOfInsertion fuel (lists.pxNext pxIterator)
    else
      some pxIterator

-- The node that a new item is put behind.
def pxIterator (fuel : Nat) (pxList : ι) (xValueOfInsertion : BitVec 64) (lists : Lists ι τ) :
    Option (ListNode ι τ) :=
  if xValueOfInsertion = listMAX_VALUE then
    some (lists.pxPrevious (.End pxList))
  else
    findPosition lists xValueOfInsertion fuel (.End pxList)

def vListInsert (fuel : Nat) (pxList : ι) (pxNewListItem : τ) (lists : Lists ι τ) :
    Option (Lists ι τ) := do
  let xValueOfInsertion := lists.xItemValue (.Item pxNewListItem)
  let pxIterator ← lists.pxIterator fuel pxList xValueOfInsertion
  let lists := lists.setNext (.Item pxNewListItem) (lists.pxNext pxIterator)
  let lists := lists.setPrevious (lists.pxNext (.Item pxNewListItem)) (.Item pxNewListItem)
  let lists := lists.setPrevious (.Item pxNewListItem) pxIterator
  let lists := lists.setNext pxIterator (.Item pxNewListItem)
  let lists := lists.setContainer pxNewListItem (some pxList)
  some (lists.setCount pxList (lists.uxNumberOfItems pxList + 1))

-- The statements of `uxListRemove` after it has read the item's container.
def unlink (pxList : ι) (pxItemToRemove : τ) (lists : Lists ι τ) : Lists ι τ :=
  let item := .Item pxItemToRemove
  let lists := lists.setPrevious (lists.pxNext item) (lists.pxPrevious item)
  let lists := lists.setNext (lists.pxPrevious item) (lists.pxNext item)
  let lists :=
    if lists.pxIndex pxList = item then lists.setIndex pxList (lists.pxPrevious item) else lists
  let lists := lists.setContainer pxItemToRemove none
  lists.setCount pxList (lists.uxNumberOfItems pxList - 1)

-- `none` when the item is on no list: the source then follows a null pointer.
def uxListRemove (pxItemToRemove : τ) (lists : Lists ι τ) : Option (Nat × Lists ι τ) := do
  let pxList ← lists.pxContainer pxItemToRemove
  let lists := lists.unlink pxList pxItemToRemove
  some (lists.uxNumberOfItems pxList, lists)

-- The node whose owner the macro assigns.
def listGET_OWNER_OF_NEXT_ENTRY (pxList : ι) (lists : Lists ι τ) : ListNode ι τ × Lists ι τ :=
  let lists := lists.setIndex pxList (lists.pxNext (lists.pxIndex pxList))
  let lists :=
    if lists.pxIndex pxList = .End pxList then
      lists.setIndex pxList (lists.pxNext (.End pxList))
    else
      lists
  (lists.pxIndex pxList, lists)

def listLIST_IS_EMPTY (pxList : ι) (lists : Lists ι τ) : Bool := lists.uxNumberOfItems pxList == 0

def listCURRENT_LIST_LENGTH (pxList : ι) (lists : Lists ι τ) : Nat := lists.uxNumberOfItems pxList

def listGET_OWNER_OF_HEAD_ENTRY (pxList : ι) (lists : Lists ι τ) : ListNode ι τ :=
  lists.pxNext (.End pxList)

def listGET_ITEM_VALUE_OF_HEAD_ENTRY (pxList : ι) (lists : Lists ι τ) : BitVec 64 :=
  lists.xItemValue (lists.pxNext (.End pxList))

end Lists

end SpaceBaremetal
