import SpaceBaremetal.Kernel.Heap
import Mathlib.Data.Nat.Bitwise

namespace SpaceBaremetal.Heap

open FreeList LinkPath

section SizeArithmetic

variable {a b : Nat}

theorem addSize_of_lt (h : a + b < 2 ^ 64) : addSize a b = a + b := Nat.mod_eq_of_lt h

theorem subSize_of_le (hle : b ≤ a) (hlt : a < 2 ^ 64) : subSize a b = a - b := by
  unfold subSize
  omega

theorem and_alignment_mask (x : Nat) : x &&& portBYTE_ALIGNMENT_MASK = x % 16 :=
  Nat.and_two_pow_sub_one_eq_mod x 4

theorem alignDown_eq (x : Nat) : alignDown x = x / 16 * 16 := by
  unfold alignDown
  rw [and_alignment_mask]
  omega

theorem valid_of_lt (h : a < 2 ^ 63) : heapBLOCK_SIZE_IS_VALID a = true := by
  rw [heapBLOCK_SIZE_IS_VALID, heapBLOCK_ALLOCATED_BITMASK, Nat.and_two_pow,
    Nat.testBit_lt_two_pow h]
  rfl

theorem or_allocated_mask (h : a < 2 ^ 63) : a ||| heapBLOCK_ALLOCATED_BITMASK = 2 ^ 63 + a := by
  have hadd := Nat.two_pow_add_eq_or_of_lt h 1
  rw [Nat.mul_one] at hadd
  rw [hadd, Nat.or_comm, heapBLOCK_ALLOCATED_BITMASK]

theorem allocated_and_mask (h : a < 2 ^ 63) :
    (2 ^ 63 + a) &&& heapBLOCK_ALLOCATED_BITMASK = 2 ^ 63 := by
  rw [heapBLOCK_ALLOCATED_BITMASK, Nat.and_two_pow, Nat.testBit_two_pow_add_eq,
    Nat.testBit_lt_two_pow h]
  rfl

theorem allocated_and_size (h : a < 2 ^ 63) :
    (2 ^ 63 + a) &&& (heapBLOCK_ALLOCATED_BITMASK - 1) = a := by
  rw [heapBLOCK_ALLOCATED_BITMASK, Nat.and_two_pow_sub_one_eq_mod]
  omega

-- The block that a request needs: the request and its header, rounded up.
theorem requiredBlockSize_cases (n : Nat) :
    requiredBlockSize n = 0 ∨
      (n + 16 ≤ requiredBlockSize n ∧ requiredBlockSize n < n + 32 ∧ 16 ∣ requiredBlockSize n ∧
        0 < n) := by
  unfold requiredBlockSize
  simp only [and_alignment_mask, xHeapStructSize, portBYTE_ALIGNMENT]
  split
  · split
    · split
      · split
        · right
          omega
        · exact .inl rfl
      · right
        omega
    · exact .inl rfl
  · left
    omega

theorem add_will_not_overflow (h : a + b < 2 ^ 64) : heapADD_WILL_OVERFLOW a b = false := by
  rw [heapADD_WILL_OVERFLOW, decide_eq_false_iff_not, heapSIZE_MAX]
  omega

theorem requiredBlockSize_of_le {n : Nat} (hpos : 0 < n) (hle : n < 2 ^ 63) :
    requiredBlockSize n = (n + 31) / 16 * 16 := by
  unfold requiredBlockSize
  simp only [and_alignment_mask, xHeapStructSize, portBYTE_ALIGNMENT]
  rw [if_pos hpos, if_pos (add_will_not_overflow (by omega))]
  split
  · rw [if_pos (add_will_not_overflow (by omega))]
    omega
  · omega

end SizeArithmetic

section Layout

variable (layout : HeapLayout)

theorem startAddress_eq : startAddress layout = (layout.ucHeap + 15) / 16 * 16 := by
  unfold startAddress
  simp only [and_alignment_mask, alignDown_eq, portBYTE_ALIGNMENT]
  split <;> omega

theorem endAddress_eq :
    endAddress layout = (layout.ucHeap + configTOTAL_HEAP_SIZE - 16) / 16 * 16 := by
  have hstart := startAddress_eq layout
  unfold endAddress
  simp only [alignDown_eq, xHeapStructSize, configTOTAL_HEAP_SIZE]
  omega

-- The arena of the heap: aligned, within the array, with room for the end marker.
theorem layout_facts :
    0 < startAddress layout ∧ layout.ucHeap ≤ startAddress layout ∧
      startAddress layout < layout.ucHeap + 16 ∧
      endAddress layout + 16 ≤ layout.ucHeap + configTOTAL_HEAP_SIZE ∧
      layout.ucHeap + configTOTAL_HEAP_SIZE < endAddress layout + 32 ∧
      16 ∣ startAddress layout ∧ 16 ∣ endAddress layout := by
  have hstart := startAddress_eq layout
  have hend := endAddress_eq layout
  have hpos := layout.ucHeap_pos
  simp only [configTOTAL_HEAP_SIZE] at hend ⊢
  omega

theorem startAddress_lt_endAddress : startAddress layout < endAddress layout := by
  obtain ⟨-, -, hstart, -, hend, -⟩ := layout_facts layout
  simp only [configTOTAL_HEAP_SIZE] at hend
  omega

theorem usable_le : endAddress layout - startAddress layout < configTOTAL_HEAP_SIZE := by
  obtain ⟨-, hstart, -, hend, -⟩ := layout_facts layout
  simp only [configTOTAL_HEAP_SIZE] at hend ⊢
  omega

end Layout

-- The abstract arena of a heap.
abbrev HeapArena (layout : HeapLayout) : Type :=
  Arena (startAddress layout) (endAddress layout) portBYTE_ALIGNMENT

-- The memory holds these blocks: the free ones are chained from `xStart` to
-- `pxEnd` in the order of the list, each header says how long its block is, and
-- those of the blocks given out carry the mark.
structure Holds (layout : HeapLayout) (heap : Heap) (free live : List Block) : Prop where
  pxEnd : heap.pxEnd = endAddress layout
  path : Path heap.pxNextFreeBlock layout.xStart (free.map Block.start) (endAddress layout)
  startSize : heap.xBlockSize layout.xStart = 0
  endSize : heap.xBlockSize (endAddress layout) = 0
  endNext : heap.pxNextFreeBlock (endAddress layout) = heapNULL
  freeSize : ∀ b ∈ free, heap.xBlockSize b.start = b.size
  liveSize : ∀ b ∈ live, heap.xBlockSize b.start = 2 ^ 63 + b.size
  liveNext : ∀ b ∈ live, heap.pxNextFreeBlock b.start = heapNULL

structure Represents (layout : HeapLayout) (heap : Heap) (a : HeapArena layout) : Prop where
  holds : Holds layout heap a.free a.live
  freeBytes : heap.xFreeBytesRemaining = bytes a.free

section Addresses

variable {layout : HeapLayout} {b : Block}

theorem fits_bounds (h : b.Fits (startAddress layout) (endAddress layout) portBYTE_ALIGNMENT) :
    0 < b.start ∧ layout.ucHeap ≤ b.start ∧ b.start + b.size ≤ endAddress layout ∧
      b.start % 16 = 0 ∧ b.size % 16 = 0 ∧ 0 < b.size ∧ b.size < configTOTAL_HEAP_SIZE := by
  obtain ⟨hpos, hstart, -, hend, -⟩ := layout_facts layout
  obtain ⟨hsize, ⟨hbase, hlimit⟩, hgrid⟩ := h
  have husable := usable_le layout
  simp only [Block.limit] at hlimit
  refine ⟨by omega, by omega, hlimit, Nat.mod_eq_zero_of_dvd hgrid.1, Nat.mod_eq_zero_of_dvd hgrid.2,
    hsize, by omega⟩

theorem fits_ne (h : b.Fits (startAddress layout) (endAddress layout) portBYTE_ALIGNMENT) :
    b.start ≠ layout.xStart ∧ b.start ≠ endAddress layout := by
  obtain ⟨-, hstart, hlimit, -, -, hsize, -⟩ := fits_bounds h
  obtain ⟨-, -, -, hend, -⟩ := layout_facts layout
  have hout := layout.xStart_outside
  simp only [xHeapStructSize] at hout
  omega

theorem endAddress_ne_xStart : endAddress layout ≠ layout.xStart := by
  obtain ⟨-, hstart, -, hend, -⟩ := layout_facts layout
  have hlt := startAddress_lt_endAddress layout
  have hout := layout.xStart_outside
  simp only [xHeapStructSize] at hout
  omega

theorem validate_of_bounds {address : Nat} (hlow : layout.ucHeap ≤ address)
    (hhigh : address < layout.ucHeap + configTOTAL_HEAP_SIZE) :
    heapVALIDATE_BLOCK_POINTER layout address = some () := by
  simp only [heapVALIDATE_BLOCK_POINTER, configASSERT]
  rw [if_pos (by simp only [decide_eq_true_eq]; omega)]

theorem validate_of_fits
    (h : b.Fits (startAddress layout) (endAddress layout) portBYTE_ALIGNMENT) :
    heapVALIDATE_BLOCK_POINTER layout b.start = some () := by
  obtain ⟨-, hstart, hlimit, -, -, hsize, -⟩ := fits_bounds h
  obtain ⟨-, -, -, hend, -⟩ := layout_facts layout
  exact validate_of_bounds hstart (by omega)

theorem validate_endAddress :
    heapVALIDATE_BLOCK_POINTER layout (endAddress layout) = some () := by
  obtain ⟨-, hstart, -, hend, -⟩ := layout_facts layout
  have hlt := startAddress_lt_endAddress layout
  exact validate_of_bounds (by omega) (by omega)

-- The list head and the starts of all blocks are different addresses.
theorem nodes_nodup (a : HeapArena layout) :
    (layout.xStart :: (a.free.map Block.start ++ a.live.map Block.start)).Nodup := by
  rw [List.nodup_cons, ← List.map_append]
  refine ⟨?_, a.starts_nodup⟩
  intro hmem
  obtain ⟨b, hb, heq⟩ := List.mem_map.mp hmem
  obtain hb | hb := List.mem_append.mp hb
  · exact (fits_ne (a.freeFits b hb)).1 heq
  · exact (fits_ne (a.liveFits b hb)).1 heq

theorem freeNodes_nodup (a : HeapArena layout) :
    (layout.xStart :: a.free.map Block.start).Nodup :=
  (nodes_nodup a).sublist (List.Sublist.cons_cons _ (List.sublist_append_left _ _))

theorem free_ne_live {a : HeapArena layout} {f l : Block} (hf : f ∈ a.free) (hl : l ∈ a.live) :
    f.start ≠ l.start := by
  have happart := a.apart l hl f hf
  have hfpos := (a.freeFits f hf).pos
  have hlpos := (a.liveFits l hl).pos
  simp only [Block.Apart, Block.limit] at happart
  omega

end Addresses

section Fields

variable (heap : Heap) (x y : Nat)

@[simp] theorem setNext_next :
    (heap.setNext x y).pxNextFreeBlock = Function.update heap.pxNextFreeBlock x y := rfl

@[simp] theorem setNext_size : (heap.setNext x y).xBlockSize = heap.xBlockSize := rfl

@[simp] theorem setSize_next : (heap.setSize x y).pxNextFreeBlock = heap.pxNextFreeBlock := rfl

@[simp] theorem setSize_size :
    (heap.setSize x y).xBlockSize = Function.update heap.xBlockSize x y := rfl

@[simp] theorem setNext_pxEnd : (heap.setNext x y).pxEnd = heap.pxEnd := rfl

@[simp] theorem setSize_pxEnd : (heap.setSize x y).pxEnd = heap.pxEnd := rfl

@[simp] theorem setNext_free :
    (heap.setNext x y).xFreeBytesRemaining = heap.xFreeBytesRemaining := rfl

@[simp] theorem setSize_free :
    (heap.setSize x y).xFreeBytesRemaining = heap.xFreeBytesRemaining := rfl

end Fields

-- An address at which no header that matters stands.
structure Fresh (layout : HeapLayout) (free live : List Block) (x : Nat) : Prop where
  ne_start : x ≠ layout.xStart
  ne_end : x ≠ endAddress layout
  notFree : ∀ b ∈ free, b.start ≠ x
  notLive : ∀ b ∈ live, b.start ≠ x

-- The headers that matter stand at different addresses.
structure Distinct (layout : HeapLayout) (free live : List Block) : Prop where
  nodup : (layout.xStart :: free.map Block.start).Nodup
  liveNodup : (live.map Block.start).Nodup
  ne_end : ∀ b ∈ free ++ live, b.start ≠ endAddress layout
  ne_start : ∀ b ∈ live, b.start ≠ layout.xStart
  apart : ∀ b ∈ free, ∀ l ∈ live, b.start ≠ l.start

theorem arena_distinct {layout : HeapLayout} (a : HeapArena layout) :
    Distinct layout a.free a.live where
  nodup := freeNodes_nodup a
  liveNodup := by
    have hnodup := a.starts_nodup
    rw [List.map_append] at hnodup
    exact (List.nodup_append.mp hnodup).2.1
  ne_end := by
    intro b hb
    obtain hb | hb := List.mem_append.mp hb
    · exact (fits_ne (a.freeFits b hb)).2
    · exact (fits_ne (a.liveFits b hb)).2
  ne_start := fun b hb => (fits_ne (a.liveFits b hb)).1
  apart := fun _ hf _ hl => free_ne_live hf hl

section Steps

variable {layout : HeapLayout} {heap : Heap} {free front back live : List Block} {b : Block}
  {x y prev : Nat}

theorem Holds.setSize_fresh (h : Holds layout heap free live) (hfresh : Fresh layout free live x) :
    Holds layout (heap.setSize x y) free live where
  pxEnd := h.pxEnd
  path := h.path
  startSize := by
    rw [setSize_size, Function.update_of_ne hfresh.ne_start.symm]
    exact h.startSize
  endSize := by
    rw [setSize_size, Function.update_of_ne hfresh.ne_end.symm]
    exact h.endSize
  endNext := h.endNext
  freeSize := by
    intro b hb
    rw [setSize_size, Function.update_of_ne (hfresh.notFree b hb)]
    exact h.freeSize b hb
  liveSize := by
    intro b hb
    rw [setSize_size, Function.update_of_ne (hfresh.notLive b hb)]
    exact h.liveSize b hb
  liveNext := h.liveNext

-- What `path` must still say when the pointers change.
theorem Holds.setNext (h : Holds layout heap free live) {after : List Block}
    (hpath : Path (heap.setNext x y).pxNextFreeBlock layout.xStart (after.map Block.start)
      (endAddress layout))
    (hsize : ∀ b ∈ after, heap.xBlockSize b.start = b.size)
    (hend : x ≠ endAddress layout) (hlive : ∀ b ∈ live, b.start ≠ x) :
    Holds layout (heap.setNext x y) after live where
  pxEnd := h.pxEnd
  path := hpath
  startSize := h.startSize
  endSize := h.endSize
  endNext := by
    rw [setNext_next, Function.update_of_ne hend.symm]
    exact h.endNext
  freeSize := hsize
  liveSize := h.liveSize
  liveNext := by
    intro b hb
    rw [setNext_next, Function.update_of_ne (hlive b hb)]
    exact h.liveNext b hb

theorem Holds.setNext_fresh (h : Holds layout heap free live) (hfresh : Fresh layout free live x) :
    Holds layout (heap.setNext x y) free live := by
  apply h.setNext _ h.freeSize hfresh.ne_end hfresh.notLive
  apply h.path.update_of_notMem
  intro hmem
  obtain rfl | hmem := List.mem_cons.mp hmem
  · exact hfresh.ne_start rfl
  · obtain ⟨b, hb, heq⟩ := List.mem_map.mp hmem
    exact hfresh.notFree b hb heq

theorem Distinct.sublist (h : Distinct layout free live) {free' live' : List Block}
    (hfree : free'.Sublist free) (hlive : live'.Sublist live) : Distinct layout free' live' where
  nodup := h.nodup.sublist ((hfree.map Block.start).cons_cons _)
  liveNodup := h.liveNodup.sublist (hlive.map Block.start)
  ne_end := by
    intro b hb
    obtain hb | hb := List.mem_append.mp hb
    · exact h.ne_end b (by simp [hfree.subset hb])
    · exact h.ne_end b (by simp [hlive.subset hb])
  ne_start := fun b hb => h.ne_start b (hlive.subset hb)
  apart := fun b hb l hl => h.apart b (hfree.subset hb) l (hlive.subset hl)

-- Only the starts of the blocks matter.
theorem Distinct.of_starts (h : Distinct layout free live) {free' : List Block}
    (hstarts : free'.map Block.start = free.map Block.start) : Distinct layout free' live := by
  have hmem : ∀ b ∈ free', ∃ f ∈ free, f.start = b.start := by
    intro b hb
    have hstart := List.mem_map_of_mem (f := Block.start) hb
    rw [hstarts] at hstart
    exact List.mem_map.mp hstart
  refine ⟨hstarts ▸ h.nodup, h.liveNodup, ?_, h.ne_start, ?_⟩
  · intro b hb
    obtain hb | hb := List.mem_append.mp hb
    · obtain ⟨f, hf, heq⟩ := hmem b hb
      rw [← heq]
      exact h.ne_end f (by simp [hf])
    · exact h.ne_end b (by simp [hb])
  · intro b hb
    obtain ⟨f, hf, heq⟩ := hmem b hb
    rw [← heq]
    exact h.apart f hf

-- A block taken off the list leaves a fresh address.
theorem Distinct.fresh (h : Distinct layout (front ++ b :: back) live) :
    Fresh layout (front ++ back) live b.start where
  ne_start := by
    intro heq
    have hnodup := h.nodup
    rw [List.nodup_cons, ← heq] at hnodup
    exact hnodup.1 (List.mem_map_of_mem (by simp))
  ne_end := h.ne_end b (by simp)
  notFree := by
    have hnodup := (List.nodup_cons.mp h.nodup).2
    rw [List.map_append, List.map_cons, List.perm_middle.nodup_iff, List.nodup_cons,
      ← List.map_append] at hnodup
    intro f hf heq
    exact hnodup.1 (heq ▸ List.mem_map_of_mem hf)
  notLive := fun l hl => (h.apart b (by simp) l hl).symm

-- So does one that is given out.
theorem Distinct.fresh_live (h : Distinct layout free (b :: live)) :
    Fresh layout free live b.start where
  ne_start := h.ne_start b (by simp)
  ne_end := h.ne_end b (by simp)
  notFree := fun f hf => h.apart f hf b (by simp)
  notLive := by
    intro l hl heq
    have hnodup := h.liveNodup
    rw [List.map_cons, List.nodup_cons] at hnodup
    exact hnodup.1 (heq ▸ List.mem_map_of_mem hl)

theorem last_ne_end (hdistinct : Distinct layout (front ++ back) live) :
    last layout.xStart (front.map Block.start) ≠ endAddress layout ∧
      ∀ l ∈ live, l.start ≠ last layout.xStart (front.map Block.start) := by
  have hlast : last layout.xStart (front.map Block.start) ∈
      layout.xStart :: front.map Block.start := last_mem
  obtain heq | hmem := List.mem_cons.mp hlast
  · rw [heq]
    exact ⟨endAddress_ne_xStart.symm, hdistinct.ne_start⟩
  · obtain ⟨f, hf, heq⟩ := List.mem_map.mp hmem
    rw [← heq]
    refine ⟨hdistinct.ne_end f (by simp [hf]), ?_⟩
    intro l hl
    exact (hdistinct.apart f (by simp [hf]) l hl).symm

theorem Holds.unlink (h : Holds layout heap (front ++ b :: back) live)
    (hdistinct : Distinct layout (front ++ b :: back) live)
    (hprev : prev = last layout.xStart (front.map Block.start)) :
    Holds layout (heap.setNext prev (heap.pxNextFreeBlock b.start)) (front ++ back) live := by
  obtain ⟨hend, hlive⟩ := last_ne_end hdistinct
  rw [← hprev] at hend hlive
  apply h.setNext _ _ hend hlive
  · have hpath := h.path
    have hnodup := hdistinct.nodup
    rw [List.map_append, List.map_cons] at hpath hnodup
    rw [hprev, List.map_append]
    exact hpath.skip hnodup
  · intro f hf
    apply h.freeSize
    obtain hf | hf := List.mem_append.mp hf
    · simp [hf]
    · simp [hf]

theorem Holds.link (h : Holds layout heap (front ++ back) live)
    (hdistinct : Distinct layout (front ++ back) live)
    (hprev : prev = last layout.xStart (front.map Block.start))
    (hfresh : Fresh layout (front ++ back) live b.start) (hsize : heap.xBlockSize b.start = b.size) :
    Holds layout ((heap.setNext b.start (heap.pxNextFreeBlock prev)).setNext prev b.start)
      (front ++ b :: back) live := by
  obtain ⟨hend, hlive⟩ := last_ne_end hdistinct
  rw [← hprev] at hend hlive
  apply (h.setNext_fresh hfresh).setNext _ _ hend hlive
  · have hpath := h.path
    have hnodup := hdistinct.nodup
    rw [List.map_append] at hpath hnodup
    rw [hprev, List.map_append, List.map_cons]
    apply hpath.link hnodup
    intro hmem
    rw [← List.map_append] at hmem
    obtain heq | hmem := List.mem_cons.mp hmem
    · exact hfresh.ne_start heq
    · obtain ⟨f, hf, heq⟩ := List.mem_map.mp hmem
      exact hfresh.notFree f hf heq
  · intro f hf
    obtain hf | rfl | hf : f ∈ front ∨ f = b ∨ f ∈ back := by simpa using hf
    · exact h.freeSize f (by simp [hf])
    · exact hsize
    · exact h.freeSize f (by simp [hf])

-- A block on the list gets another length.
theorem Holds.resize (h : Holds layout heap (front ++ b :: back) live)
    (hdistinct : Distinct layout (front ++ b :: back) live) :
    Holds layout (heap.setSize b.start y) (front ++ ⟨b.start, y⟩ :: back) live where
  pxEnd := h.pxEnd
  path := by
    have hpath := h.path
    rw [List.map_append, List.map_cons] at hpath ⊢
    exact hpath
  startSize := by
    rw [setSize_size, Function.update_of_ne hdistinct.fresh.ne_start.symm]
    exact h.startSize
  endSize := by
    rw [setSize_size, Function.update_of_ne hdistinct.fresh.ne_end.symm]
    exact h.endSize
  endNext := h.endNext
  freeSize := by
    have hother : ∀ f ∈ front ++ back, (heap.setSize b.start y).xBlockSize f.start = f.size := by
      intro f hf
      rw [setSize_size, Function.update_of_ne (hdistinct.fresh.notFree f hf)]
      apply h.freeSize
      obtain hf | hf := List.mem_append.mp hf
      · simp [hf]
      · simp [hf]
    intro f hf
    obtain hf | rfl | hf : f ∈ front ∨ f = _ ∨ f ∈ back := by simpa using hf
    · exact hother f (by simp [hf])
    · exact Function.update_self _ _ _
    · exact hother f (by simp [hf])
  liveSize := by
    intro l hl
    rw [setSize_size, Function.update_of_ne (hdistinct.fresh.notLive l hl)]
    exact h.liveSize l hl
  liveNext := h.liveNext

end Steps

-- The list head, the free blocks and the blocks of `extra`.
def Owned (layout : HeapLayout) (blocks : List Block) (x : Nat) : Prop :=
  x = layout.xStart ∨ ∃ f ∈ blocks, f.start ≤ x ∧ x < f.limit

-- The memory outside these is as it was before.
def Untouched (layout : HeapLayout) (blocks : List Block) (before after : Heap) : Prop :=
  ∀ x, ¬Owned layout blocks x →
    after.pxNextFreeBlock x = before.pxNextFreeBlock x ∧ after.xBlockSize x = before.xBlockSize x

section Untouched

variable {layout : HeapLayout} {blocks : List Block} {before after : Heap} {x y : Nat}

theorem owned_start {b : Block} (hb : b ∈ blocks) (hpos : 0 < b.size) :
    Owned layout blocks b.start := by
  refine .inr ⟨b, hb, Nat.le_refl _, ?_⟩
  simp only [Block.limit]
  omega

theorem Untouched.refl : Untouched layout blocks before before := fun _ _ => ⟨rfl, rfl⟩

theorem Untouched.setNext (h : Untouched layout blocks before after)
    (hx : Owned layout blocks x) : Untouched layout blocks before (after.setNext x y) := by
  intro z hz
  refine ⟨?_, (h z hz).2⟩
  rw [setNext_next, Function.update_of_ne]
  · exact (h z hz).1
  · rintro rfl
    exact hz hx

theorem Untouched.setSize (h : Untouched layout blocks before after)
    (hx : Owned layout blocks x) : Untouched layout blocks before (after.setSize x y) := by
  intro z hz
  refine ⟨(h z hz).1, ?_⟩
  rw [setSize_size, Function.update_of_ne]
  · exact (h z hz).2
  · rintro rfl
    exact hz hx

theorem owned_last {front : List Block} (hfront : ∀ f ∈ front, f ∈ blocks)
    (hpos : ∀ f ∈ blocks, 0 < f.size) :
    Owned layout blocks (last layout.xStart (front.map Block.start)) := by
  have hlast : last layout.xStart (front.map Block.start) ∈
      layout.xStart :: front.map Block.start := last_mem
  obtain heq | hmem := List.mem_cons.mp hlast
  · exact .inl heq
  · obtain ⟨f, hf, heq⟩ := List.mem_map.mp hmem
    rw [← heq]
    exact owned_start (hfront f hf) (hpos f (hfront f hf))

end Untouched

end SpaceBaremetal.Heap
