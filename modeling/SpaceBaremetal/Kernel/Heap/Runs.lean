import SpaceBaremetal.Kernel.Heap.Free
import Mathlib.Data.List.Forall2

namespace SpaceBaremetal.Heap

open FreeList LinkPath

-- What a call of `pvPortMalloc` returned, and what it was asked for.
structure Allocation where
  pointer : Nat
  wanted : Nat
deriving DecidableEq, Repr

namespace Allocation

-- The bytes that the application may use.
def Covers (a : Allocation) (x : Nat) : Prop := a.pointer ≤ x ∧ x < a.pointer + a.wanted

-- Neither reaches the other or its header.
def Apart (a b : Allocation) : Prop :=
  a.pointer + a.wanted + xHeapStructSize ≤ b.pointer ∨
    b.pointer + b.wanted + xHeapStructSize ≤ a.pointer

end Allocation

-- The variables before the first call.
structure AtBoot (heap : Heap) : Prop where
  pxEnd : heap.pxEnd = heapNULL
  free : heap.xFreeBytesRemaining = 0
  minimum : heap.xMinimumEverFreeBytesRemaining = 0
  allocations : heap.xNumberOfSuccessfulAllocations = 0
  frees : heap.xNumberOfSuccessfulFrees = 0

-- The application writes in the blocks it was given and nowhere else.
structure WritesOnly (live : List Allocation) (before after : Heap) : Prop where
  links : ∀ x, (∀ a ∈ live, ¬a.Covers x) →
    after.pxNextFreeBlock x = before.pxNextFreeBlock x ∧ after.xBlockSize x = before.xBlockSize x
  pxEnd : after.pxEnd = before.pxEnd
  counts : SameCounts before after

-- Calls and writes in any order. Beside the heap stand the blocks given out,
-- the last one first, and the values that `xFreeBytesRemaining` has had at the
-- end of each call since the heap was set up or the minimum was reset. After
-- `vPortHeapResetState` the application uses none of its blocks any more.
inductive HeapRun (layout : HeapLayout) : Heap → List Allocation → List Nat → Prop
  | boot {heap : Heap} (hboot : AtBoot heap) : HeapRun layout heap [] []
  | malloc {heap after : Heap} {live : List Allocation} {seen : List Nat} {n p : Nat}
      (run : HeapRun layout heap live seen) (hcall : pvPortMalloc layout n heap = some (p, after)) :
      HeapRun layout after (if p = heapNULL then live else ⟨p, n⟩ :: live)
        (xPortGetFreeHeapSize after :: if heap.pxEnd = heapNULL then [] else seen)
  | free {heap after : Heap} {live : List Allocation} {seen : List Nat} {a : Allocation}
      (run : HeapRun layout heap live seen) (ha : a ∈ live)
      (hcall : vPortFree layout a.pointer heap = some after) :
      HeapRun layout after (live.erase a) (xPortGetFreeHeapSize after :: seen)
  | write {heap after : Heap} {live : List Allocation} {seen : List Nat}
      (run : HeapRun layout heap live seen) (hwrite : WritesOnly live heap after) :
      HeapRun layout after live seen
  | resetMinimum {heap : Heap} {live : List Allocation} {seen : List Nat}
      (run : HeapRun layout heap live seen) :
      HeapRun layout (xPortResetHeapMinimumEverFreeHeapSize heap) live [xPortGetFreeHeapSize heap]
  | resetState {heap : Heap} {live : List Allocation} {seen : List Nat}
      (run : HeapRun layout heap live seen) : HeapRun layout (vPortHeapResetState heap) [] []

variable {layout : HeapLayout} {heap after : Heap} {live : List Allocation} {seen : List Nat}

section Init

theorem startAddress_ne_endAddress : startAddress layout ≠ endAddress layout :=
  Nat.ne_of_lt (startAddress_lt_endAddress layout)

def freshArena (layout : HeapLayout) : HeapArena layout :=
  Arena.fresh (startAddress_lt_endAddress layout) (layout_facts layout).2.2.2.2.2.1
    (layout_facts layout).2.2.2.2.2.2

theorem prvHeapInit_represents (layout : HeapLayout) (heap : Heap) :
    Represents layout (prvHeapInit layout heap) (freshArena layout) ∧
      (prvHeapInit layout heap).xMinimumEverFreeBytesRemaining =
        (prvHeapInit layout heap).xFreeBytesRemaining := by
  have hne : startAddress layout ≠ endAddress layout := startAddress_ne_endAddress
  have hend : endAddress layout ≠ layout.xStart := endAddress_ne_xStart
  have hfirst : startAddress layout ≠ layout.xStart :=
    (fits_ne ((freshArena layout).freeFits ⟨startAddress layout, endAddress layout -
      startAddress layout⟩ (by simp [freshArena, Arena.fresh]))).1
  refine ⟨⟨⟨rfl, ?_, ?_, ?_, ?_, ?_, ?_, ?_⟩, ?_⟩, rfl⟩
  · simp [prvHeapInit, freshArena, Arena.fresh, hfirst.symm, hend.symm]
  · simp [prvHeapInit, hfirst.symm, hend.symm]
  · simp [prvHeapInit, hne.symm]
  · simp [prvHeapInit, hne.symm]
  · simp [prvHeapInit, freshArena, Arena.fresh]
  · simp [freshArena, Arena.fresh]
  · simp [freshArena, Arena.fresh]
  · simp [prvHeapInit, freshArena, Arena.fresh]

theorem pvPortMalloc_boot (n : Nat) (hboot : heap.pxEnd = heapNULL) :
    pvPortMalloc layout n heap = pvPortMalloc layout n (prvHeapInit layout heap) := by
  have hpos := (layout_facts layout).1
  have hlt := startAddress_lt_endAddress layout
  have hinit : (prvHeapInit layout heap).pxEnd ≠ heapNULL := by
    rw [(prvHeapInit_represents layout heap).1.holds.pxEnd, heapNULL]
    omega
  simp only [pvPortMalloc, if_pos hboot, if_neg hinit]

end Init

-- An allocation is the part after the header of a block given out, which is as
-- long as the request needs or a little longer.
structure Matches (a : Allocation) (b : Block) : Prop where
  pointer : a.pointer = b.start + xHeapStructSize
  required : requiredBlockSize a.wanted ≠ 0
  size_ge : requiredBlockSize a.wanted ≤ b.size
  size_le : b.size ≤ requiredBlockSize a.wanted + heapMINIMUM_BLOCK_SIZE

theorem Matches.bounds {a : Allocation} {b : Block} (h : Matches a b) :
    a.pointer = b.start + 16 ∧ a.pointer + a.wanted ≤ b.limit ∧ 0 < a.wanted := by
  obtain ⟨hpointer, hrequired, hsize, -⟩ := h
  have hcases := (requiredBlockSize_cases a.wanted).resolve_left hrequired
  rw [xHeapStructSize] at hpointer
  refine ⟨hpointer, ?_, hcases.2.2.2⟩
  simp only [Block.limit]
  omega

section Matches

variable {blocks : List Block} {a : Allocation}

theorem matches_erase (h : List.Forall₂ Matches live blocks) (hnodup : (blocks.map Block.start).Nodup)
    (ha : a ∈ live) :
    ∃ b ∈ blocks, Matches a b ∧ List.Forall₂ Matches (live.erase a) (blocks.erase b) := by
  induction h with
  | nil => cases ha
  | @cons x b live blocks hxb hrest ih =>
    rw [List.map_cons, List.nodup_cons] at hnodup
    by_cases heq : x = a
    · subst heq
      refine ⟨b, by simp, hxb, ?_⟩
      rw [List.erase_cons_head, List.erase_cons_head]
      exact hrest
    · have hmem : a ∈ live := by
        obtain rfl | hmem := List.mem_cons.mp ha
        · exact absurd rfl heq
        · exact hmem
      obtain ⟨c, hc, hac, herase⟩ := ih hnodup.2 hmem
      have hne : b ≠ c := by
        rintro rfl
        exact hnodup.1 (List.mem_map_of_mem hc)
      refine ⟨c, List.mem_cons_of_mem _ hc, hac, ?_⟩
      rw [List.erase_cons_tail (by simpa using heq), List.erase_cons_tail (by simpa using hne)]
      exact .cons hxb herase

theorem matches_of_mem (h : List.Forall₂ Matches live blocks) (ha : a ∈ live) :
    ∃ b ∈ blocks, Matches a b := by
  induction h with
  | nil => cases ha
  | @cons x b live blocks hxb hrest ih =>
    obtain rfl | hmem := List.mem_cons.mp ha
    · exact ⟨b, by simp, hxb⟩
    · obtain ⟨c, hc, hac⟩ := ih hmem
      exact ⟨c, List.mem_cons_of_mem _ hc, hac⟩

theorem matches_apart {x : Allocation} {b c : Block} (hab : Matches a b) (hxc : Matches x c)
    (hbc : b.Apart c) : a.Apart x := by
  obtain ⟨hapointer, halimit, -⟩ := hab.bounds
  obtain ⟨hxpointer, hxlimit, -⟩ := hxc.bounds
  simp only [Block.Apart] at hbc
  simp only [Allocation.Apart, xHeapStructSize]
  omega

theorem matches_pairwise (h : List.Forall₂ Matches live blocks)
    (hpairwise : blocks.Pairwise Block.Apart) : live.Pairwise Allocation.Apart := by
  induction h with
  | nil => exact List.Pairwise.nil
  | @cons x b live blocks hxb hrest ih =>
    obtain ⟨hb, htail⟩ := List.pairwise_cons.mp hpairwise
    refine List.pairwise_cons.mpr ⟨?_, ih htail⟩
    intro a ha
    obtain ⟨c, hc, hac⟩ := matches_of_mem hrest ha
    exact matches_apart hxb hac (hb c hc)

end Matches

-- The invariant of the runs, once the heap is set up.
structure Ready (layout : HeapLayout) (heap : Heap) (live : List Allocation) (a : HeapArena layout) :
    Prop where
  represents : Represents layout heap a
  matched : List.Forall₂ Matches live a.live
  minimum_le : heap.xMinimumEverFreeBytesRemaining ≤ heap.xFreeBytesRemaining
  allocations : heap.xNumberOfSuccessfulAllocations =
    (heap.xNumberOfSuccessfulFrees + live.length) % 2 ^ 64
  frees : heap.xNumberOfSuccessfulFrees < 2 ^ 64

section Steps

variable {a : HeapArena layout} {n p : Nat}

theorem Ready.ne_null (h : Ready layout heap live a) : heap.pxEnd ≠ heapNULL := by
  have hpos := (layout_facts layout).1
  have hlt := startAddress_lt_endAddress layout
  rw [h.represents.holds.pxEnd, heapNULL]
  omega

-- A call of `pvPortMalloc`, and what it leaves of the blocks given out before.
theorem Ready.malloc (h : Ready layout heap live a)
    (hcall : pvPortMalloc layout n heap = some (p, after)) :
    ∃ a', Ready layout after (if p = heapNULL then live else ⟨p, n⟩ :: live) a' ∧
      after.xMinimumEverFreeBytesRemaining =
        min heap.xMinimumEverFreeBytesRemaining after.xFreeBytesRemaining ∧
      after.xFreeBytesRemaining ≤ heap.xFreeBytesRemaining ∧
      Untouched layout a.free heap after ∧
      (if p = heapNULL then a'.live = a.live else ∃ taken, a'.live = taken :: a.live ∧
        firstFit (requiredBlockSize n) heapMINIMUM_BLOCK_SIZE a.free = some (taken, a'.free)) := by
  obtain ⟨hnull, -⟩ | ⟨taken, a', after', hsome, hpos, hfit, hlive, hrep, htouched, hcounted⟩ :=
    pvPortMalloc_spec h.represents n
  · rw [hnull, Option.some.injEq, Prod.mk.injEq] at hcall
    obtain ⟨rfl, rfl⟩ := hcall
    refine ⟨a, ?_, (Nat.min_eq_left h.minimum_le).symm, Nat.le_refl _, Untouched.refl, ?_⟩
    · rw [if_pos rfl]
      exact h
    · rw [if_pos rfl]
  · rw [hsome, Option.some.injEq, Prod.mk.injEq] at hcall
    obtain ⟨rfl, rfl⟩ := hcall
    have hrequired := (requiredBlockSize_cases n).resolve_left hpos
    have hbytes := firstFit_bytes hfit
    have hsize := firstFit_size hfit
    have hfree : after'.xFreeBytesRemaining ≤ heap.xFreeBytesRemaining := by
      rw [hrep.freeBytes, h.represents.freeBytes]
      omega
    have hne : taken.start + 16 ≠ heapNULL := by
      rw [heapNULL]
      omega
    refine ⟨a', ⟨hrep, ?_, ?_, ?_, ?_⟩, hcounted.minimum, hfree, htouched, ?_⟩
    · rw [if_neg hne, hlive]
      exact .cons ⟨rfl, hpos, hsize.1, hsize.2⟩ h.matched
    · rw [hcounted.minimum]
      exact Nat.min_le_right _ _
    · rw [if_neg hne, hcounted.allocations, hcounted.frees, h.allocations, addSize,
        List.length_cons]
      omega
    · rw [hcounted.frees]
      exact h.frees
    · rw [if_neg hne]
      exact ⟨taken, hlive, hfit⟩

-- A call of `vPortFree` on one of the blocks given out.
theorem Ready.free (h : Ready layout heap live a) {x : Allocation} (hx : x ∈ live) :
    ∃ b, ∃ hb : b ∈ a.live, Matches x b ∧ ∃ after, vPortFree layout x.pointer heap = some after ∧
      Ready layout after (live.erase x) (a.release b hb) ∧
      after.xMinimumEverFreeBytesRemaining = heap.xMinimumEverFreeBytesRemaining ∧
      Untouched layout (b :: a.free) heap after := by
  obtain ⟨b, hb, hmatch, herase⟩ := matches_erase h.matched (arena_distinct a).liveNodup hx
  obtain ⟨after, hcall, hrep, htouched, hminimum, hallocations, hfrees⟩ :=
    vPortFree_spec h.represents hb
  refine ⟨b, hb, hmatch, after, ?_, ⟨hrep, herase, ?_, ?_, ?_⟩, hminimum, htouched⟩
  · rw [hmatch.pointer]
    exact hcall
  · have hle := h.minimum_le
    rw [h.represents.freeBytes] at hle
    rw [hminimum, hrep.freeBytes, Arena.release_free, bytes_putBack]
    omega
  · have hlength := List.length_erase_of_mem hx
    have hpos := List.length_pos_of_mem hx
    have hcount := h.allocations
    have hlt := h.frees
    rw [hallocations, hfrees, hcount, hlength, addSize]
    omega
  · rw [hfrees, addSize]
    exact Nat.mod_lt _ (by omega)

-- The addresses at which the allocator keeps something are not the application's.
theorem Ready.header_uncovered (h : Ready layout heap live a) {address : Nat}
    (haddress : address = layout.xStart ∨ address = endAddress layout ∨
      ∃ b ∈ a.free ++ a.live, address = b.start) :
    ∀ x ∈ live, ¬x.Covers address := by
  intro x hx hcovers
  obtain ⟨b, hb, hmatch⟩ := matches_of_mem h.matched hx
  obtain ⟨hpointer, hlimit, hwanted⟩ := hmatch.bounds
  have hfits := a.liveFits b hb
  obtain ⟨-, hlow, hhigh, -⟩ := fits_bounds hfits
  obtain ⟨-, -, -, hend, -⟩ := layout_facts layout
  simp only [Allocation.Covers, Block.limit] at hcovers hlimit
  obtain rfl | rfl | ⟨c, hc, rfl⟩ := haddress
  · have hout := layout.xStart_outside
    rw [xHeapStructSize] at hout
    omega
  · omega
  · by_cases heq : c = b
    · subst heq
      omega
    · have happart : b.Apart c := by
        obtain hc | hc := List.mem_append.mp hc
        · exact a.apart b hb c hc
        · exact Arena.apart_of_mem_of_ne a.liveApart hb hc (Ne.symm heq)
      have hcpos : 0 < c.size := by
        obtain hc | hc := List.mem_append.mp hc
        · exact (a.freeFits c hc).pos
        · exact (a.liveFits c hc).pos
      simp only [Block.Apart, Block.limit] at happart
      omega

theorem Ready.write (h : Ready layout heap live a) (hwrite : WritesOnly live heap after) :
    Ready layout after live a := by
  have hsame : ∀ address, (address = layout.xStart ∨ address = endAddress layout ∨
      ∃ b ∈ a.free ++ a.live, address = b.start) →
      after.pxNextFreeBlock address = heap.pxNextFreeBlock address ∧
        after.xBlockSize address = heap.xBlockSize address :=
    fun address haddress => hwrite.links address (h.header_uncovered haddress)
  have hholds := h.represents.holds
  have hfree : ∀ b ∈ a.free, _ := fun b hb => hsame b.start (.inr (.inr ⟨b, by simp [hb], rfl⟩))
  have hlive : ∀ b ∈ a.live, _ := fun b hb => hsame b.start (.inr (.inr ⟨b, by simp [hb], rfl⟩))
  have hstart := hsame layout.xStart (.inl rfl)
  have hend := hsame (endAddress layout) (.inr (.inl rfl))
  refine ⟨⟨⟨hwrite.pxEnd.trans hholds.pxEnd, ?_, hstart.2.trans hholds.startSize,
    hend.2.trans hholds.endSize, hend.1.trans hholds.endNext,
    fun b hb => (hfree b hb).2.trans (hholds.freeSize b hb),
    fun b hb => (hlive b hb).2.trans (hholds.liveSize b hb),
    fun b hb => (hlive b hb).1.trans (hholds.liveNext b hb)⟩,
    hwrite.counts.free.trans h.represents.freeBytes⟩, h.matched, ?_, ?_, ?_⟩
  · apply hholds.path.congr
    intro node hnode
    obtain rfl | hnode := List.mem_cons.mp hnode
    · exact hstart.1
    · obtain ⟨b, hb, rfl⟩ := List.mem_map.mp hnode
      exact (hfree b hb).1
  · rw [hwrite.counts.minimum, hwrite.counts.free]
    exact h.minimum_le
  · rw [hwrite.counts.allocations, hwrite.counts.frees]
    exact h.allocations
  · rw [hwrite.counts.frees]
    exact h.frees

end Steps

theorem AtBoot.ready (h : AtBoot heap) (layout : HeapLayout) :
    Ready layout (prvHeapInit layout heap) [] (freshArena layout) ∧
      (prvHeapInit layout heap).xMinimumEverFreeBytesRemaining =
        (prvHeapInit layout heap).xFreeBytesRemaining := by
  obtain ⟨hrep, hminimum⟩ := prvHeapInit_represents layout heap
  have hallocations : (prvHeapInit layout heap).xNumberOfSuccessfulAllocations = 0 := h.allocations
  have hfrees : (prvHeapInit layout heap).xNumberOfSuccessfulFrees = 0 := h.frees
  refine ⟨⟨hrep, .nil, Nat.le_of_eq hminimum, ?_, ?_⟩, hminimum⟩
  · rw [hallocations, hfrees]
    rfl
  · rw [hfrees]
    omega

-- Whatever the memory holds, the next request sets it up as the first one did.
theorem vPortHeapResetState_atBoot (heap : Heap) : AtBoot (vPortHeapResetState heap) :=
  ⟨rfl, rfl, rfl, rfl, rfl⟩

-- What holds of the heap after any calls and writes.
theorem HeapRun.cases (run : HeapRun layout heap live seen) :
    (AtBoot heap ∧ live = []) ∨
    ∃ a, Ready layout heap live a ∧ heap.xMinimumEverFreeBytesRemaining ∈ seen ∧
      ∀ free ∈ seen, heap.xMinimumEverFreeBytesRemaining ≤ free := by
  induction run with
  | boot hboot => exact .inl ⟨hboot, rfl⟩
  | @malloc heap after live seen n p run hcall ih =>
    right
    obtain ⟨hboot, rfl⟩ | ⟨a, hready, hmem, hle⟩ := ih
    · obtain ⟨hready, hminimum⟩ := hboot.ready layout
      rw [pvPortMalloc_boot n hboot.pxEnd] at hcall
      obtain ⟨a, hready', hmin, hfree, -, -⟩ := hready.malloc hcall
      rw [hminimum, Nat.min_eq_right hfree] at hmin
      refine ⟨a, hready', ?_, ?_⟩
      · rw [hmin]
        simp [xPortGetFreeHeapSize]
      · rw [if_pos hboot.pxEnd, hmin]
        simp [xPortGetFreeHeapSize]
    · obtain ⟨a', hready', hmin, -⟩ := hready.malloc hcall
      rw [if_neg hready.ne_null]
      refine ⟨a', hready', ?_, ?_⟩
      · rw [hmin, List.mem_cons, xPortGetFreeHeapSize]
        rcases Nat.le_total heap.xMinimumEverFreeBytesRemaining after.xFreeBytesRemaining with h | h
        · rw [Nat.min_eq_left h]
          exact .inr hmem
        · exact .inl (Nat.min_eq_right h)
      · intro free hfree
        rw [hmin]
        obtain rfl | hfree := List.mem_cons.mp hfree
        · exact Nat.min_le_right _ _
        · exact Nat.le_trans (Nat.min_le_left _ _) (hle free hfree)
  | @free heap after live seen x run hx hcall ih =>
    right
    obtain ⟨-, rfl⟩ | ⟨a, hready, hmem, hle⟩ := ih
    · cases hx
    · obtain ⟨b, hb, -, after', hcall', hready', hmin, -⟩ := hready.free hx
      rw [hcall', Option.some.injEq] at hcall
      subst hcall
      refine ⟨_, hready', ?_, ?_⟩
      · rw [hmin]
        exact List.mem_cons_of_mem _ hmem
      · intro free hfree
        obtain rfl | hfree := List.mem_cons.mp hfree
        · exact hready'.minimum_le
        · rw [hmin]
          exact hle free hfree
  | @write heap after live seen run hwrite ih =>
    obtain ⟨hboot, hlive⟩ | ⟨a, hready, hmem, hle⟩ := ih
    · left
      exact ⟨⟨hwrite.pxEnd.trans hboot.pxEnd, hwrite.counts.free.trans hboot.free,
        hwrite.counts.minimum.trans hboot.minimum, hwrite.counts.allocations.trans hboot.allocations,
        hwrite.counts.frees.trans hboot.frees⟩, hlive⟩
    · right
      refine ⟨a, hready.write hwrite, ?_⟩
      rw [hwrite.counts.minimum]
      exact ⟨hmem, hle⟩
  | @resetMinimum heap live seen run ih =>
    obtain ⟨hboot, hlive⟩ | ⟨a, hready, hmem, hle⟩ := ih
    · left
      exact ⟨⟨hboot.pxEnd, hboot.free, hboot.free, hboot.allocations, hboot.frees⟩, hlive⟩
    · right
      have hholds := hready.represents.holds
      refine ⟨a, ⟨⟨⟨hholds.pxEnd, hholds.path, hholds.startSize, hholds.endSize, hholds.endNext,
        hholds.freeSize, hholds.liveSize, hholds.liveNext⟩, hready.represents.freeBytes⟩,
        hready.matched, Nat.le_refl _, hready.allocations, hready.frees⟩, ?_, ?_⟩
      · simp [xPortResetHeapMinimumEverFreeHeapSize, xPortGetFreeHeapSize]
      · simp [xPortResetHeapMinimumEverFreeHeapSize, xPortGetFreeHeapSize]
  | @resetState heap live seen run ih => exact .inl ⟨vPortHeapResetState_atBoot heap, rfl⟩

end SpaceBaremetal.Heap
