import SpaceBaremetal.Kernel.Heap.Runs

namespace SpaceBaremetal.Heap

open FreeList LinkPath

variable {layout : HeapLayout} {heap after : Heap} {live : List Allocation} {seen : List Nat}

-- The block of an allocation, as its header gives it.
def blockOf (heap : Heap) (x : Allocation) : Block :=
  ⟨x.pointer - xHeapStructSize,
    heap.xBlockSize (x.pointer - xHeapStructSize) &&& (heapBLOCK_ALLOCATED_BITMASK - 1)⟩

section Ready

variable {a : HeapArena layout}

theorem HeapRun.ready (run : HeapRun layout heap live seen) (hinit : heap.pxEnd ≠ heapNULL) :
    ∃ a, Ready layout heap live a ∧ heap.xMinimumEverFreeBytesRemaining ∈ seen ∧
      ∀ free ∈ seen, heap.xMinimumEverFreeBytesRemaining ≤ free := by
  obtain ⟨hboot, -⟩ | hready := run.cases
  · exact absurd hboot.pxEnd hinit
  · exact hready

theorem Represents.malloc_isSome (h : Represents layout heap a) (n : Nat) :
    (pvPortMalloc layout n heap).isSome := by
  obtain ⟨hnull, -⟩ | ⟨taken, a', after, hsome, -⟩ := pvPortMalloc_spec h n
  · simp [hnull]
  · simp [hsome]

-- Whatever the calls so far, the next request is answered.
theorem HeapRun.malloc_isSome (run : HeapRun layout heap live seen) (n : Nat) :
    (pvPortMalloc layout n heap).isSome := by
  obtain ⟨hboot, -⟩ | ⟨a, hready, -⟩ := run.cases
  · rw [pvPortMalloc_boot n hboot.pxEnd]
    exact (prvHeapInit_represents layout heap).1.malloc_isSome n
  · exact hready.represents.malloc_isSome n

-- What is given out lies after a header in the array and before the end marker.
theorem Ready.within (h : Ready layout heap live a) {x : Allocation} (hx : x ∈ live) :
    x.pointer % portBYTE_ALIGNMENT = 0 ∧ layout.ucHeap + xHeapStructSize ≤ x.pointer ∧
      x.pointer + x.wanted ≤ endAddress layout := by
  obtain ⟨b, hb, hmatch⟩ := matches_of_mem h.matched hx
  obtain ⟨hpointer, hlimit, -⟩ := hmatch.bounds
  obtain ⟨-, hlow, hhigh, hgrid, -⟩ := fits_bounds (a.liveFits b hb)
  simp only [Block.limit] at hlimit
  simp only [portBYTE_ALIGNMENT, xHeapStructSize]
  omega

theorem blockOf_eq {x : Allocation} {b : Block} (hrep : Represents layout heap a) (hb : b ∈ a.live)
    (hmatch : Matches x b) : blockOf heap x = b := by
  have hlt := (fits_bounds (a.liveFits b hb)).2.2.2.2.2.2
  simp only [configTOTAL_HEAP_SIZE] at hlt
  rw [blockOf, hmatch.pointer, Nat.add_sub_cancel, hrep.holds.liveSize b hb,
    allocated_and_size (by omega)]

theorem Ready.map_blockOf (h : Ready layout heap live a) : live.map (blockOf heap) = a.live := by
  have hmap : ∀ (live : List Allocation) (blocks : List Block), List.Forall₂ Matches live blocks →
      (∀ b ∈ blocks, b ∈ a.live) → live.map (blockOf heap) = blocks := by
    intro live blocks hmatched
    induction hmatched with
    | nil => simp
    | @cons x b live blocks hxb hrest ih =>
      intro hmem
      rw [List.map_cons, blockOf_eq h.represents (hmem b (by simp)) hxb,
        ih (fun c hc => hmem c (List.mem_cons_of_mem _ hc))]
  exact hmap live a.live h.matched (fun b hb => hb)

-- What the application may use is no part of the list head or a free block, nor
-- of another block given out.
theorem Ready.not_owned (h : Ready layout heap live a) {x : Allocation} (hx : x ∈ live) {y : Nat}
    (hy : x.Covers y) : ∃ b ∈ a.live, Matches x b ∧ ∀ blocks,
      (∀ c ∈ blocks, c ∈ a.free ∨ c ∈ a.live ∧ c ≠ b) → ¬Owned layout blocks y := by
  obtain ⟨b, hb, hmatch⟩ := matches_of_mem h.matched hx
  obtain ⟨hpointer, hlimit, -⟩ := hmatch.bounds
  refine ⟨b, hb, hmatch, ?_⟩
  intro blocks hblocks howned
  have hstart := h.header_uncovered (.inl rfl) x hx
  simp only [Allocation.Covers] at hy hstart
  obtain rfl | ⟨c, hc, hlow, hhigh⟩ := howned
  · exact hstart hy
  · have happart : b.Apart c := by
      obtain hfree | ⟨hlive, hne⟩ := hblocks c hc
      · exact a.apart b hb c hfree
      · exact Arena.apart_of_mem_of_ne a.liveApart hb hlive hne.symm
    simp only [Block.Apart] at happart
    omega

end Ready

section Example

-- An array that the linker has not aligned, and a first call.
def linkedLayout : HeapLayout where
  ucHeap := 0x80004008
  xStart := 0x80001000
  ucHeap_pos := by decide
  ucHeap_fits := by decide
  xStart_outside := .inl (by decide)

def clearedHeap : Heap := ⟨fun _ => 0, fun _ => 0, heapNULL, 0, 0, 0, 0⟩

theorem clearedHeap_atBoot : AtBoot clearedHeap := ⟨rfl, rfl, rfl, rfl, rfl⟩

def heapAfterOne : Heap := ((pvPortMalloc linkedLayout 100 clearedHeap).getD (0, clearedHeap)).2

theorem heapAfterOne_call :
    pvPortMalloc linkedLayout 100 clearedHeap = some (0x80004020, heapAfterOne) := by
  have hpointer : (pvPortMalloc linkedLayout 100 clearedHeap).map Prod.fst = some 0x80004020 := by
    decide +kernel
  obtain ⟨⟨p, after⟩, hcall, hp⟩ := Option.map_eq_some_iff.mp hpointer
  simp only at hp
  rw [heapAfterOne, hcall, hp]
  rfl

theorem heapAfterOne_run : ∃ seen, HeapRun linkedLayout heapAfterOne [⟨0x80004020, 100⟩] seen := by
  have run := (HeapRun.boot clearedHeap_atBoot).malloc heapAfterOne_call
  rw [if_neg (by decide)] at run
  exact ⟨_, run⟩

theorem heapAfterOne_init : heapAfterOne.pxEnd ≠ heapNULL := by decide +kernel

end Example

-- Whatever the calls so far, no assertion of the allocator fails and none of its
-- loops runs on; what it gives out is aligned, ends before the end marker, which
-- is in the array, and lies apart.
theorem heapRun_safe (run : HeapRun layout heap live seen) :
    (∀ n, (pvPortMalloc layout n heap).isSome) ∧
      (∀ x ∈ live, (vPortFree layout x.pointer heap).isSome) ∧
      (∀ x ∈ live, x.pointer % portBYTE_ALIGNMENT = 0 ∧
        layout.ucHeap + xHeapStructSize ≤ x.pointer ∧ x.pointer + x.wanted ≤ endAddress layout ∧
        heap.pxEnd = endAddress layout ∧
        endAddress layout + xHeapStructSize ≤ layout.ucHeap + configTOTAL_HEAP_SIZE) ∧
      live.Pairwise Allocation.Apart := by
  refine ⟨run.malloc_isSome, ?_⟩
  obtain ⟨-, rfl⟩ | ⟨a, hready, -⟩ := run.cases
  · exact ⟨by simp, by simp, List.Pairwise.nil⟩
  · refine ⟨?_, ?_, matches_pairwise hready.matched a.liveApart⟩
    · intro x hx
      obtain ⟨b, hb, -, after, hcall, -⟩ := hready.free hx
      simp [hcall]
    · intro x hx
      obtain ⟨haligned, hlow, hhigh⟩ := hready.within hx
      exact ⟨haligned, hlow, hhigh, hready.represents.holds.pxEnd, (layout_facts layout).2.2.2.1⟩

theorem heapRun_safe_after_one :
    (pvPortMalloc linkedLayout 40000 heapAfterOne).isSome ∧
      (vPortFree linkedLayout 0x80004020 heapAfterOne).isSome ∧
      0x80004020 + 100 ≤ heapAfterOne.pxEnd ∧ heapAfterOne.pxEnd = 0x8000BFF0 := by
  obtain ⟨seen, run⟩ := heapAfterOne_run
  obtain ⟨hmalloc, hfree, hwithin, -⟩ := heapRun_safe run
  obtain ⟨-, -, hlimit, hend, -⟩ := hwithin ⟨0x80004020, 100⟩ (by simp)
  refine ⟨hmalloc 40000, hfree ⟨0x80004020, 100⟩ (by simp), ?_, ?_⟩
  · rw [hend]
    exact hlimit
  · rw [hend]
    decide

-- No call writes into a block that stays given out.
theorem heapRun_keeps_contents (run : HeapRun layout heap live seen) :
    (∀ n p after, pvPortMalloc layout n heap = some (p, after) → ∀ x ∈ live, ∀ y, x.Covers y →
      after.pxNextFreeBlock y = heap.pxNextFreeBlock y ∧ after.xBlockSize y = heap.xBlockSize y) ∧
    ∀ z ∈ live, ∀ after, vPortFree layout z.pointer heap = some after →
      ∀ x ∈ live.erase z, ∀ y, x.Covers y →
        after.pxNextFreeBlock y = heap.pxNextFreeBlock y ∧ after.xBlockSize y = heap.xBlockSize y := by
  obtain ⟨-, rfl⟩ | ⟨a, hready, -⟩ := run.cases
  · simp
  · refine ⟨?_, ?_⟩
    · intro n p after hcall x hx y hy
      obtain ⟨-, -, -, -, htouched, -⟩ := hready.malloc hcall
      obtain ⟨b, hb, -, hout⟩ := hready.not_owned hx hy
      exact htouched y (hout a.free (fun c hc => .inl hc))
    · intro z hz after hcall x hx y hy
      obtain ⟨c, hc, hzc, after', hcall', hready', -, htouched⟩ := hready.free hz
      rw [hcall', Option.some.injEq] at hcall
      subst hcall
      have hxmem := List.mem_of_mem_erase hx
      obtain ⟨b, hb, hxb, hout⟩ := hready.not_owned hxmem hy
      have hne : c ≠ b := by
        rintro rfl
        obtain ⟨d, hd, hxd⟩ := matches_of_mem hready'.matched hx
        have hdpointer := hxd.pointer
        have hcpointer := hxb.pointer
        have happart := Arena.apart_erase a.liveApart hc hd
        have hdpos := (a.liveFits d (List.mem_of_mem_erase hd)).pos
        have hcpos := (a.liveFits c hc).pos
        simp only [Block.Apart, Block.limit] at happart
        omega
      apply htouched y (hout _ ?_)
      intro d hd
      obtain rfl | hd := List.mem_cons.mp hd
      · exact .inr ⟨hc, hne⟩
      · exact .inl hd

theorem heapRun_keeps_contents_after_one : ∃ after,
    pvPortMalloc linkedLayout 50 heapAfterOne = some (0x800040A0, after) ∧
      after.xBlockSize 0x80004040 = heapAfterOne.xBlockSize 0x80004040 := by
  obtain ⟨seen, run⟩ := heapAfterOne_run
  have hpointer : (pvPortMalloc linkedLayout 50 heapAfterOne).map Prod.fst = some 0x800040A0 := by
    decide +kernel
  obtain ⟨⟨p, after⟩, hcall, rfl⟩ := Option.map_eq_some_iff.mp hpointer
  have hkept := (heapRun_keeps_contents run).1 50 _ after hcall ⟨0x80004020, 100⟩ (by simp)
    0x80004040 (by simp [Allocation.Covers])
  exact ⟨after, hcall, hkept.2⟩

-- The free bytes and the blocks given out are all there is; the minimum is the
-- least that was free; the counters differ by what is out; and no block is much
-- longer than what was asked for.
theorem heapRun_accounts (run : HeapRun layout heap live seen) (hinit : heap.pxEnd ≠ heapNULL) :
    xPortGetFreeHeapSize heap + bytes (live.map (blockOf heap)) =
        endAddress layout - startAddress layout ∧
      xPortGetMinimumEverFreeHeapSize heap ∈ seen ∧
      (∀ free ∈ seen, xPortGetMinimumEverFreeHeapSize heap ≤ free) ∧
      heap.xNumberOfSuccessfulAllocations =
        (heap.xNumberOfSuccessfulFrees + live.length) % 2 ^ 64 ∧
      ∀ x ∈ live, x.wanted + xHeapStructSize ≤ (blockOf heap x).size ∧
        (blockOf heap x).size < x.wanted + 64 := by
  obtain ⟨a, hready, hmem, hle⟩ := run.ready hinit
  refine ⟨?_, hmem, hle, hready.allocations, ?_⟩
  · rw [hready.map_blockOf, xPortGetFreeHeapSize, hready.represents.freeBytes]
    exact a.total
  · intro x hx
    obtain ⟨b, hb, hmatch⟩ := matches_of_mem hready.matched hx
    rw [blockOf_eq hready.represents hb hmatch]
    have hcases := (requiredBlockSize_cases x.wanted).resolve_left hmatch.required
    have hge := hmatch.size_ge
    have hle := hmatch.size_le
    simp only [heapMINIMUM_BLOCK_SIZE, xHeapStructSize] at hle ⊢
    omega

theorem heapRun_accounts_after_one :
    xPortGetFreeHeapSize heapAfterOne + 128 =
      endAddress linkedLayout - startAddress linkedLayout := by
  obtain ⟨seen, run⟩ := heapAfterOne_run
  have hbytes : bytes ([⟨0x80004020, 100⟩].map (blockOf heapAfterOne)) = 128 := by decide +kernel
  rw [← hbytes]
  exact (heapRun_accounts run heapAfterOne_init).1

section Stats

variable {a : HeapArena layout}

-- The walk over the free blocks from any of them.
theorem countBlocks_spec {blocks : List Block} {prev fuel count largest smallest : Nat}
    (hpath : Path heap.pxNextFreeBlock prev (blocks.map Block.start) (endAddress layout))
    (hpxEnd : heap.pxEnd = endAddress layout)
    (hfits : ∀ b ∈ blocks, b.Fits (startAddress layout) (endAddress layout) portBYTE_ALIGNMENT)
    (hsize : ∀ b ∈ blocks, heap.xBlockSize b.start = b.size)
    (hfuel : blocks.length < fuel) (hcount : count + blocks.length < 2 ^ 64) :
    countBlocks heap fuel (heap.pxNextFreeBlock prev) count largest smallest =
      some (count + blocks.length, (blocks.map Block.size).foldl max largest,
        (blocks.map Block.size).foldl min smallest) := by
  induction blocks generalizing prev fuel count largest smallest with
  | nil =>
    obtain ⟨fuel, rfl⟩ : ∃ n, fuel = n + 1 := ⟨fuel - 1, by omega⟩
    rw [countBlocks, show heap.pxNextFreeBlock prev = endAddress layout from hpath,
      if_neg (by rw [hpxEnd]; simp)]
    rfl
  | cons b blocks ih =>
    obtain ⟨fuel, rfl⟩ : ∃ n, fuel = n + 1 := ⟨fuel - 1, by omega⟩
    obtain ⟨hnext, hrest⟩ := hpath
    have hne := (fits_ne (hfits b (by simp))).2
    rw [List.length_cons] at hfuel hcount
    rw [countBlocks, hnext, if_pos (by rw [hpxEnd]; exact hne), hsize b (by simp),
      ih hrest (fun c hc => hfits c (List.mem_cons_of_mem _ hc))
        (fun c hc => hsize c (List.mem_cons_of_mem _ hc)) (by omega)
        (by rw [addSize_of_lt (by omega)]; omega),
      addSize_of_lt (by omega), List.length_cons, List.map_cons, List.foldl_cons, List.foldl_cons]
    congr 2
    · omega
    · congr 2
      · rw [Nat.max_def]
        split <;> split <;> omega
      · rw [Nat.min_def]
        split <;> split <;> omega

theorem le_foldl_max {sizes : List Nat} {n start : Nat} :
    n ≤ sizes.foldl max start ↔ n ≤ start ∨ ∃ size ∈ sizes, n ≤ size := by
  induction sizes generalizing start with
  | nil => simp
  | cons size sizes ih =>
    have hmax : n ≤ max start size ↔ n ≤ start ∨ n ≤ size := by omega
    rw [List.foldl_cons, ih, hmax]
    simp [or_assoc]

theorem vPortGetHeapStats_spec (hrep : Represents layout heap a) :
    ∃ stats, vPortGetHeapStats layout heap = some stats ∧
      stats.xNumberOfFreeBlocks = a.free.length ∧
      stats.xSizeOfLargestFreeBlockInBytes = (a.free.map Block.size).foldl max 0 ∧
      stats.xSizeOfSmallestFreeBlockInBytes = (a.free.map Block.size).foldl min heapSIZE_MAX ∧
      stats.xAvailableHeapSpaceInBytes = bytes a.free := by
  have hlength := free_length_lt a
  have hcount : countBlocks heap configTOTAL_HEAP_SIZE (heap.pxNextFreeBlock layout.xStart) 0 0
      heapSIZE_MAX = some (0 + a.free.length, (a.free.map Block.size).foldl max 0,
        (a.free.map Block.size).foldl min heapSIZE_MAX) := by
    apply countBlocks_spec hrep.holds.path hrep.holds.pxEnd a.freeFits hrep.holds.freeSize hlength
    simp only [configTOTAL_HEAP_SIZE] at hlength
    omega
  have hne : heap.pxNextFreeBlock layout.xStart ≠ heapNULL := by
    rw [heapNULL]
    have hpath := hrep.holds.path
    cases hfree : a.free with
    | nil =>
      rw [hfree] at hpath
      rw [show heap.pxNextFreeBlock layout.xStart = endAddress layout from hpath]
      have hpos := (layout_facts layout).1
      have hlt := startAddress_lt_endAddress layout
      omega
    | cons b rest =>
      rw [hfree] at hpath
      rw [show heap.pxNextFreeBlock layout.xStart = b.start from hpath.1]
      have hpos := (fits_bounds (a.freeFits b (by simp [hfree]))).1
      omega
  simp only [vPortGetHeapStats, if_pos hne, hcount]
  exact ⟨_, rfl, Nat.zero_add _, rfl, rfl, hrep.freeBytes⟩

end Stats

-- A request is refused exactly if it is for nothing, overflows, or needs more
-- than the largest free block that the statistics show. A refusal changes nothing.
theorem heapRun_refuses_iff (run : HeapRun layout heap live seen) (hinit : heap.pxEnd ≠ heapNULL)
    (n : Nat) :
    ∃ stats p after, vPortGetHeapStats layout heap = some stats ∧
      pvPortMalloc layout n heap = some (p, after) ∧
      (p = heapNULL ↔ requiredBlockSize n = 0 ∨
        stats.xSizeOfLargestFreeBlockInBytes < requiredBlockSize n) ∧
      (p = heapNULL → after = heap) := by
  obtain ⟨a, hready, -⟩ := run.ready hinit
  obtain ⟨stats, hstats, -, hlargest, -⟩ := vPortGetHeapStats_spec hready.represents
  have hlarge : requiredBlockSize n ≤ stats.xSizeOfLargestFreeBlockInBytes ↔
      requiredBlockSize n = 0 ∨ ∃ b ∈ a.free, requiredBlockSize n ≤ b.size := by
    rw [hlargest, le_foldl_max]
    simp
  obtain ⟨hnull, hwhy⟩ | ⟨taken, a', after, hsome, hpos, hfit, -⟩ :=
    pvPortMalloc_spec hready.represents n
  · refine ⟨stats, heapNULL, heap, hstats, hnull, ⟨fun _ => ?_, fun _ => rfl⟩, fun _ => rfl⟩
    obtain hzero | hsmall := hwhy
    · exact .inl hzero
    · by_cases hzero : requiredBlockSize n = 0
      · exact .inl hzero
      · right
        rw [← Nat.not_le, hlarge]
        rintro (hzero' | ⟨b, hb, hle⟩)
        · exact hzero hzero'
        · exact absurd (hsmall b hb) (Nat.not_lt.mpr hle)
  · have hne : taken.start + 16 ≠ heapNULL := by
      rw [heapNULL]
      omega
    refine ⟨stats, taken.start + 16, after, hstats, hsome, ⟨fun h => absurd h hne, ?_⟩,
      fun h => absurd h hne⟩
    rintro (hzero | hlt)
    · exact absurd hzero hpos
    · obtain ⟨front, b, back, hfree, -, hle, -⟩ := firstFit_cases hfit
      exact absurd (hlarge.mpr (.inr ⟨b, by simp [hfree], hle⟩)) (Nat.not_le.mpr hlt)

theorem heapRun_refuses_after_one : ∃ after,
    pvPortMalloc linkedLayout 40000 heapAfterOne = some (heapNULL, after) ∧
      after = heapAfterOne := by
  obtain ⟨seen, run⟩ := heapAfterOne_run
  obtain ⟨stats, p, after, -, hcall, -, hkept⟩ :=
    heapRun_refuses_iff run heapAfterOne_init 40000
  have hpointer : (pvPortMalloc linkedLayout 40000 heapAfterOne).map Prod.fst = some heapNULL := by
    decide +kernel
  rw [hcall] at hpointer
  obtain rfl : p = heapNULL := by simpa using hpointer
  exact ⟨after, hcall, hkept rfl⟩

-- The answers of the allocator follow from the free list.
theorem Ready.answers {heap' : Heap} {live' : List Allocation} {a a' : HeapArena layout}
    (h : Ready layout heap live a) (h' : Ready layout heap' live' a') (hfree : a.free = a'.free)
    (n : Nat) :
    (pvPortMalloc layout n heap).map Prod.fst = (pvPortMalloc layout n heap').map Prod.fst ∧
      xPortGetFreeHeapSize heap = xPortGetFreeHeapSize heap' ∧
      (vPortGetHeapStats layout heap).map HeapStats.xNumberOfFreeBlocks =
        (vPortGetHeapStats layout heap').map HeapStats.xNumberOfFreeBlocks ∧
      (vPortGetHeapStats layout heap).map HeapStats.xSizeOfLargestFreeBlockInBytes =
        (vPortGetHeapStats layout heap').map HeapStats.xSizeOfLargestFreeBlockInBytes := by
  obtain ⟨stats, hstats, hnumber, hlargest, -⟩ := vPortGetHeapStats_spec h.represents
  obtain ⟨stats', hstats', hnumber', hlargest', -⟩ := vPortGetHeapStats_spec h'.represents
  refine ⟨?_, ?_, ?_, ?_⟩
  · obtain ⟨hnull, hwhy⟩ | ⟨taken, b, after, hsome, hpos, hfit, -⟩ :=
      pvPortMalloc_spec h.represents n <;>
    obtain ⟨hnull', hwhy'⟩ | ⟨taken', b', after', hsome', hpos', hfit', -⟩ :=
      pvPortMalloc_spec h'.represents n
    · rw [hnull, hnull']
      rfl
    · rw [← hfree] at hfit'
      obtain ⟨front, c, back, hsplit, -, hle, -⟩ := firstFit_cases hfit'
      obtain hzero | hsmall := hwhy
      · exact absurd hzero hpos'
      · exact absurd (hsmall c (by simp [hsplit])) (Nat.not_lt.mpr hle)
    · rw [hfree] at hfit
      obtain ⟨front, c, back, hsplit, -, hle, -⟩ := firstFit_cases hfit
      obtain hzero | hsmall := hwhy'
      · exact absurd hzero hpos
      · exact absurd (hsmall c (by simp [hsplit])) (Nat.not_lt.mpr hle)
    · rw [hfree, hfit', Option.some.injEq, Prod.mk.injEq] at hfit
      rw [hsome, hsome', hfit.1]
      rfl
  · rw [xPortGetFreeHeapSize, xPortGetFreeHeapSize, h.represents.freeBytes, h'.represents.freeBytes,
      hfree]
  · rw [hstats, hstats', Option.map_some, Option.map_some, hnumber, hnumber', hfree]
  · rw [hstats, hstats', Option.map_some, Option.map_some, hlargest, hlargest', hfree]

-- What is free depends on the blocks that are out, not on the calls that led
-- there: the statistics and the answer to every request are the same.
theorem heapRun_determined {heap' : Heap} {live' : List Allocation} {seen' : List Nat}
    (run : HeapRun layout heap live seen) (run' : HeapRun layout heap' live' seen')
    (hinit : heap.pxEnd ≠ heapNULL) (hinit' : heap'.pxEnd ≠ heapNULL)
    (hsame : ∀ b, b ∈ live.map (blockOf heap) ↔ b ∈ live'.map (blockOf heap')) (n : Nat) :
    (pvPortMalloc layout n heap).map Prod.fst = (pvPortMalloc layout n heap').map Prod.fst ∧
      xPortGetFreeHeapSize heap = xPortGetFreeHeapSize heap' ∧
      (vPortGetHeapStats layout heap).map HeapStats.xNumberOfFreeBlocks =
        (vPortGetHeapStats layout heap').map HeapStats.xNumberOfFreeBlocks ∧
      (vPortGetHeapStats layout heap).map HeapStats.xSizeOfLargestFreeBlockInBytes =
        (vPortGetHeapStats layout heap').map HeapStats.xSizeOfLargestFreeBlockInBytes := by
  obtain ⟨a, hready, -⟩ := run.ready hinit
  obtain ⟨a', hready', -⟩ := run'.ready hinit'
  apply hready.answers hready'
  apply Arena.free_eq_of_live
  rw [← hready.map_blockOf, ← hready'.map_blockOf]
  exact hsame

section Example

def heapAfterTwo : Heap := ((pvPortMalloc linkedLayout 50 heapAfterOne).getD (0, clearedHeap)).2

def heapAfterThree : Heap := (vPortFree linkedLayout 0x800040A0 heapAfterTwo).getD clearedHeap

-- One block more, given out and taken back.
theorem heapAfterThree_run :
    ∃ seen, HeapRun linkedLayout heapAfterThree [⟨0x80004020, 100⟩] seen := by
  obtain ⟨seen, run⟩ := heapAfterOne_run
  have hpointer : (pvPortMalloc linkedLayout 50 heapAfterOne).map Prod.fst = some 0x800040A0 := by
    decide +kernel
  obtain ⟨⟨p, after⟩, hcall, hp⟩ := Option.map_eq_some_iff.mp hpointer
  simp only at hp
  subst hp
  have htwo : heapAfterTwo = after := by
    rw [heapAfterTwo, hcall]
    rfl
  have run₂ := run.malloc hcall
  rw [if_neg (by decide), ← htwo] at run₂
  have hfreed : (vPortFree linkedLayout 0x800040A0 heapAfterTwo).isSome := by decide +kernel
  obtain ⟨last, hlast⟩ := Option.isSome_iff_exists.mp hfreed
  have hthree : heapAfterThree = last := by
    rw [heapAfterThree, hlast]
    rfl
  have run₃ := run₂.free (a := ⟨0x800040A0, 50⟩) (by simp) hlast
  rw [List.erase_cons_head, ← hthree] at run₃
  exact ⟨_, run₃⟩

theorem heapRun_determined_after_three :
    (pvPortMalloc linkedLayout 3000 heapAfterThree).map Prod.fst =
      (pvPortMalloc linkedLayout 3000 heapAfterOne).map Prod.fst := by
  obtain ⟨seen, run⟩ := heapAfterOne_run
  obtain ⟨seen', run'⟩ := heapAfterThree_run
  have hblock : blockOf heapAfterThree ⟨0x80004020, 100⟩ = blockOf heapAfterOne ⟨0x80004020, 100⟩ := by
    decide +kernel
  refine (heapRun_determined run' run (by decide +kernel) heapAfterOne_init ?_ 3000).1
  simp [hblock]

end Example

end SpaceBaremetal.Heap
