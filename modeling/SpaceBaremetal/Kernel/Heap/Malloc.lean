import SpaceBaremetal.Kernel.Heap.Refinement

namespace SpaceBaremetal.Heap

open FreeList LinkPath

variable {layout : HeapLayout} {heap : Heap} {wanted : Nat}

theorem free_length_lt (a : HeapArena layout) : a.free.length < configTOTAL_HEAP_SIZE := by
  have hlength := bytes_add_length_le a.gapped (fun b hb => (a.freeFits b hb).within)
    (Nat.le_of_lt (startAddress_lt_endAddress layout))
  have husable := usable_le layout
  cases hfree : a.free with
  | nil =>
    simp only [List.length_nil, configTOTAL_HEAP_SIZE]
    omega
  | cons b rest =>
    have hpos := (a.freeFits b (by simp [hfree])).pos
    have hle : b.size ≤ bytes a.free := size_le_bytes (by simp [hfree])
    rw [hfree] at hlength hle
    omega

section Search

variable {front back : List Block} {b : Block} {prev fuel : Nat}

-- The search steps over the blocks that are too small.
theorem findBlock_found
    (hpath : Path heap.pxNextFreeBlock prev ((front ++ b :: back).map Block.start)
      (endAddress layout))
    (hfits : ∀ f ∈ front ++ b :: back,
      f.Fits (startAddress layout) (endAddress layout) portBYTE_ALIGNMENT)
    (hsize : ∀ f ∈ front ++ b :: back, heap.xBlockSize f.start = f.size)
    (hsmall : ∀ f ∈ front, f.size < wanted) (hb : wanted ≤ b.size) (hfuel : front.length < fuel) :
    findBlock layout heap wanted fuel prev (heap.pxNextFreeBlock prev) =
      some (last prev (front.map Block.start), b.start) := by
  induction front generalizing prev fuel with
  | nil =>
    obtain ⟨fuel, rfl⟩ : ∃ n, fuel = n + 1 := ⟨fuel - 1, by omega⟩
    have hnext : heap.pxNextFreeBlock prev = b.start := hpath.1
    have hbsize := hsize b (by simp)
    rw [findBlock, hnext, hbsize, if_neg (by omega)]
    rfl
  | cons f front ih =>
    obtain ⟨fuel, rfl⟩ : ∃ n, fuel = n + 1 := ⟨fuel - 1, by omega⟩
    obtain ⟨hnext, hrest⟩ := hpath
    have hfollowing : ∃ g ∈ front ++ b :: back, heap.pxNextFreeBlock f.start = g.start := by
      cases front with
      | nil => exact ⟨b, by simp, hrest.1⟩
      | cons g front => exact ⟨g, by simp, hrest.1⟩
    obtain ⟨g, hg, hgnext⟩ := hfollowing
    have hgfits := hfits g (List.mem_cons_of_mem _ hg)
    have hgpos := (fits_bounds hgfits).1
    have hfsize := hsize f (by simp)
    have hfsmall := hsmall f (by simp)
    rw [findBlock, hnext, hfsize, if_pos ⟨hfsmall, by rw [hgnext, heapNULL]; omega⟩, hgnext,
      validate_of_fits hgfits, ← hgnext, List.map_cons, last_cons]
    exact ih hrest (fun h hh => hfits h (List.mem_cons_of_mem _ hh))
      (fun h hh => hsize h (List.mem_cons_of_mem _ hh))
      (fun h hh => hsmall h (List.mem_cons_of_mem _ hh))
      (by simpa using Nat.lt_of_succ_lt_succ hfuel)

-- When all are too small it ends at the end marker.
theorem findBlock_end {blocks : List Block}
    (hpath : Path heap.pxNextFreeBlock prev (blocks.map Block.start) (endAddress layout))
    (hfits : ∀ f ∈ blocks, f.Fits (startAddress layout) (endAddress layout) portBYTE_ALIGNMENT)
    (hsize : ∀ f ∈ blocks, heap.xBlockSize f.start = f.size)
    (hsmall : ∀ f ∈ blocks, f.size < wanted)
    (hend : heap.pxNextFreeBlock (endAddress layout) = heapNULL) (hfuel : blocks.length < fuel) :
    findBlock layout heap wanted fuel prev (heap.pxNextFreeBlock prev) =
      some (last prev (blocks.map Block.start), endAddress layout) := by
  induction blocks generalizing prev fuel with
  | nil =>
    obtain ⟨fuel, rfl⟩ : ∃ n, fuel = n + 1 := ⟨fuel - 1, by omega⟩
    have hnext : heap.pxNextFreeBlock prev = endAddress layout := hpath
    rw [findBlock, hnext, hend, if_neg (by simp)]
    rfl
  | cons f blocks ih =>
    obtain ⟨fuel, rfl⟩ : ∃ n, fuel = n + 1 := ⟨fuel - 1, by omega⟩
    obtain ⟨hnext, hrest⟩ := hpath
    have hfollowing : 0 < heap.pxNextFreeBlock f.start ∧
        heapVALIDATE_BLOCK_POINTER layout (heap.pxNextFreeBlock f.start) = some () := by
      cases blocks with
      | nil =>
        rw [show heap.pxNextFreeBlock f.start = endAddress layout from hrest]
        have hstart := (layout_facts layout).1
        have hlt := startAddress_lt_endAddress layout
        exact ⟨by omega, validate_endAddress⟩
      | cons g blocks =>
        rw [show heap.pxNextFreeBlock f.start = g.start from hrest.1]
        have hgfits := hfits g (by simp)
        exact ⟨(fits_bounds hgfits).1, validate_of_fits hgfits⟩
    have hfsize := hsize f (by simp)
    have hfsmall := hsmall f (by simp)
    rw [findBlock, hnext, hfsize, if_pos ⟨hfsmall, Nat.ne_of_gt hfollowing.1⟩, hfollowing.2,
      List.map_cons, last_cons]
    exact ih hrest (fun h hh => hfits h (List.mem_cons_of_mem _ hh))
      (fun h hh => hsize h (List.mem_cons_of_mem _ hh))
      (fun h hh => hsmall h (List.mem_cons_of_mem _ hh))
      (by simpa using Nat.lt_of_succ_lt_succ hfuel)

end Search

section Split

variable {prev b s : Nat}

theorem splitBlock_whole (hsize : heap.xBlockSize b = s) (hle : wanted ≤ s) (hlt : s < 2 ^ 64)
    (hsmall : s - wanted ≤ heapMINIMUM_BLOCK_SIZE) :
    heap.splitBlock wanted prev b = some heap := by
  rw [splitBlock, hsize, subSize_of_le hle hlt, if_neg (Nat.not_lt.mpr hsmall)]

theorem splitBlock_split (hsize : heap.xBlockSize b = s) (hle : wanted ≤ s) (hlt : s < 2 ^ 64)
    (hlarge : heapMINIMUM_BLOCK_SIZE < s - wanted) (hgrid : (b + wanted) % 16 = 0) :
    heap.splitBlock wanted prev b =
      some ((((heap.setSize (b + wanted) (s - wanted)).setSize b wanted).setNext (b + wanted)
        (heap.pxNextFreeBlock prev)).setNext prev (b + wanted)) := by
  rw [splitBlock, hsize, subSize_of_le hle hlt, if_pos hlarge]
  simp only [and_alignment_mask, hgrid]
  rfl

theorem accountBlock_next :
    (heap.accountBlock b).pxNextFreeBlock = Function.update heap.pxNextFreeBlock b heapNULL := by
  simp only [accountBlock, heapALLOCATE_BLOCK, setNext_next, setSize_next]
  split <;> rfl

theorem accountBlock_size :
    (heap.accountBlock b).xBlockSize =
      Function.update heap.xBlockSize b (heap.xBlockSize b ||| heapBLOCK_ALLOCATED_BITMASK) := by
  simp only [accountBlock, heapALLOCATE_BLOCK, setNext_size, setSize_size]
  split <;> rfl

theorem accountBlock_pxEnd : (heap.accountBlock b).pxEnd = heap.pxEnd := by
  simp only [accountBlock, heapALLOCATE_BLOCK, setNext_pxEnd, setSize_pxEnd]
  split <;> rfl

theorem accountBlock_free : (heap.accountBlock b).xFreeBytesRemaining =
    subSize heap.xFreeBytesRemaining (heap.xBlockSize b) := by
  simp only [accountBlock, heapALLOCATE_BLOCK, setNext_free, setSize_free]
  split <;> rfl

-- The minimum follows the free bytes down.
theorem accountBlock_minimum : (heap.accountBlock b).xMinimumEverFreeBytesRemaining =
    min heap.xMinimumEverFreeBytesRemaining (heap.accountBlock b).xFreeBytesRemaining := by
  rw [accountBlock_free]
  simp only [accountBlock]
  split
  · rename_i hlow
    exact (Nat.min_eq_right (Nat.le_of_lt hlow)).symm
  · rename_i hlow
    exact (Nat.min_eq_left (Nat.le_of_not_lt hlow)).symm

end Split

section Take

variable {a after : HeapArena layout} {front back free live : List Block} {b taken : Block}
  {prev : Nat}

-- The block leaves the list for the application.
theorem Holds.account (h : Holds layout heap free live) (hfresh : Fresh layout free live b.start)
    (hsize : heap.xBlockSize b.start = b.size) (hlt : b.size < 2 ^ 63) :
    Holds layout (heap.accountBlock b.start) free (b :: live) := by
  have hmarked := (h.setSize_fresh (y := heap.xBlockSize b.start ||| heapBLOCK_ALLOCATED_BITMASK)
    hfresh).setNext_fresh (y := heapNULL) hfresh
  refine ⟨?_, ?_, ?_, ?_, ?_, ?_, ?_, ?_⟩
  · rw [accountBlock_pxEnd]
    exact h.pxEnd
  · rw [accountBlock_next]
    exact hmarked.path
  · rw [accountBlock_size]
    exact hmarked.startSize
  · rw [accountBlock_size]
    exact hmarked.endSize
  · rw [accountBlock_next]
    exact hmarked.endNext
  · rw [accountBlock_size]
    exact hmarked.freeSize
  · rw [accountBlock_size]
    intro l hl
    obtain rfl | hl := List.mem_cons.mp hl
    · rw [Function.update_self, hsize, or_allocated_mask hlt]
    · exact hmarked.liveSize l hl
  · rw [accountBlock_next]
    intro l hl
    obtain rfl | hl := List.mem_cons.mp hl
    · exact Function.update_self _ _ _
    · exact hmarked.liveNext l hl

theorem Untouched.account {blocks : List Block} {before : Heap}
    (h : Untouched layout blocks before heap) (hb : Owned layout blocks prev) :
    Untouched layout blocks before (heap.accountBlock prev) := by
  intro z hz
  rw [accountBlock_next, accountBlock_size]
  exact ((h.setSize hb).setNext hb) z hz

theorem takeBlock_eq {middle : Heap} (hnext : heap.pxNextFreeBlock prev = b.start)
    (hfits : b.Fits (startAddress layout) (endAddress layout) portBYTE_ALIGNMENT)
    (hsize : heap.xBlockSize b.start = b.size) (hb : wanted ≤ b.size)
    (hsplit : (heap.setNext prev (heap.pxNextFreeBlock b.start)).splitBlock wanted prev b.start =
      some middle) :
    takeBlock layout heap wanted prev b.start = some (b.start + 16, middle.accountBlock b.start) := by
  obtain ⟨-, hlow, hlimit, hgrid, hsizeGrid, hpos, -⟩ := fits_bounds hfits
  obtain ⟨-, -, -, hend, -⟩ := layout_facts layout
  have hvalid : heapVALIDATE_BLOCK_POINTER layout (b.start + 16) = some () :=
    validate_of_bounds (by omega) (by omega)
  have hunderflow : heapSUBTRACT_WILL_UNDERFLOW b.size wanted = false := by
    rw [heapSUBTRACT_WILL_UNDERFLOW, decide_eq_false_iff_not]
    omega
  simp only [takeBlock, xHeapStructSize, hnext, hvalid, setNext_size, hsize, hunderflow, hsplit]
  rfl

-- The variables that only `accountBlock` changes.
structure SameCounts (before after : Heap) : Prop where
  free : after.xFreeBytesRemaining = before.xFreeBytesRemaining
  minimum : after.xMinimumEverFreeBytesRemaining = before.xMinimumEverFreeBytesRemaining
  allocations : after.xNumberOfSuccessfulAllocations = before.xNumberOfSuccessfulAllocations
  frees : after.xNumberOfSuccessfulFrees = before.xNumberOfSuccessfulFrees

-- What `pvPortMalloc` changes besides the blocks.
structure Counted (before after : Heap) : Prop where
  minimum : after.xMinimumEverFreeBytesRemaining =
    min before.xMinimumEverFreeBytesRemaining after.xFreeBytesRemaining
  allocations : after.xNumberOfSuccessfulAllocations =
    addSize before.xNumberOfSuccessfulAllocations 1
  frees : after.xNumberOfSuccessfulFrees = before.xNumberOfSuccessfulFrees

theorem SameCounts.account {before : Heap} (h : SameCounts before heap) :
    Counted before (heap.accountBlock prev) := by
  refine ⟨?_, ?_, ?_⟩
  · rw [accountBlock_minimum, h.minimum]
  · rw [← h.allocations]
    simp only [accountBlock]
    split <;> rfl
  · rw [← h.frees]
    simp only [accountBlock]
    split <;> rfl

-- How the free list changes when `taken` comes out of `b`.
def Carved (front : List Block) (b : Block) (back : List Block) (wanted : Nat) (taken : Block)
    (rest : List Block) : Prop :=
  (heapMINIMUM_BLOCK_SIZE < b.size - wanted ∧ taken = ⟨b.start, wanted⟩ ∧
    rest = front ++ ⟨b.start + wanted, b.size - wanted⟩ :: back) ∨
  (b.size - wanted ≤ heapMINIMUM_BLOCK_SIZE ∧ taken = b ∧ rest = front ++ back)

theorem Carved.start_size {rest : List Block} (h : Carved front b back wanted taken rest)
    (hb : wanted ≤ b.size) : taken.start = b.start ∧ taken.size ≤ b.size := by
  obtain ⟨-, rfl, -⟩ | ⟨-, rfl, -⟩ := h
  · exact ⟨rfl, hb⟩
  · exact ⟨rfl, Nat.le_refl _⟩

-- `pxBlock` is off the list; what it does not need is put on it.
theorem splitBlock_spec (h : Holds layout heap (front ++ back) a.live)
    (hafter : Carved front b back wanted taken after.free) (hlive : after.live = taken :: a.live)
    (hfits : b.Fits (startAddress layout) (endAddress layout) portBYTE_ALIGNMENT)
    (hsize : heap.xBlockSize b.start = b.size) (hb : wanted ≤ b.size) (hgrid : 16 ∣ wanted)
    (hprev : prev = last layout.xStart (front.map Block.start))
    {blocks : List Block} {before : Heap} (htouched : Untouched layout blocks before heap)
    (hbmem : b ∈ blocks) (hprevOwned : Owned layout blocks prev) :
    ∃ middle, heap.splitBlock wanted prev b.start = some middle ∧
      Holds layout middle after.free a.live ∧ middle.xBlockSize b.start = taken.size ∧
      Untouched layout blocks before middle ∧ SameCounts heap middle := by
  obtain ⟨-, -, -, hstartGrid, -, hpos, hlt⟩ := fits_bounds hfits
  simp only [configTOTAL_HEAP_SIZE] at hlt
  have hdistinct := arena_distinct after
  rw [hlive] at hdistinct
  obtain ⟨hlarge, rfl, hrest⟩ | ⟨hsmall, rfl, hrest⟩ := hafter
  · rw [hrest] at hdistinct ⊢
    have hnew := hdistinct.fresh
    have hne : b.start ≠ b.start + wanted := hnew.notLive ⟨b.start, wanted⟩ (by simp)
    have hdistinct' : Distinct layout (front ++ back) (⟨b.start, wanted⟩ :: a.live) :=
      hdistinct.sublist (List.Sublist.append_left (List.sublist_cons_self _ _) _)
        (List.Sublist.refl _)
    have hbfresh : Fresh layout (front ++ back) a.live b.start := hdistinct'.fresh_live
    refine ⟨_, splitBlock_split hsize hb (by omega) hlarge (by omega), ?_, ?_, ?_, ?_⟩
    · have hnew' : Fresh layout (front ++ back) a.live (b.start + wanted) :=
        ⟨hnew.ne_start, hnew.ne_end, hnew.notFree, fun l hl => hnew.notLive l (by simp [hl])⟩
      have hsized := (h.setSize_fresh (y := b.size - wanted) hnew').setSize_fresh (y := wanted) hbfresh
      have hdistinct'' : Distinct layout (front ++ back) a.live :=
        hdistinct'.sublist (List.Sublist.refl _) (List.sublist_cons_self _ _)
      apply hsized.link (b := ⟨b.start + wanted, b.size - wanted⟩) hdistinct'' hprev hnew'
      simp [Function.update_of_ne hne.symm]
    · simp
    · have hbowned : Owned layout blocks b.start := owned_start hbmem hpos
      have hnewOwned : Owned layout blocks (b.start + wanted) := by
        refine .inr ⟨b, hbmem, Nat.le_add_right _ _, ?_⟩
        simp only [Block.limit]
        omega
      exact (((htouched.setSize hnewOwned).setSize hbowned).setNext hnewOwned).setNext
        hprevOwned
    · exact ⟨rfl, rfl, rfl, rfl⟩
  · refine ⟨heap, splitBlock_whole hsize hb (by omega) hsmall, ?_, hsize, htouched,
      ⟨rfl, rfl, rfl, rfl⟩⟩
    rw [hrest]
    exact h

-- The block found is unlinked, split if it is worth it, and marked.
theorem takeBlock_spec (hrep : Represents layout heap a) (hfree : a.free = front ++ b :: back)
    (hprev : prev = last layout.xStart (front.map Block.start)) (hb : wanted ≤ b.size)
    (hgrid : 16 ∣ wanted) (hafter : Carved front b back wanted taken after.free)
    (hlive : after.live = taken :: a.live) (hbytes : taken.size + bytes after.free = bytes a.free) :
    ∃ heap', takeBlock layout heap wanted prev b.start = some (taken.start + 16, heap') ∧
      Represents layout heap' after ∧ Untouched layout a.free heap heap' ∧ Counted heap heap' := by
  have hdistinct := arena_distinct a
  have hholds := hrep.holds
  have hfits := a.freeFits b (by simp [hfree])
  have hsize := hholds.freeSize b (by simp [hfree])
  obtain ⟨-, -, -, -, -, hpos, hlt⟩ := fits_bounds hfits
  have hbmem : b ∈ a.free := by simp [hfree]
  have hprevOwned : Owned layout a.free prev := by
    rw [hprev]
    apply owned_last
    · intro f hf
      simp [hfree, hf]
    · exact fun f hf => (a.freeFits f hf).pos
  have hfreeBytes : bytes a.free < configTOTAL_HEAP_SIZE := by
    have htotal := a.total
    have husable := usable_le layout
    omega
  simp only [configTOTAL_HEAP_SIZE] at hlt hfreeBytes
  rw [hfree] at hdistinct hholds
  have hnext : heap.pxNextFreeBlock prev = b.start := by
    have hpath := hholds.path
    rw [List.map_append, List.map_cons] at hpath
    rw [hprev]
    exact (path_append.mp hpath).1.next_last
  obtain ⟨hstart, htaken⟩ := hafter.start_size hb
  obtain ⟨middle, hsplit, hmiddle, hmsize, htouched, hcounts⟩ := splitBlock_spec
    (hholds.unlink hdistinct hprev) hafter hlive hfits hsize hb hgrid hprev
    (Untouched.refl.setNext hprevOwned) hbmem hprevOwned
  have hsame : SameCounts heap middle :=
    ⟨hcounts.free, hcounts.minimum, hcounts.allocations, hcounts.frees⟩
  refine ⟨middle.accountBlock b.start, ?_, ⟨?_, ?_⟩, ?_, hsame.account⟩
  · rw [hstart]
    exact takeBlock_eq hnext hfits hsize hb hsplit
  · have hfresh : Fresh layout after.free a.live taken.start := by
      have hafterDistinct := arena_distinct after
      rw [hlive] at hafterDistinct
      exact hafterDistinct.fresh_live
    rw [hlive, ← hstart]
    rw [← hstart] at hmsize
    exact hmiddle.account hfresh hmsize (by omega)
  · rw [accountBlock_free, hcounts.free, hmsize, setNext_free, hrep.freeBytes,
      subSize_of_le (by omega) (by omega)]
    omega
  · exact htouched.account (owned_start hbmem hpos)

end Take

section Malloc

variable {a : HeapArena layout} {n : Nat}

theorem allocateBlock_none (hrep : Represents layout heap a)
    (hsmall : ∀ b ∈ a.free, b.size < wanted) :
    allocateBlock layout heap wanted = some (heapNULL, heap) := by
  have hfind := findBlock_end hrep.holds.path a.freeFits hrep.holds.freeSize hsmall
    hrep.holds.endNext (free_length_lt a)
  have hvalid : heapVALIDATE_BLOCK_POINTER layout (heap.pxNextFreeBlock layout.xStart) =
      some () := by
    have hpath := hrep.holds.path
    cases hfree : a.free with
    | nil =>
      rw [hfree] at hpath
      rw [show heap.pxNextFreeBlock layout.xStart = endAddress layout from hpath]
      exact validate_endAddress
    | cons b rest =>
      rw [hfree] at hpath
      rw [show heap.pxNextFreeBlock layout.xStart = b.start from hpath.1]
      exact validate_of_fits (a.freeFits b (by simp [hfree]))
  simp [allocateBlock, hvalid, hfind, hrep.holds.pxEnd]

theorem allocateBlock_some (hrep : Represents layout heap a) {taken : Block}
    {after : HeapArena layout} (hgrid : 16 ∣ wanted)
    (hfit : firstFit wanted heapMINIMUM_BLOCK_SIZE a.free = some (taken, after.free))
    (hlive : after.live = taken :: a.live) :
    ∃ heap', allocateBlock layout heap wanted = some (taken.start + 16, heap') ∧
      Represents layout heap' after ∧ Untouched layout a.free heap heap' ∧ Counted heap heap' := by
  obtain ⟨front, b, back, hfree, hsmall, hb, hafter⟩ := firstFit_cases hfit
  have hlength := free_length_lt a
  have hpath := hrep.holds.path
  have hfits := a.freeFits
  have hsizes := hrep.holds.freeSize
  rw [hfree] at hpath hfits hsizes hlength
  have hfind : findBlock layout heap wanted configTOTAL_HEAP_SIZE layout.xStart
      (heap.pxNextFreeBlock layout.xStart) =
        some (last layout.xStart (front.map Block.start), b.start) := by
    apply findBlock_found hpath hfits hsizes hsmall hb
    simp only [List.length_append] at hlength
    omega
  have hvalid : heapVALIDATE_BLOCK_POINTER layout (heap.pxNextFreeBlock layout.xStart) =
      some () := by
    cases front with
    | nil =>
      rw [show heap.pxNextFreeBlock layout.xStart = b.start from hpath.1]
      exact validate_of_fits (hfits b (by simp))
    | cons f front =>
      rw [show heap.pxNextFreeBlock layout.xStart = f.start from hpath.1]
      exact validate_of_fits (hfits f (by simp))
  have hne : b.start ≠ endAddress layout := (fits_ne (hfits b (by simp))).2
  obtain ⟨heap', htake, hspec⟩ := takeBlock_spec hrep hfree rfl hb hgrid hafter hlive
    (firstFit_bytes hfit)
  refine ⟨heap', ?_, hspec⟩
  simp only [allocateBlock, hvalid, hfind, hrep.holds.pxEnd]
  simpa [hne] using htake

theorem pvPortMalloc_of_result (hinit : heap.pxEnd ≠ heapNULL) {p : Nat} {heap' : Heap}
    (hresult : (if heapBLOCK_SIZE_IS_VALID (requiredBlockSize n) ∧ requiredBlockSize n > 0 ∧
        requiredBlockSize n ≤ heap.xFreeBytesRemaining then
          allocateBlock layout heap (requiredBlockSize n)
        else some (heapNULL, heap)) = some (p, heap')) (hgrid : p % 16 = 0) :
    pvPortMalloc layout n heap = some (p, heap') := by
  have haligned : configASSERT (p &&& portBYTE_ALIGNMENT_MASK == 0) = some () := by
    rw [configASSERT, and_alignment_mask, hgrid]
    rfl
  simp only [pvPortMalloc, if_neg hinit]
  split at hresult
  · rename_i hcondition
    rw [if_pos hcondition, hresult]
    simp [haligned]
  · rename_i hcondition
    simp only [Option.some.injEq, Prod.mk.injEq] at hresult
    obtain ⟨rfl, rfl⟩ := hresult
    rw [if_neg hcondition]
    simp [haligned]

-- `pvPortMalloc` on an initialised heap: it takes the first block that is large
-- enough, or returns `NULL` and changes nothing.
theorem pvPortMalloc_spec (hrep : Represents layout heap a) (n : Nat) :
    (pvPortMalloc layout n heap = some (heapNULL, heap) ∧
      (requiredBlockSize n = 0 ∨ ∀ b ∈ a.free, b.size < requiredBlockSize n)) ∨
    ∃ taken after heap', pvPortMalloc layout n heap = some (taken.start + 16, heap') ∧
      requiredBlockSize n ≠ 0 ∧
      firstFit (requiredBlockSize n) heapMINIMUM_BLOCK_SIZE a.free = some (taken, after.free) ∧
      after.live = taken :: a.live ∧ Represents layout heap' after ∧
      Untouched layout a.free heap heap' ∧ Counted heap heap' := by
  have hinit : heap.pxEnd ≠ heapNULL := by
    have hpos := (layout_facts layout).1
    have hlt := startAddress_lt_endAddress layout
    rw [hrep.holds.pxEnd, heapNULL]
    omega
  by_cases hzero : requiredBlockSize n = 0
  · left
    refine ⟨pvPortMalloc_of_result hinit ?_ rfl, .inl hzero⟩
    rw [hzero, if_neg (by omega)]
  have hrequired := (requiredBlockSize_cases n).resolve_left hzero
  have hbytes : bytes a.free < configTOTAL_HEAP_SIZE := by
    have htotal := a.total
    have husable := usable_le layout
    omega
  simp only [configTOTAL_HEAP_SIZE] at hbytes
  cases hallocate : a.allocate (requiredBlockSize n) heapMINIMUM_BLOCK_SIZE (by omega)
      hrequired.2.2.1 with
  | none =>
    left
    have hsmall := Arena.allocate_eq_none.mp hallocate
    refine ⟨pvPortMalloc_of_result hinit ?_ rfl, .inr hsmall⟩
    rw [allocateBlock_none hrep hsmall, ite_self]
  | some result =>
    right
    obtain ⟨taken, after⟩ := result
    obtain ⟨hfit, hlive⟩ := Arena.allocate_eq_some hallocate
    obtain ⟨heap', hblock, hspec⟩ := allocateBlock_some hrep hrequired.2.2.1 hfit hlive
    have hsize := firstFit_size hfit
    have htaken := firstFit_bytes hfit
    have hgrid := (fits_bounds (after.liveFits taken (by simp [hlive]))).2.2.2.1
    refine ⟨taken, after, heap', pvPortMalloc_of_result hinit ?_ (by omega), hzero, hfit, hlive,
      hspec⟩
    rw [if_pos ⟨valid_of_lt (by omega), by omega, by rw [hrep.freeBytes]; omega⟩]
    exact hblock

end Malloc

end SpaceBaremetal.Heap
