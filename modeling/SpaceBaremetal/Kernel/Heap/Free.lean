import SpaceBaremetal.Kernel.Heap.Malloc

namespace SpaceBaremetal.Heap

open FreeList LinkPath

variable {layout : HeapLayout} {heap : Heap} {free low high live : List Block} {b : Block}

-- The loop stops at the last link below the address.
theorem findPlace_spec (address : Nat) {prev fuel : Nat}
    (hpath : Path heap.pxNextFreeBlock prev (free.map Block.start) (endAddress layout))
    (hgapped : Gapped free) (hend : address ≤ endAddress layout) (hfuel : free.length < fuel) :
    ∃ low high, free = low ++ high ∧ (∀ f ∈ low, f.start < address) ∧
      (∀ f ∈ high, address ≤ f.start) ∧
      findPlace heap address fuel prev = some (last prev (low.map Block.start)) := by
  induction free generalizing prev fuel with
  | nil =>
    obtain ⟨fuel, rfl⟩ : ∃ n, fuel = n + 1 := ⟨fuel - 1, by omega⟩
    refine ⟨[], [], rfl, by simp, by simp, ?_⟩
    rw [findPlace, show heap.pxNextFreeBlock prev = endAddress layout from hpath,
      if_neg (Nat.not_lt.mpr hend)]
    rfl
  | cons f free ih =>
    obtain ⟨fuel, rfl⟩ : ∃ n, fuel = n + 1 := ⟨fuel - 1, by omega⟩
    obtain ⟨hnext, hrest⟩ := hpath
    obtain ⟨habove, htail⟩ := List.pairwise_cons.mp hgapped
    by_cases hbelow : f.start < address
    · obtain ⟨low, high, rfl, hlow, hhigh, hfind⟩ := ih hrest htail
        (by simpa using Nat.lt_of_succ_lt_succ hfuel)
      refine ⟨f :: low, high, rfl, ?_, hhigh, ?_⟩
      · intro g hg
        obtain rfl | hg := List.mem_cons.mp hg
        · exact hbelow
        · exact hlow g hg
      · rw [findPlace, hnext, if_pos hbelow, hfind, List.map_cons, last_cons]
    · refine ⟨[], f :: free, rfl, by simp, ?_, ?_⟩
      · intro g hg
        obtain rfl | hg := List.mem_cons.mp hg
        · exact Nat.le_of_not_lt hbelow
        · have hgap := habove g hg
          simp only [Block.limit] at hgap
          omega
      · rw [findPlace, hnext, if_neg hbelow]
        rfl

section Join

variable {x it : Nat}

theorem joinAfter_touch {next : Nat} (hnext : heap.pxNextFreeBlock it = next)
    (htouch : x + heap.xBlockSize x = next) (hne : next ≠ heap.pxEnd) :
    joinAfter heap it x =
      (heap.setSize x (addSize (heap.xBlockSize x) (heap.xBlockSize next))).setNext x
        (heap.pxNextFreeBlock next) := by
  simp only [joinAfter, hnext, if_pos htouch, if_pos hne]
  rfl

theorem joinAfter_apart {next : Nat} (hnext : heap.pxNextFreeBlock it = next)
    (hroom : x + heap.xBlockSize x = next → next = heap.pxEnd) :
    joinAfter heap it x = heap.setNext x next := by
  simp only [joinAfter, hnext]
  split
  · rename_i htouch
    rw [if_neg (by simpa using hroom htouch), hroom htouch]
  · rfl

theorem setNext_self (hnext : heap.pxNextFreeBlock x = it) : heap.setNext x it = heap := by
  rw [Heap.setNext, ← hnext, Function.update_eq_self]

theorem setNext_overwrite {y z w : Nat} (hne : x ≠ it) :
    ((heap.setNext x y).setNext it z).setNext x w = (heap.setNext it z).setNext x w := by
  simp only [Heap.setNext, Heap.mk.injEq, and_self, and_true]
  rw [Function.update_comm hne, Function.update_idem]

theorem setSize_setNext_comm {y z : Nat} :
    (heap.setSize x y).setNext it z = (heap.setNext it z).setSize x y := rfl

end Join

-- The link that the path reaches after `low`.
theorem next_last_of_holds (h : Holds layout heap (low ++ high) live) :
    heap.pxNextFreeBlock (last layout.xStart (low.map Block.start)) =
      ((high.map Block.start).head?.getD (endAddress layout)) := by
  have hpath := h.path
  rw [List.map_append] at hpath
  cases high with
  | nil => exact Path.next_last (by simpa using hpath)
  | cons g high => exact (path_append.mp hpath).1.next_last

-- A block on the list is joined with the one above if it reaches it.
theorem joinAfter_listed (h : Holds layout heap (low ++ b :: high) live)
    (hdistinct : Distinct layout (low ++ b :: high) live) (hb : b.size < 2 ^ 60)
    (hhigh : ∀ g ∈ high, g.size < 2 ^ 60) :
    Holds layout (joinAfter heap b.start b.start) (low ++ joinAbove b high) live := by
  have hsize := h.freeSize b (by simp)
  have hwith : Holds layout heap ((low ++ [b]) ++ high) live := by simpa using h
  have hnext := next_last_of_holds hwith
  rw [List.map_append, List.map_singleton, last_append] at hnext
  cases high with
  | nil =>
    have hend : heap.pxNextFreeBlock b.start = endAddress layout := hnext
    rw [joinAfter_apart hend (fun _ => h.pxEnd.symm), setNext_self hend]
    exact h
  | cons g high =>
    have hg : heap.pxNextFreeBlock b.start = g.start := hnext
    rw [joinAbove]
    by_cases htouch : b.limit = g.start
    · have hgne : g.start ≠ heap.pxEnd := by
        rw [h.pxEnd]
        exact hdistinct.ne_end g (by simp)
      have hgsize := h.freeSize g (by simp)
      have hglt := hhigh g (by simp)
      rw [if_pos htouch, joinAfter_touch hg (by rw [hsize]; exact htouch) hgne, hsize, hgsize,
        addSize_of_lt (by omega), setSize_setNext_comm]
      have hwith' : Distinct layout ((low ++ [b]) ++ g :: high) live := by simpa using hdistinct
      have hlast : b.start = last layout.xStart ((low ++ [b]).map Block.start) := by simp
      have hunlinked := hwith.unlink hwith' hlast
      rw [List.append_assoc, List.singleton_append] at hunlinked
      apply hunlinked.resize
      apply hdistinct.sublist _ (List.Sublist.refl _)
      exact (List.Sublist.refl _).append ((List.sublist_cons_self _ _).cons_cons _)
    · rw [if_neg htouch, joinAfter_apart hg ?_, setNext_self hg]
      · exact h
      · intro htouch'
        rw [hsize] at htouch'
        exact absurd htouch' htouch

-- A block that is not yet on the list is joined with the one above and linked.
theorem joinAfter_fresh (h : Holds layout heap (low ++ high) live)
    (hdistinct : Distinct layout (low ++ high) live)
    (hfresh : Fresh layout (low ++ high) live b.start) (hsize : heap.xBlockSize b.start = b.size)
    (hb : b.size < 2 ^ 60) (hhigh : ∀ g ∈ high, g.size < 2 ^ 60) {it : Nat}
    (hit : it = last layout.xStart (low.map Block.start)) (hne : it ≠ b.start) :
    Holds layout ((joinAfter heap it b.start).setNext it b.start) (low ++ joinAbove b high) live := by
  have hnext := next_last_of_holds h
  rw [← hit] at hnext
  cases high with
  | nil =>
    have hend : heap.pxNextFreeBlock it = endAddress layout := hnext
    rw [joinAfter_apart hend (fun _ => h.pxEnd.symm), ← hend]
    exact h.link hdistinct hit hfresh hsize
  | cons g high =>
    have hg : heap.pxNextFreeBlock it = g.start := hnext
    rw [joinAbove]
    by_cases htouch : b.limit = g.start
    · have hgne : g.start ≠ heap.pxEnd := by
        rw [h.pxEnd]
        exact hdistinct.ne_end g (by simp)
      have hgsize := h.freeSize g (by simp)
      have hglt := hhigh g (by simp)
      rw [if_pos htouch, joinAfter_touch hg (by rw [hsize]; exact htouch) hgne, hsize, hgsize,
        addSize_of_lt (by omega)]
      have hfresh' : Fresh layout (low ++ high) live b.start :=
        ⟨hfresh.ne_start, hfresh.ne_end,
          fun f hf => hfresh.notFree f (by
            obtain hf | hf := List.mem_append.mp hf
            · simp [hf]
            · simp [hf]), hfresh.notLive⟩
      -- as if `g` had been unlinked before the joined block is linked
      have hunlinked := (h.unlink hdistinct hit).setSize_fresh (y := b.size + g.size) hfresh'
      have hdistinct' : Distinct layout (low ++ high) live :=
        hdistinct.sublist ((List.Sublist.refl _).append (List.sublist_cons_self _ _))
          (List.Sublist.refl _)
      have hlinked := hunlinked.link (b := ⟨b.start, b.size + g.size⟩) hdistinct' hit hfresh'
        (by simp)
      simp only [setSize_next, setNext_next, Function.update_self] at hlinked
      rw [← setSize_setNext_comm, setNext_overwrite hne] at hlinked
      exact hlinked
    · rw [if_neg htouch, joinAfter_apart hg ?_, ← hg]
      · exact h.link hdistinct hit hfresh hsize
      · intro htouch'
        rw [hsize] at htouch'
        exact absurd htouch' htouch

theorem untouched_joinAfter {blocks : List Block} {before : Heap} {it x : Nat}
    (h : Untouched layout blocks before heap) (hx : Owned layout blocks x) :
    Untouched layout blocks before (joinAfter heap it x) := by
  simp only [joinAfter]
  split
  · split
    · exact (h.setSize hx).setNext hx
    · exact h.setNext hx
  · exact h.setNext hx

theorem sameCounts_joinAfter {before : Heap} {it x : Nat} (h : SameCounts before heap) :
    SameCounts before (joinAfter heap it x) := by
  obtain ⟨hfree, hminimum, hallocations, hfrees⟩ := h
  simp only [joinAfter]
  split
  · split
    · exact ⟨hfree, hminimum, hallocations, hfrees⟩
    · exact ⟨hfree, hminimum, hallocations, hfrees⟩
  · exact ⟨hfree, hminimum, hallocations, hfrees⟩

section PutBack

variable {front : List Block} {f : Block}

-- The block being freed, which is on neither list.
structure Freeing (layout : HeapLayout) (heap : Heap) (free live : List Block) (b : Block) :
    Prop where
  holds : Holds layout heap free live
  distinct : Distinct layout free live
  fresh : Fresh layout free live b.start
  size : heap.xBlockSize b.start = b.size
  fits : b.Fits (startAddress layout) (endAddress layout) portBYTE_ALIGNMENT
  freeFits : ∀ f ∈ free, f.Fits (startAddress layout) (endAddress layout) portBYTE_ALIGNMENT

theorem Freeing.small (h : Freeing layout heap free live b) :
    b.size < 2 ^ 59 ∧ ∀ f ∈ free, f.size < 2 ^ 59 := by
  have hsize := (fits_bounds h.fits).2.2.2.2.2.2
  simp only [configTOTAL_HEAP_SIZE] at hsize
  refine ⟨by omega, ?_⟩
  intro f hf
  have hfsize := (fits_bounds (h.freeFits f hf)).2.2.2.2.2.2
  simp only [configTOTAL_HEAP_SIZE] at hfsize
  omega

-- What `prvInsertBlockIntoFreeList` does with the block.
def Inserts (layout : HeapLayout) (heap : Heap) (free live : List Block) (b : Block) : Prop :=
  ∃ heap', prvInsertBlockIntoFreeList layout b.start heap = some heap' ∧
    Holds layout heap' (putBack b free) live ∧ Untouched layout (b :: free) heap heap' ∧
    SameCounts heap heap'

theorem inserts_lowest (h : Freeing layout heap high live b) (hhigh : ∀ g ∈ high, b.start ≤ g.start)
    (hfind : findPlace heap b.start configTOTAL_HEAP_SIZE layout.xStart = some layout.xStart) :
    Inserts layout heap high live b := by
  obtain ⟨hsmall, hsmalls⟩ := h.small
  have hne : layout.xStart ≠ b.start := h.fresh.ne_start.symm
  have hbefore : joinBefore heap layout.xStart b.start = (b.start, heap) := by
    rw [joinBefore, h.holds.startSize, Nat.add_zero, if_neg hne]
  have hholds : Holds layout heap ([] ++ high) live := h.holds
  have hjoined := joinAfter_fresh hholds h.distinct h.fresh h.size (by omega)
    (fun g hg => Nat.lt_trans (hsmalls g hg) (by omega)) rfl hne
  have hcounts : SameCounts heap (joinAfter heap layout.xStart b.start) :=
    sameCounts_joinAfter ⟨rfl, rfl, rfl, rfl⟩
  refine ⟨(joinAfter heap layout.xStart b.start).setNext layout.xStart b.start, ?_, ?_, ?_,
    ⟨hcounts.free, hcounts.minimum, hcounts.allocations, hcounts.frees⟩⟩
  · simp [prvInsertBlockIntoFreeList, hfind, hbefore, hne]
  · rw [putBack_of_above hhigh]
    exact hjoined
  · exact (untouched_joinAfter Untouched.refl (owned_start (by simp) h.fits.pos)).setNext (.inl rfl)

-- The block below reaches it and takes it in.
theorem inserts_touching (h : Freeing layout heap (front ++ f :: high) live b)
    (hfront : ∀ g ∈ front, g.start < b.start) (hroom : ∀ g ∈ front, g.limit ≠ b.start)
    (hf : f.start < b.start) (htouch : f.limit = b.start)
    (hfind : findPlace heap b.start configTOTAL_HEAP_SIZE layout.xStart = some f.start) :
    Inserts layout heap (front ++ f :: high) live b := by
  obtain ⟨hsmall, hsmalls⟩ := h.small
  have hfmem : f ∈ front ++ f :: high := by simp
  have hffits := h.freeFits f hfmem
  have hfne : f.start ≠ layout.xStart := (fits_ne hffits).1
  have hfsmall := hsmalls f hfmem
  have hbefore : joinBefore heap f.start b.start =
      (f.start, heap.setSize f.start (f.size + b.size)) := by
    have hreach : f.start + f.size = b.start := htouch
    rw [joinBefore, h.holds.freeSize f hfmem, h.size, if_pos hreach, addSize_of_lt (by omega)]
  have hfowned : Owned layout (b :: (front ++ f :: high)) f.start :=
    owned_start (List.mem_cons_of_mem _ hfmem) hffits.pos
  have hjoined := joinAfter_listed (b := ⟨f.start, f.size + b.size⟩) (h.holds.resize h.distinct)
    (h.distinct.of_starts (by simp)) (by simp only; omega)
    (fun g hg => Nat.lt_trans (hsmalls g (by simp [hg])) (by omega))
  refine ⟨joinAfter (heap.setSize f.start (f.size + b.size)) f.start f.start, ?_, ?_, ?_,
    sameCounts_joinAfter ⟨rfl, rfl, rfl, rfl⟩⟩
  · simp [prvInsertBlockIntoFreeList, hfind, hbefore, hfne, validate_of_fits hffits]
  · rw [putBack_touching hfront hroom hf htouch]
    exact hjoined
  · exact untouched_joinAfter (Untouched.refl.setSize hfowned) hfowned

theorem inserts_between (h : Freeing layout heap (front ++ [f] ++ high) live b)
    (hlow : ∀ g ∈ front ++ [f], g.start < b.start) (hroom : ∀ g ∈ front ++ [f], g.limit ≠ b.start)
    (hhigh : ∀ g ∈ high, b.start ≤ g.start)
    (hfind : findPlace heap b.start configTOTAL_HEAP_SIZE layout.xStart = some f.start) :
    Inserts layout heap (front ++ [f] ++ high) live b := by
  obtain ⟨hsmall, hsmalls⟩ := h.small
  have hfmem : f ∈ front ++ [f] ++ high := by simp
  have hffits := h.freeFits f hfmem
  have hfne : f.start ≠ layout.xStart := (fits_ne hffits).1
  have hne : f.start ≠ b.start := h.fresh.notFree f hfmem
  have hbefore : joinBefore heap f.start b.start = (b.start, heap) := by
    rw [joinBefore, h.holds.freeSize f hfmem]
    exact if_neg (hroom f (by simp))
  have hjoined := joinAfter_fresh h.holds h.distinct h.fresh h.size (by omega)
    (fun g hg => Nat.lt_trans (hsmalls g (by simp [hg])) (by omega)) (by simp) hne
  have hcounts : SameCounts heap (joinAfter heap f.start b.start) :=
    sameCounts_joinAfter ⟨rfl, rfl, rfl, rfl⟩
  refine ⟨(joinAfter heap f.start b.start).setNext f.start b.start, ?_, ?_, ?_,
    ⟨hcounts.free, hcounts.minimum, hcounts.allocations, hcounts.frees⟩⟩
  · simp [prvInsertBlockIntoFreeList, hfind, hbefore, hfne, validate_of_fits hffits, hne]
  · rw [putBack_append hlow hroom hhigh]
    exact hjoined
  · exact (untouched_joinAfter Untouched.refl (owned_start (by simp) h.fits.pos)).setNext
      (owned_start (List.mem_cons_of_mem _ hfmem) hffits.pos)

-- The block goes back to its place on the list and is joined with the blocks
-- it touches.
theorem prvInsertBlockIntoFreeList_spec (h : Freeing layout heap free live b)
    (hgapped : Gapped free) (hlength : free.length < configTOTAL_HEAP_SIZE) :
    Inserts layout heap free live b := by
  have hlimit := (fits_bounds h.fits).2.2.1
  obtain ⟨low, high, rfl, hlow, hhigh, hfind⟩ := findPlace_spec b.start h.holds.path
    hgapped (by omega) hlength
  obtain rfl | ⟨front, f, rfl⟩ := List.eq_nil_or_concat' low
  · exact inserts_lowest h hhigh hfind
  · rw [List.map_append, List.map_singleton, last_append] at hfind
    have hgapLow := (List.pairwise_append.mp hgapped).1
    have hroom : ∀ g ∈ front, g.limit ≠ b.start := by
      intro g hg
      have hgap := (List.pairwise_append.mp hgapLow).2.2 g hg f (by simp)
      have hfb := hlow f (by simp)
      omega
    by_cases htouch : f.limit = b.start
    · rw [List.append_assoc, List.singleton_append] at h ⊢
      exact inserts_touching h (fun g hg => hlow g (by simp [hg])) hroom (hlow f (by simp)) htouch
        hfind
    · refine inserts_between h hlow ?_ hhigh hfind
      intro g hg
      obtain hg | hg := List.mem_append.mp hg
      · exact hroom g hg
      · obtain rfl := List.mem_singleton.mp hg
        exact htouch

end PutBack

section Free

variable {a : HeapArena layout}

-- `vPortFree` of a block that is given out.
theorem vPortFree_spec (hrep : Represents layout heap a) (hb : b ∈ a.live) :
    ∃ heap', vPortFree layout (b.start + 16) heap = some heap' ∧
      Represents layout heap' (a.release b hb) ∧ Untouched layout (b :: a.free) heap heap' ∧
      heap'.xMinimumEverFreeBytesRemaining = heap.xMinimumEverFreeBytesRemaining ∧
      heap'.xNumberOfSuccessfulAllocations = heap.xNumberOfSuccessfulAllocations ∧
      heap'.xNumberOfSuccessfulFrees = addSize heap.xNumberOfSuccessfulFrees 1 := by
  have hfits := a.liveFits b hb
  have hlt := (fits_bounds hfits).2.2.2.2.2.2
  simp only [configTOTAL_HEAP_SIZE] at hlt
  have hbytes : bytes a.free + b.size < configTOTAL_HEAP_SIZE := by
    have htotal := (a.release b hb).total
    have husable := usable_le layout
    rw [Arena.release_free, bytes_putBack] at htotal
    omega
  simp only [configTOTAL_HEAP_SIZE] at hbytes
  have hsize := hrep.holds.liveSize b hb
  have hdistinct := arena_distinct a
  have hperm := List.perm_cons_erase hb
  have hdistinct' : Distinct layout a.free (b :: a.live.erase b) := by
    refine ⟨hdistinct.nodup, (hperm.map Block.start).nodup_iff.mp hdistinct.liveNodup, ?_, ?_, ?_⟩
    · intro c hc
      apply hdistinct.ne_end c
      simpa [hperm.mem_iff] using hc
    · exact fun c hc => hdistinct.ne_start c (hperm.mem_iff.mpr hc)
    · exact fun c hc l hl => hdistinct.apart c hc l (hperm.mem_iff.mpr hl)
  have hfresh := hdistinct'.fresh_live
  have herased : Holds layout heap a.free (a.live.erase b) :=
    { hrep.holds with
      liveSize := fun l hl => hrep.holds.liveSize l (List.mem_of_mem_erase hl)
      liveNext := fun l hl => hrep.holds.liveNext l (List.mem_of_mem_erase hl) }
  have hvalid := validate_of_fits hfits
  have hallocated : configASSERT (heap.heapBLOCK_IS_ALLOCATED b.start) = some () := by
    rw [heapBLOCK_IS_ALLOCATED, hsize, allocated_and_mask (by omega)]
    rfl
  have hunlinked : configASSERT (heap.pxNextFreeBlock b.start == heapNULL) = some () := by
    rw [hrep.holds.liveNext b hb]
    rfl
  have hmark : heap.heapFREE_BLOCK b.start = heap.setSize b.start b.size := by
    rw [heapFREE_BLOCK, hsize, allocated_and_size (by omega)]
  -- the heap when the block goes back to the list
  let freed : Heap := { heap.setSize b.start b.size with
    xFreeBytesRemaining := addSize heap.xFreeBytesRemaining b.size }
  have hmarked := herased.setSize_fresh (y := b.size) hfresh
  have hfreeing : Freeing layout freed a.free (a.live.erase b) b :=
    { holds := ⟨hmarked.pxEnd, hmarked.path, hmarked.startSize, hmarked.endSize, hmarked.endNext,
        hmarked.freeSize, hmarked.liveSize, hmarked.liveNext⟩
      distinct := hdistinct'.sublist (List.Sublist.refl _) (List.sublist_cons_self _ _)
      fresh := hfresh
      size := Function.update_self _ _ _
      fits := hfits
      freeFits := a.freeFits }
  obtain ⟨after, hinsert, hholds, htouched, hcounts⟩ :=
    prvInsertBlockIntoFreeList_spec hfreeing a.gapped (free_length_lt a)
  refine ⟨{ after with
    xNumberOfSuccessfulFrees := addSize after.xNumberOfSuccessfulFrees 1 }, ?_, ⟨?_, ?_⟩, ?_, ?_, ?_,
    ?_⟩
  · have hpv : b.start + 16 ≠ heapNULL := by
      rw [heapNULL]
      omega
    simp only [vPortFree, if_pos hpv, xHeapStructSize, Nat.add_sub_cancel, hvalid, hallocated,
      hunlinked, hmark]
    simp only [setSize_size, Function.update_self, Option.bind_eq_bind, Option.bind_some]
    change Option.bind (prvInsertBlockIntoFreeList layout b.start freed) _ = _
    rw [hinsert]
    rfl
  · exact ⟨hholds.pxEnd, hholds.path, hholds.startSize, hholds.endSize, hholds.endNext,
      hholds.freeSize, hholds.liveSize, hholds.liveNext⟩
  · rw [Arena.release_free, bytes_putBack]
    refine hcounts.free.trans ?_
    change addSize heap.xFreeBytesRemaining b.size = _
    rw [hrep.freeBytes, addSize_of_lt (by omega), Nat.add_comm]
  · intro z hz
    have hbz : z ≠ b.start := by
      rintro rfl
      exact hz (owned_start (by simp) hfits.pos)
    obtain ⟨hnext, hsizes⟩ := htouched z hz
    refine ⟨hnext, hsizes.trans ?_⟩
    exact Function.update_of_ne hbz _ _
  · exact hcounts.minimum
  · exact hcounts.allocations
  · exact congrArg (addSize · 1) hcounts.frees

end Free

end SpaceBaremetal.Heap
