import SpaceBaremetal.Lib.Marks
import SpaceBaremetal.MemoryProtection.Theorems
import SpaceBaremetal.Tasks

namespace SpaceBaremetal

-- The part of the world that fault injection and scrubbing work on.
structure ScrubMemory where
  area : Nat → BitVec 8
  queue : Option (BoundedQueue FaultEvent FAULT_QUEUE_LENGTH)
  regions : List MemoryRegion
  ticks : Nat

def World.scrub (w : World) : ScrubMemory where
  area := w.scrubArea
  queue := w.xFaultQueue
  regions := w.memoryProtection.protectedRegions
  ticks := w.xTickCount

def FaultEvent.Valid (event : FaultEvent) : Prop :=
  event.index.toNat < SCRUB_SIZE ∧ event.bit.toNat < 8

instance (event : FaultEvent) : Decidable event.Valid :=
  inferInstanceAs (Decidable (_ ∧ _))

def Golden (area : Nat → BitVec 8) : Prop :=
  ∀ i < SCRUB_SIZE, area i = goldenCopy i

-- The bits of the area that differ from the golden copy, a bit being named by
-- the event that reports it.
def wrongBits (area : Nat → BitVec 8) (event : FaultEvent) : Bool :=
  (area event.index.toNat).getLsbD event.bit.toNat !=
    (goldenCopy event.index.toNat).getLsbD event.bit.toNat

-- The event of an injection at tick `tick`.
def faultAt (tick : Nat) : FaultEvent where
  index := faultIndex (BitVec.ofNat 64 tick)
  bit := (faultBit (BitVec.ofNat 64 tick)).setWidth 8

-- Every region that an access to the area meets permits reading and writing.
def AreaOpen (layout : Layout) (regions : List MemoryRegion) : Prop :=
  ∀ region ∈ regions, ∀ i < SCRUB_SIZE, regionOverlaps region (scrubAddress layout i) 1 = true →
    region.permissions &&& MEM_PERM_READ = MEM_PERM_READ ∧
      region.permissions &&& MEM_PERM_WRITE = MEM_PERM_WRITE

section Frame

-- Counting an upset touches the two counters besides what reports touch.
theorem memoryScrubRecordSeu_view {γ : Type} {view : World → γ} (h : Unreported view)
    (hcounters : ∀ total count w,
      view { w with seuTotalCount := total, seuCounter := count } = view w)
    (w : World) : view (memoryScrubRecordSeu w) = view w := by
  let counted : World :=
    { w with seuTotalCount := w.seuTotalCount + 1, seuCounter := w.seuCounter + 1 }
  have hcounted : view counted = view w := hcounters _ _ w
  unfold memoryScrubRecordSeu
  dsimp only
  split_ifs
  · exact hcounters _ w.seuCounter w
  · have hrequested := h.systemStateRequestChange .Degraded 0x02 counted
    exact (hcounters _ 0 _).trans (hrequested.trans hcounted)
  · exact hcounted

theorem scrub_unreported : Unreported World.scrub where
  uart := fun _ _ => rfl
  eventLog := fun _ _ => rfl
  violations := fun _ _ => rfl
  requests := fun _ _ _ => rfl

@[simp] theorem uartWrite_scrub (text : List String) (w : World) :
    (uartWrite text w).scrub = w.scrub := rfl

@[simp] theorem eventLogStore_scrub (type : EventLogType) (argA argB : BitVec 8)
    (data : BitVec 32) (w : World) : (eventLogStore type argA argB data w).scrub = w.scrub := rfl

@[simp] theorem memoryScrubRecordSeu_scrub (w : World) :
    (memoryScrubRecordSeu w).scrub = w.scrub :=
  memoryScrubRecordSeu_view scrub_unreported (fun _ _ _ => rfl) w

@[simp] theorem memoryProtectionCheckAccess_scrub (address size : BitVec 64) (access : BitVec 32)
    (w : World) : (memoryProtectionCheckAccess address size access w).2.scrub = w.scrub :=
  scrub_unreported.memoryProtectionCheckAccess address size access w

@[simp] theorem watchdogKick_scrub (layout : Layout) (taskBit : BitVec 32) (w : World) :
    (watchdogKick layout taskBit w).scrub = w.scrub := by
  unfold watchdogKick watchdogKickImpl
  dsimp only
  split_ifs
  · simp
  · rw [← memoryProtectionCheckAccess_scrub layout.watchdogKickImpl 1 MEM_PERM_EXEC w]
    cases (memoryProtectionCheckAccess layout.watchdogKickImpl 1 MEM_PERM_EXEC w).2.xWatchdogTaskHandle
    · rfl
    · rfl

end Frame

section Access

variable {layout : Layout}

theorem memoryProtectionCheckAccess_read (w : World) (hopen : AreaOpen layout w.scrub.regions)
    (i : Nat) (hi : i < SCRUB_SIZE) :
    memoryProtectionCheckAccess (scrubAddress layout i) 1 MEM_PERM_READ w = (true, w) :=
  memoryProtectionCheckAccess_granted w (by decide)
    (fun region hregion hoverlap => (hopen region hregion i hi hoverlap).1)

theorem memoryProtectionCheckAccess_write (w : World) (hopen : AreaOpen layout w.scrub.regions)
    (i : Nat) (hi : i < SCRUB_SIZE) :
    memoryProtectionCheckAccess (scrubAddress layout i) 1 MEM_PERM_WRITE w = (true, w) :=
  memoryProtectionCheckAccess_granted w (by decide)
    (fun region hregion hoverlap => (hopen region hregion i hi hoverlap).2)

theorem scrubRead_eq (w : World) (hopen : AreaOpen layout w.scrub.regions) (i : Nat)
    (hi : i < SCRUB_SIZE) : scrubRead layout i w = (w.scrubArea i, w) := by
  unfold scrubRead
  rw [memoryProtectionCheckAccess_read w hopen i hi]
  rfl

theorem scrubWrite_eq (w : World) (hopen : AreaOpen layout w.scrub.regions) (i : Nat)
    (hi : i < SCRUB_SIZE) (value : BitVec 8) :
    scrubWrite layout i value w =
      (true, { w with scrubArea := Function.update w.scrubArea i value }) := by
  unfold scrubWrite
  rw [memoryProtectionCheckAccess_write w hopen i hi]
  rfl

end Access

section Bits

theorem faultEvent_ne {event other : FaultEvent} (hne : other ≠ event)
    (hindex : other.index.toNat = event.index.toNat) : other.bit.toNat ≠ event.bit.toNat := by
  intro hbit
  apply hne
  cases event
  cases other
  rw [FaultEvent.mk.injEq]
  exact ⟨BitVec.eq_of_toNat_eq hindex, BitVec.eq_of_toNat_eq hbit⟩

-- A byte is right exactly if no event of the area names a wrong bit of it.
theorem byte_golden_iff (area : Nat → BitVec 8) (i : Nat) (hi : i < SCRUB_SIZE) :
    area i = goldenCopy i ↔
      ∀ event : FaultEvent, event.Valid → event.index.toNat = i → wrongBits area event = false := by
  constructor
  · rintro hgolden event - rfl
    unfold wrongBits
    rw [hgolden]
    simp
  · intro hwrong
    apply BitVec.eq_of_getLsbD_eq
    intro k hk
    have hindex : (BitVec.ofNat 32 i).toNat = i := by
      rw [BitVec.toNat_ofNat, Nat.mod_eq_of_lt (by unfold SCRUB_SIZE at hi; omega)]
    have hbit : (BitVec.ofNat 8 k).toNat = k := by
      rw [BitVec.toNat_ofNat, Nat.mod_eq_of_lt (by omega)]
    have hevent := hwrong ⟨BitVec.ofNat 32 i, BitVec.ofNat 8 k⟩
      ⟨by dsimp only; omega, by dsimp only; omega⟩ hindex
    unfold wrongBits at hevent
    dsimp only at hevent
    rw [hindex, hbit] at hevent
    simpa using hevent

theorem golden_iff (area : Nat → BitVec 8) :
    Golden area ↔ ∀ event : FaultEvent, event.Valid → wrongBits area event = false := by
  constructor
  · intro hgolden event hvalid
    exact (byte_golden_iff area _ hvalid.1).mp (hgolden _ hvalid.1) event hvalid rfl
  · intro hwrong i hi
    exact (byte_golden_iff area i hi).mpr fun event hvalid _ => hwrong event hvalid

theorem getLsbD_one_shiftLeft (bit k : Nat) (hbit : bit < 8) :
    (1#8 <<< bit).getLsbD k = decide (k = bit) := by
  rw [BitVec.getLsbD_shiftLeft, BitVec.getLsbD_one]
  by_cases h : k = bit
  · subst h
    simp [hbit]
  · have hsub : k < bit ∨ k - bit ≠ 0 := by omega
    obtain hlt | hne := hsub
    · simp [h, hlt]
    · simp [h, hne]

-- An injection toggles the bit that its event names and no other.
theorem wrongBits_flipBit (area : Nat → BitVec 8) (event event' : FaultEvent) (hvalid : event.Valid) :
    wrongBits (flipBit area event.index.toNat event.bit.toNat) event' =
      Marks.toggle (wrongBits area) event event' := by
  rw [Marks.toggle_apply]
  unfold wrongBits flipBit
  by_cases hindex : event'.index.toNat = event.index.toNat
  · rw [hindex, Function.update_self, BitVec.getLsbD_xor, getLsbD_one_shiftLeft _ _ hvalid.2]
    by_cases hevent : event' = event
    · subst hevent
      cases (area event'.index.toNat).getLsbD event'.bit.toNat <;> simp
    · simp [hevent, faultEvent_ne hevent hindex]
  · have hevent : event' ≠ event := fun h => hindex (by rw [h])
    rw [Function.update_of_ne hindex]
    simp [hevent]

-- The byte written by a targeted fix.
def fixedByte (actual expected : BitVec 8) (bit : Nat) : BitVec 8 :=
  (actual &&& ~~~(1#8 <<< bit)) ||| (expected &&& (1#8 <<< bit))

theorem getLsbD_fixedByte (actual expected : BitVec 8) (bit k : Nat) (hbit : bit < 8) :
    (fixedByte actual expected bit).getLsbD k =
      if k = bit then expected.getLsbD k else actual.getLsbD k := by
  unfold fixedByte
  rw [BitVec.getLsbD_or, BitVec.getLsbD_and, BitVec.getLsbD_and, BitVec.getLsbD_not,
    getLsbD_one_shiftLeft _ _ hbit]
  by_cases hk : k < 8
  · by_cases h : k = bit
    · simp [h]
    · simp [h, hk]
  · simp [BitVec.getLsbD_of_ge _ k (Nat.le_of_not_lt hk)]

theorem wrongBits_fixedByte (area : Nat → BitVec 8) (event event' : FaultEvent)
    (hvalid : event.Valid) :
    wrongBits (Function.update area event.index.toNat
        (fixedByte (area event.index.toNat) (goldenCopy event.index.toNat) event.bit.toNat)) event' =
      Marks.clear (wrongBits area) event event' := by
  rw [Marks.clear_apply]
  unfold wrongBits
  by_cases hindex : event'.index.toNat = event.index.toNat
  · rw [hindex, Function.update_self, getLsbD_fixedByte _ _ _ _ hvalid.2]
    by_cases hevent : event' = event
    · subst hevent
      simp
    · simp [hevent, faultEvent_ne hevent hindex]
  · have hevent : event' ≠ event := fun h => hindex (by rw [h])
    rw [Function.update_of_ne hindex]
    simp [hevent]

-- The comparison that a targeted fix makes.
theorem masked_eq_iff (actual expected : BitVec 8) (bit : Nat) (hbit : bit < 8) :
    actual &&& (1#8 <<< bit) = expected &&& (1#8 <<< bit) ↔
      actual.getLsbD bit = expected.getLsbD bit := by
  constructor
  · intro h
    have hget := congrArg (fun byte : BitVec 8 => byte.getLsbD bit) h
    simpa [getLsbD_one_shiftLeft _ _ hbit] using hget
  · intro h
    apply BitVec.eq_of_getLsbD_eq
    intro k hk
    rw [BitVec.getLsbD_and, BitVec.getLsbD_and, getLsbD_one_shiftLeft _ _ hbit]
    by_cases hkbit : k = bit
    · rw [hkbit, h]
    · simp [hkbit]

-- A fix changes nothing where the bit is right already.
theorem fixedByte_of_masked_eq (actual expected : BitVec 8) (bit : Nat) (hbit : bit < 8)
    (h : actual &&& (1#8 <<< bit) = expected &&& (1#8 <<< bit)) :
    fixedByte actual expected bit = actual := by
  rw [masked_eq_iff _ _ _ hbit] at h
  apply BitVec.eq_of_getLsbD_eq
  intro k hk
  rw [getLsbD_fixedByte _ _ _ _ hbit]
  by_cases hkbit : k = bit
  · rw [if_pos hkbit, hkbit, h]
  · rw [if_neg hkbit]

end Bits

section Operations

variable {layout : Layout}

theorem faultBit_lt (ticks : BitVec 64) : (faultBit ticks).toNat < 8 := by
  unfold faultBit
  rw [BitVec.toNat_umod]
  exact Nat.mod_lt _ (by decide)

theorem faultAt_bit (tick : Nat) :
    (faultAt tick).bit.toNat = (faultBit (BitVec.ofNat 64 tick)).toNat := by
  have hlt := faultBit_lt (BitVec.ofNat 64 tick)
  unfold faultAt
  rw [BitVec.toNat_setWidth, Nat.mod_eq_of_lt (by omega)]

theorem faultAt_valid (tick : Nat) : (faultAt tick).Valid := by
  constructor
  · unfold faultAt faultIndex
    rw [BitVec.toNat_umod]
    exact Nat.mod_lt _ (by decide)
  · rw [faultAt_bit]
    exact faultBit_lt _

theorem injectRandomFault_scrub (w : World) :
    (injectRandomFault w).scrub =
      { w.scrub with
          area := flipBit w.scrubArea (faultAt w.xTickCount).index.toNat
            (faultAt w.xTickCount).bit.toNat
          queue := w.xFaultQueue.map fun queue => (queue.send (faultAt w.xTickCount)).2 } := by
  rw [faultAt_bit]
  unfold injectRandomFault
  simp only [uartPuts_eq, uartPutHex_eq, uartHexDump_eq, uartWrite_uartWrite]
  split
  · rename_i hqueue
    rw [show w.xFaultQueue = none from hqueue]
    rfl
  · rename_i queue hqueue
    rw [show w.xFaultQueue = some queue from hqueue]
    rfl

-- What a targeted fix does to an area that is open to it.
def fixedArea (area : Nat → BitVec 8) (event : FaultEvent) : Nat → BitVec 8 :=
  if event.Valid then
    Function.update area event.index.toNat
      (fixedByte (area event.index.toNat) (goldenCopy event.index.toNat) event.bit.toNat)
  else
    area

-- A bit that is right already stays as it is.
theorem fixedArea_of_right (area : Nat → BitVec 8) (event : FaultEvent)
    (h : event.Valid → wrongBits area event = false) : fixedArea area event = area := by
  unfold fixedArea
  by_cases hvalid : event.Valid
  · have hright := h hvalid
    unfold wrongBits at hright
    rw [bne_eq_false_iff_eq] at hright
    rw [if_pos hvalid,
      fixedByte_of_masked_eq _ _ _ hvalid.2 ((masked_eq_iff _ _ _ hvalid.2).mpr hright),
      Function.update_eq_self]
  · rw [if_neg hvalid]

theorem wrongBits_fixedArea (area : Nat → BitVec 8) (event event' : FaultEvent)
    (hvalid : event'.Valid) :
    wrongBits (fixedArea area event) event' = Marks.clear (wrongBits area) event event' := by
  unfold fixedArea
  by_cases hevent : event.Valid
  · rw [if_pos hevent, wrongBits_fixedByte _ _ _ hevent]
  · have hne : event' ≠ event := by
      rintro rfl
      exact hevent hvalid
    rw [if_neg hevent, Marks.clear_apply]
    simp [hne]

theorem wrongBits_foldl_fixedArea (area : Nat → BitVec 8) (events : List FaultEvent)
    (event' : FaultEvent) (hvalid : event'.Valid) :
    wrongBits (events.foldl fixedArea area) event' =
      Marks.clearAll (wrongBits area) events event' := by
  rw [Marks.clearAll_apply]
  induction events generalizing area with
  | nil => simp
  | cons event events ih =>
    rw [List.foldl_cons, ih, wrongBits_fixedArea _ _ _ hvalid, Marks.clear_apply]
    by_cases hevent : event' = event
    · simp [hevent]
    · simp [hevent]

-- One more byte is golden.
theorem golden_cons (area : Nat → BitVec 8) (index : Nat) (indices : List Nat) (i : Nat) :
    (if i ∈ indices then goldenCopy i else Function.update area index (goldenCopy index) i) =
      if i ∈ index :: indices then goldenCopy i else area i := by
  by_cases hrest : i ∈ indices
  · simp [hrest]
  · by_cases hindex : i = index
    · subst hindex
      simp [hrest]
    · simp [hrest, hindex]

theorem foldl_goldenCopy (indices : List Nat) (area : Nat → BitVec 8) (i : Nat) :
    indices.foldl (fun area i => Function.update area i (goldenCopy i)) area i =
      if i ∈ indices then goldenCopy i else area i := by
  induction indices generalizing area with
  | nil => simp
  | cons index indices ih => rw [List.foldl_cons, ih, golden_cons]

-- The region that the scrub task registers for the area permits both kinds of
-- access, and a full table leaves the area as open as it was.
theorem memoryScrubProtectBuffers_scrub (w : World) (hopen : AreaOpen layout w.scrub.regions) :
    ∃ regions, (memoryScrubProtectBuffers layout w).scrub = { w.scrub with regions := regions } ∧
      AreaOpen layout regions := by
  have hread : (MEM_PERM_READ ||| MEM_PERM_WRITE) &&& MEM_PERM_READ = MEM_PERM_READ := by decide
  have hwrite : (MEM_PERM_READ ||| MEM_PERM_WRITE) &&& MEM_PERM_WRITE = MEM_PERM_WRITE := by decide
  unfold memoryScrubProtectBuffers memoryProtectionProtectRegion memoryProtectionAddRegion
  simp only [uartPuts_eq, uartWrite_scrub]
  split_ifs
  · refine ⟨_, rfl, ?_⟩
    intro region hregion i hi hoverlap
    rw [List.mem_append, List.mem_singleton] at hregion
    cases hregion with
    | inl hold => exact hopen region hold i hi hoverlap
    | inr hnew =>
      rw [hnew]
      exact ⟨hread, hwrite⟩
  · exact ⟨w.scrub.regions, rfl, hopen⟩

theorem memoryScrubInit_scrub (layout : Layout) (w : World)
    (hopen : AreaOpen layout w.scrub.regions) :
    Golden (memoryScrubInit layout w).scrubArea ∧
      (memoryScrubInit layout w).xFaultQueue = w.xFaultQueue ∧
      (memoryScrubInit layout w).xTickCount = w.xTickCount ∧
      AreaOpen layout (memoryScrubInit layout w).scrub.regions := by
  have hgolden : Golden ((List.range SCRUB_SIZE).foldl
      (fun area i => Function.update area i (goldenCopy i)) w.scrubArea) := by
    intro i hi
    rw [foldl_goldenCopy, if_pos (List.mem_range.mpr hi)]
  have hscrub : (memoryScrubInit layout w).scrub = (memoryScrubProtectBuffers layout
      { w with
          seuCounter := 0
          seuTotalCount := 0
          scrubArea := (List.range SCRUB_SIZE).foldl
            (fun area i => Function.update area i (goldenCopy i)) w.scrubArea }).scrub := rfl
  generalize (List.range SCRUB_SIZE).foldl
    (fun area i => Function.update area i (goldenCopy i)) w.scrubArea = area at hgolden hscrub
  obtain ⟨regions, hprotected, hstill⟩ := memoryScrubProtectBuffers_scrub
    { w with seuCounter := 0, seuTotalCount := 0, scrubArea := area } hopen
  rw [hprotected] at hscrub
  have harea : (memoryScrubInit layout w).scrubArea = area := congrArg ScrubMemory.area hscrub
  refine ⟨?_, congrArg ScrubMemory.queue hscrub, congrArg ScrubMemory.ticks hscrub, ?_⟩
  · rw [harea]
    exact hgolden
  · rw [hscrub]
    exact hstill

end Operations

end SpaceBaremetal
