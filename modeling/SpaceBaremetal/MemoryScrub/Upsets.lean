import SpaceBaremetal.EventLog.Theorems
import SpaceBaremetal.MemoryScrub.Theorems
import SpaceBaremetal.SystemState.Requests

namespace SpaceBaremetal

def UPSET_REQUEST : StateRequest := ⟨.Degraded, 0x02⟩

-- What counting an upset reads and writes. The requests are those attempted.
structure UpsetCounts where
  state : SystemState
  total : BitVec 32
  counter : BitVec 32
  requests : Nat
deriving DecidableEq

def UpsetCounts.record (counts : UpsetCounts) : UpsetCounts :=
  if counts.state = .Safe then
    { counts with total := counts.total + 1 }
  else if counts.counter + 1 ≥ SEU_THRESHOLD_FOR_DEGRADED then
    { counts with total := counts.total + 1, counter := 0, requests := counts.requests + 1 }
  else
    { counts with total := counts.total + 1, counter := counts.counter + 1 }

-- The counts, and the SEU_CORRECTED entries since the last reset of the recorder.
structure UpsetAccount where
  counts : UpsetCounts
  entries : List EventLogEntry

def World.upsetCounts (w : World) : UpsetCounts where
  state := w.gSystemState
  total := w.seuTotalCount
  counter := w.seuCounter
  requests := w.attempts UPSET_REQUEST

def World.seuEntries (w : World) : List EventLogEntry :=
  w.entriesOf .SeuCorrected

def World.upsets (w : World) : UpsetAccount where
  counts := w.upsetCounts
  entries := w.seuEntries

section Account

theorem record_total (counts : UpsetCounts) : counts.record.total = counts.total + 1 := by
  unfold UpsetCounts.record
  split_ifs <;> rfl

theorem iterate_record_total (n : Nat) (counts : UpsetCounts) :
    (UpsetCounts.record^[n] counts).total = counts.total + BitVec.ofNat 32 n := by
  induction n with
  | zero => simp
  | succ n ih =>
    rw [Function.iterate_succ_apply', record_total, ih, BitVec.ofNat_add, ← BitVec.add_assoc]
    rfl

theorem World.upsets_counts (w : World) : w.upsets.counts = w.upsetCounts := rfl

theorem World.upsetCounts_total (w : World) : w.upsetCounts.total = w.seuTotalCount := rfl

theorem World.counts_of_upsetCounts {w w' : World} (h : w.upsetCounts = w'.upsetCounts) :
    w.seuTotalCount = w'.seuTotalCount ∧ w.seuCounter = w'.seuCounter ∧
      w.attempts UPSET_REQUEST = w'.attempts UPSET_REQUEST :=
  ⟨congrArg UpsetCounts.total h, congrArg UpsetCounts.counter h, congrArg UpsetCounts.requests h⟩

@[simp] theorem uartWrite_upsets (text : List String) (w : World) :
    (uartWrite text w).upsets = w.upsets := rfl

theorem eventLogRecordMemProtThreshold_upsets (count : BitVec 32) (w : World) :
    (eventLogRecordMemProtThreshold count w).upsets = w.upsets := by
  have hentries : (eventLogRecordMemProtThreshold count w).seuEntries = w.seuEntries := by
    unfold eventLogRecordMemProtThreshold World.seuEntries
    rw [eventLogStore_entriesOf, if_neg (by decide), List.append_nil]
  unfold World.upsets
  rw [hentries]
  rfl

-- A request changes no more of the account than the number of attempts.
theorem systemStateRequestChange_upsetCounts (state : SystemState) (reason : BitVec 32)
    (w : World) :
    (systemStateRequestChange state reason w).2.upsetCounts =
      { w.upsetCounts with
          requests := w.attempts UPSET_REQUEST + if UPSET_REQUEST = ⟨state, reason⟩ then 1 else 0 } := by
  have hattempts := systemStateRequestChange_attempts UPSET_REQUEST state reason w
  unfold World.upsetCounts
  rw [hattempts]
  unfold systemStateRequestChange
  cases w.xStateRequestQueue <;> rfl

-- The escalation of the software MPU has a reason of its own.
theorem recordViolation_upsets (w : World) : (recordViolation w).upsets = w.upsets := by
  let counted : World :=
    { w with
        memoryProtection :=
          { w.memoryProtection with violationCount := w.memoryProtection.violationCount + 1 } }
  have hrequest : ∀ v : World, (systemStateRequestChange .Degraded 0x04 v).2.upsets = v.upsets := by
    intro v
    unfold World.upsets World.seuEntries
    rw [systemStateRequestChange_entriesOf, systemStateRequestChange_upsetCounts,
      if_neg (by decide)]
    rfl
  have hlogged : ∀ count, (eventLogRecordMemProtThreshold count counted).upsets = w.upsets :=
    fun count => eventLogRecordMemProtThreshold_upsets count counted
  unfold recordViolation
  dsimp only
  split_ifs
  · rw [hrequest]
    exact hlogged _
  · exact hrequest counted
  · exact hlogged _
  · rfl

theorem memoryProtectionCheckAccess_upsets (address size : BitVec 64) (access : BitVec 32)
    (w : World) : (memoryProtectionCheckAccess address size access w).2.upsets = w.upsets := by
  by_cases hnone : access = MEM_PERM_NONE
  · rw [memoryProtectionCheckAccess, if_pos hnone]
  · obtain ⟨hpass, -⟩ | ⟨region, -, -, hdenied⟩ :=
      memoryProtectionCheckAccess_cases address size w hnone
    · rw [hpass]
    · rw [hdenied]
      unfold reportViolation
      rw [recordViolation_upsets]
      simp

theorem safePolicyAllowsSeuEscalation_iff (state : SystemState) :
    safePolicyAllowsSeuEscalation state = false ↔ state = .Safe := by
  cases state <;> decide

-- In SAFE an upset is counted in the total only.
theorem memoryScrubRecordSeu_safe (w : World) (hsafe : w.gSystemState = .Safe) :
    memoryScrubRecordSeu w = { w with seuTotalCount := w.seuTotalCount + 1 } := by
  unfold memoryScrubRecordSeu
  exact if_pos ((safePolicyAllowsSeuEscalation_iff _).mpr hsafe)

theorem memoryScrubRecordSeu_below (w : World) (hsafe : w.gSystemState ≠ .Safe)
    (hbelow : ¬w.seuCounter + 1 ≥ SEU_THRESHOLD_FOR_DEGRADED) :
    memoryScrubRecordSeu w =
      { w with seuTotalCount := w.seuTotalCount + 1, seuCounter := w.seuCounter + 1 } := by
  have hescalates := mt (safePolicyAllowsSeuEscalation_iff _).mp hsafe
  unfold memoryScrubRecordSeu
  exact (if_neg hescalates).trans (if_neg hbelow)

theorem memoryScrubRecordSeu_reached (w : World) (hsafe : w.gSystemState ≠ .Safe)
    (hreached : w.seuCounter + 1 ≥ SEU_THRESHOLD_FOR_DEGRADED) :
    memoryScrubRecordSeu w =
      { (systemStateRequestChange .Degraded 0x02
          { w with
              seuTotalCount := w.seuTotalCount + 1
              seuCounter := w.seuCounter + 1 }).2 with seuCounter := 0 } := by
  have hescalates := mt (safePolicyAllowsSeuEscalation_iff _).mp hsafe
  unfold memoryScrubRecordSeu
  exact (if_neg hescalates).trans (if_pos hreached)

theorem memoryScrubRecordSeu_upsets (w : World) :
    (memoryScrubRecordSeu w).upsets = ⟨w.upsetCounts.record, w.seuEntries⟩ := by
  unfold UpsetCounts.record
  by_cases hsafe : w.gSystemState = .Safe
  · have hstate : w.upsetCounts.state = .Safe := hsafe
    rw [memoryScrubRecordSeu_safe w hsafe, if_pos hstate]
    rfl
  · have hstate : w.upsetCounts.state ≠ .Safe := hsafe
    rw [if_neg hstate]
    by_cases hreached : w.seuCounter + 1 ≥ SEU_THRESHOLD_FOR_DEGRADED
    · have hcounter : w.upsetCounts.counter + 1 ≥ SEU_THRESHOLD_FOR_DEGRADED := hreached
      let counted : World :=
        { w with seuTotalCount := w.seuTotalCount + 1, seuCounter := w.seuCounter + 1 }
      have hcounts := systemStateRequestChange_upsetCounts .Degraded 0x02 counted
      have hentries := systemStateRequestChange_entriesOf .SeuCorrected .Degraded 0x02 counted
      rw [memoryScrubRecordSeu_reached w hsafe hreached, if_pos hcounter]
      rw [if_pos (show UPSET_REQUEST = ⟨.Degraded, 0x02⟩ from rfl)] at hcounts
      exact congrArg₂ UpsetAccount.mk (congrArg (fun counts => { counts with counter := 0 }) hcounts)
        hentries
    · have hcounter : ¬w.upsetCounts.counter + 1 ≥ SEU_THRESHOLD_FOR_DEGRADED := hreached
      rw [memoryScrubRecordSeu_below w hsafe hreached, if_neg hcounter]
      rfl

end Account

variable (layout : Layout)

-- Some region refuses a one-byte access to byte `i` of the area.
def byteRefused (regions : List MemoryRegion) (i : Nat) (access : BitVec 32) : Bool :=
  regions.any (MemoryRegion.refuses (scrubAddress layout i) 1 access)

-- What a read of byte `i` gives: a denied one gives 0.
def readsAs (memory : ScrubMemory) (i : Nat) : BitVec 8 :=
  if byteRefused layout memory.regions i MEM_PERM_READ then 0 else memory.area i

-- The check of the full scrub finds byte `i` wrong, and may write it.
def Rewrites (memory : ScrubMemory) (i : Nat) : Prop :=
  byteRefused layout memory.regions i MEM_PERM_WRITE = false ∧ readsAs layout memory i ≠ goldenCopy i

instance (memory : ScrubMemory) (i : Nat) : Decidable (Rewrites layout memory i) :=
  inferInstanceAs (Decidable (_ ∧ _))

-- A targeted fix finds the bit of its event wrong, and may write the byte.
def Repairs (memory : ScrubMemory) (event : FaultEvent) : Prop :=
  event.Valid ∧ byteRefused layout memory.regions event.index.toNat MEM_PERM_WRITE = false ∧
    (readsAs layout memory event.index.toNat).getLsbD event.bit.toNat ≠
      (goldenCopy event.index.toNat).getLsbD event.bit.toNat

section Access

variable {layout}

theorem memoryProtectionCheckAccess_byte (layout : Layout) (w : World) (i : Nat)
    {access : BitVec 32} (hnone : access ≠ MEM_PERM_NONE) :
    (memoryProtectionCheckAccess (scrubAddress layout i) 1 access w).1 =
      !byteRefused layout w.scrub.regions i access := by
  have hiff := @memoryProtectionCheckAccess_denied_iff (scrubAddress layout i) 1 access w hnone
  have hrefused : byteRefused layout w.scrub.regions i access = true ↔
      ∃ region ∈ w.memoryProtection.protectedRegions,
        region.refuses (scrubAddress layout i) 1 access = true := List.any_eq_true
  rw [← hrefused] at hiff
  cases hdenied : byteRefused layout w.scrub.regions i access with
  | true => exact hiff.mpr hdenied
  | false =>
    rw [hdenied] at hiff
    simpa using hiff

theorem scrubRead_spec (layout : Layout) (w : World) (i : Nat) :
    (scrubRead layout i w).1 = readsAs layout w.scrub i ∧
      (scrubRead layout i w).2.scrub = w.scrub ∧ (scrubRead layout i w).2.upsets = w.upsets := by
  have hscrub := memoryProtectionCheckAccess_scrub (scrubAddress layout i) 1 MEM_PERM_READ w
  have hupsets := memoryProtectionCheckAccess_upsets (scrubAddress layout i) 1 MEM_PERM_READ w
  have hbyte := memoryProtectionCheckAccess_byte layout w i
    (show MEM_PERM_READ ≠ MEM_PERM_NONE by decide)
  have harea := congrArg ScrubMemory.area hscrub
  unfold scrubRead readsAs
  dsimp only
  rw [hbyte]
  cases byteRefused layout w.scrub.regions i MEM_PERM_READ with
  | true => exact ⟨rfl, hscrub, hupsets⟩
  | false => exact ⟨congrFun harea i, hscrub, hupsets⟩

theorem scrubWrite_refused (w : World) (i : Nat) (value : BitVec 8)
    (hrefused : byteRefused layout w.scrub.regions i MEM_PERM_WRITE = true) :
    (scrubWrite layout i value w).1 = false ∧
      (scrubWrite layout i value w).2.scrub = w.scrub ∧
      (scrubWrite layout i value w).2.upsets = w.upsets := by
  have hbyte := memoryProtectionCheckAccess_byte layout w i
    (show MEM_PERM_WRITE ≠ MEM_PERM_NONE by decide)
  rw [hrefused, Bool.not_true] at hbyte
  unfold scrubWrite
  dsimp only
  rw [if_pos hbyte]
  exact ⟨rfl, memoryProtectionCheckAccess_scrub _ _ _ _, memoryProtectionCheckAccess_upsets _ _ _ _⟩

theorem scrubWrite_granted (w : World) (i : Nat) (value : BitVec 8)
    (hgranted : byteRefused layout w.scrub.regions i MEM_PERM_WRITE = false) :
    (scrubWrite layout i value w).1 = true ∧
      (scrubWrite layout i value w).2.scrub =
        { w.scrub with area := Function.update w.scrubArea i value } ∧
      (scrubWrite layout i value w).2.upsets = w.upsets := by
  have hscrub := memoryProtectionCheckAccess_scrub (scrubAddress layout i) 1 MEM_PERM_WRITE w
  have hupsets := memoryProtectionCheckAccess_upsets (scrubAddress layout i) 1 MEM_PERM_WRITE w
  have hbyte := memoryProtectionCheckAccess_byte layout w i
    (show MEM_PERM_WRITE ≠ MEM_PERM_NONE by decide)
  rw [hgranted] at hbyte
  unfold scrubWrite
  dsimp only
  rw [if_neg (by rw [hbyte]; decide)]
  refine ⟨rfl, ?_, hupsets⟩
  exact congrArg
    (fun memory => { memory with area := Function.update memory.area i value }) hscrub

end Access

section Operations

variable {layout}

-- What the end of a successful fix does: it prints, records and counts.
theorem eventLogRecordSeuCorrected_upsets (byteIndex : BitVec 32) (bit : BitVec 8) (w : World) :
    (memoryScrubRecordSeu (eventLogRecordSeuCorrected byteIndex bit w)).upsets =
      ⟨w.upsetCounts.record, w.seuEntries ++
        [⟨.SeuCorrected, byteIndex.setWidth 8, bit, BitVec.ofNat 32 w.xTickCount, 0⟩]⟩ := by
  have hticks : (xTaskGetTickCount w).setWidth 32 = BitVec.ofNat 32 w.xTickCount :=
    BitVec.setWidth_ofNat_of_le (by decide) _
  rw [memoryScrubRecordSeu_upsets]
  unfold eventLogRecordSeuCorrected World.seuEntries
  rw [eventLogStore_entriesOf, if_pos rfl, hticks]
  rfl

-- All that a targeted fix can do: correct the bit and count one upset, or leave
-- the area and the account as they were.
theorem memoryScrubFixEvent_of_repairs (event : FaultEvent) (w : World)
    (h : Repairs layout w.scrub event) :
    (memoryScrubFixEvent layout (some event) w).1 = true ∧
      (memoryScrubFixEvent layout (some event) w).2.scrub =
        { w.scrub with
            area := Function.update w.scrubArea event.index.toNat
              (fixedByte (readsAs layout w.scrub event.index.toNat)
                (goldenCopy event.index.toNat) event.bit.toNat) } ∧
      (memoryScrubFixEvent layout (some event) w).2.upsets =
        ⟨w.upsetCounts.record, w.seuEntries ++
          [⟨.SeuCorrected, event.index.setWidth 8, event.bit, BitVec.ofNat 32 w.xTickCount, 0⟩]⟩ := by
  obtain ⟨⟨hindex, hbit⟩, hgranted, hwrong⟩ := h
  obtain ⟨hread, hscrub, hupsets⟩ := scrubRead_spec layout w event.index.toNat
  have hmask := mt (masked_eq_iff (readsAs layout w.scrub event.index.toNat)
    (goldenCopy event.index.toNat) event.bit.toNat hbit).mp hwrong
  rw [← hscrub] at hgranted
  obtain ⟨hwritten, hscrub', hupsets'⟩ := scrubWrite_granted _ event.index.toNat
    (fixedByte (readsAs layout w.scrub event.index.toNat) (goldenCopy event.index.toNat)
      event.bit.toNat) hgranted
  rw [hupsets] at hupsets'
  unfold memoryScrubFixEvent
  dsimp only
  rw [if_neg (by omega), hread, if_neg hmask]
  unfold fixedByte at hwritten hscrub' hupsets' ⊢
  rw [if_neg (by rw [hwritten]; decide)]
  refine ⟨rfl, ?_, ?_⟩
  · have harea : World.scrubArea _ = w.scrubArea := congrArg ScrubMemory.area hscrub
    simp only [uartPuts_eq, uartPutHex_eq, eventLogRecordSeuCorrected, memoryScrubRecordSeu_scrub,
      eventLogStore_scrub, uartWrite_scrub]
    rw [hscrub', hscrub, harea]
  · have hcounts := congrArg UpsetAccount.counts hupsets'
    have hentries := congrArg UpsetAccount.entries hupsets'
    have hread_ticks : World.xTickCount _ = w.xTickCount := congrArg ScrubMemory.ticks hscrub
    have hticks : World.xTickCount _ = w.xTickCount :=
      (congrArg ScrubMemory.ticks hscrub').trans hread_ticks
    simp only [World.upsets] at hcounts hentries
    rw [eventLogRecordSeuCorrected_upsets]
    simp only [uartPuts_eq, uartPutHex_eq, uartWrite_uartWrite]
    rw [← hcounts, ← hentries, ← hticks]
    rfl

theorem memoryScrubFixEvent_of_not_repairs (event : FaultEvent) (w : World)
    (h : ¬Repairs layout w.scrub event) :
    (memoryScrubFixEvent layout (some event) w).1 = false ∧
      (memoryScrubFixEvent layout (some event) w).2.scrub = w.scrub ∧
      (memoryScrubFixEvent layout (some event) w).2.upsets = w.upsets := by
  unfold memoryScrubFixEvent
  dsimp only
  by_cases hinvalid : event.index.toNat ≥ SCRUB_SIZE ∨ event.bit.toNat ≥ 8
  · rw [if_pos hinvalid]
    exact ⟨rfl, rfl, rfl⟩
  · have hvalid : event.Valid := ⟨by omega, by omega⟩
    obtain ⟨hread, hscrub, hupsets⟩ := scrubRead_spec layout w event.index.toNat
    have hmask := masked_eq_iff (readsAs layout w.scrub event.index.toNat)
      (goldenCopy event.index.toNat) event.bit.toNat hvalid.2
    rw [if_neg hinvalid, hread]
    by_cases hright : (readsAs layout w.scrub event.index.toNat).getLsbD event.bit.toNat =
        (goldenCopy event.index.toNat).getLsbD event.bit.toNat
    · rw [if_pos (hmask.mpr hright)]
      simp only [uartPuts_eq, uartPutHex_eq, uartWrite_uartWrite, uartWrite_scrub,
        uartWrite_upsets]
      exact ⟨trivial, hscrub, hupsets⟩
    · have hrefused : byteRefused layout w.scrub.regions event.index.toNat MEM_PERM_WRITE = true := by
        by_contra hgranted
        exact h ⟨hvalid, by simpa using hgranted, hright⟩
      rw [← hscrub] at hrefused
      obtain ⟨hwritten, hscrub', hupsets'⟩ := scrubWrite_refused _ event.index.toNat
        (readsAs layout w.scrub event.index.toNat &&& ~~~(1#8 <<< event.bit.toNat) |||
          goldenCopy event.index.toNat &&& 1#8 <<< event.bit.toNat) hrefused
      rw [if_neg (mt hmask.mp hright), if_pos hwritten]
      simp only [uartPuts_eq, uartWrite_scrub, uartWrite_upsets]
      exact ⟨trivial, hscrub'.trans hscrub, hupsets'.trans hupsets⟩

theorem memoryScrubFixEvent_eq_true_iff (event : FaultEvent) (w : World) :
    (memoryScrubFixEvent layout (some event) w).1 = true ↔ Repairs layout w.scrub event := by
  by_cases h : Repairs layout w.scrub event
  · simp [(memoryScrubFixEvent_of_repairs event w h).1, h]
  · simp [(memoryScrubFixEvent_of_not_repairs event w h).1, h]

-- A round of the full scrub likewise.
theorem memoryScrubRound_of_rewrites (i : Nat) (acc : BitVec 32 × World)
    (h : Rewrites layout acc.2.scrub i) :
    (memoryScrubRound layout i acc).1 = acc.1 + 1 ∧
      (memoryScrubRound layout i acc).2.scrub =
        { acc.2.scrub with area := Function.update acc.2.scrubArea i (goldenCopy i) } ∧
      (memoryScrubRound layout i acc).2.upsets = ⟨acc.2.upsetCounts.record, acc.2.seuEntries⟩ := by
  obtain ⟨hgranted, hwrong⟩ := h
  obtain ⟨hread, hscrub, hupsets⟩ := scrubRead_spec layout acc.2 i
  rw [← hscrub] at hgranted
  obtain ⟨hwritten, hscrub', hupsets'⟩ := scrubWrite_granted _ i (goldenCopy i) hgranted
  rw [hupsets] at hupsets'
  have hcounts := congrArg UpsetAccount.counts hupsets'
  have hentries := congrArg UpsetAccount.entries hupsets'
  have harea : World.scrubArea _ = acc.2.scrubArea := congrArg ScrubMemory.area hscrub
  simp only [World.upsets] at hcounts hentries
  unfold memoryScrubRound
  dsimp only
  rw [hread, if_pos hwrong, if_pos hwritten]
  refine ⟨rfl, ?_, ?_⟩
  · rw [memoryScrubRecordSeu_scrub, hscrub', hscrub, harea]
  · rw [memoryScrubRecordSeu_upsets, hcounts, hentries]

theorem memoryScrubRound_of_not_rewrites (i : Nat) (acc : BitVec 32 × World)
    (h : ¬Rewrites layout acc.2.scrub i) :
    (memoryScrubRound layout i acc).1 = acc.1 ∧
      (memoryScrubRound layout i acc).2.scrub = acc.2.scrub ∧
      (memoryScrubRound layout i acc).2.upsets = acc.2.upsets := by
  obtain ⟨hread, hscrub, hupsets⟩ := scrubRead_spec layout acc.2 i
  unfold memoryScrubRound
  dsimp only
  rw [hread]
  by_cases hwrong : readsAs layout acc.2.scrub i ≠ goldenCopy i
  · have hrefused : byteRefused layout acc.2.scrub.regions i MEM_PERM_WRITE = true := by
      by_contra hgranted
      exact h ⟨by simpa using hgranted, hwrong⟩
    rw [← hscrub] at hrefused
    obtain ⟨hwritten, hscrub', hupsets'⟩ := scrubWrite_refused _ i (goldenCopy i) hrefused
    rw [if_pos hwrong, if_neg (by rw [hwritten]; decide)]
    exact ⟨rfl, hscrub'.trans hscrub, hupsets'.trans hupsets⟩
  · rw [if_neg hwrong]
    exact ⟨rfl, hscrub, hupsets⟩

-- The bytes that the full scrub rewrites among those it visits.
def rewritten (layout : Layout) (memory : ScrubMemory) (indices : List Nat) : List Nat :=
  indices.filter fun i => decide (Rewrites layout memory i)

-- A byte is judged by what it holds when it is visited, whatever was rewritten
-- before.
theorem rewrites_update (memory : ScrubMemory) (i j : Nat) (value : BitVec 8) (h : j ≠ i) :
    Rewrites layout { memory with area := Function.update memory.area i value } j ↔
      Rewrites layout memory j := by
  unfold Rewrites readsAs
  dsimp only
  rw [Function.update_of_ne h]

theorem rewritten_update (memory : ScrubMemory) (indices : List Nat) (i : Nat) (value : BitVec 8)
    (h : i ∉ indices) :
    rewritten layout { memory with area := Function.update memory.area i value } indices =
      rewritten layout memory indices := by
  apply List.filter_congr
  intro j hj
  have hne : j ≠ i := fun heq => h (heq ▸ hj)
  exact decide_eq_decide.mpr (rewrites_update memory i j value hne)

theorem rewritten_cons (memory : ScrubMemory) (i : Nat) (indices : List Nat) :
    rewritten layout memory (i :: indices) =
      if Rewrites layout memory i then i :: rewritten layout memory indices
      else rewritten layout memory indices := by
  unfold rewritten
  rw [List.filter_cons]
  simp only [decide_eq_true_eq]

theorem foldl_memoryScrubRound_spec (layout : Layout) (indices : List Nat)
    (acc : BitVec 32 × World) (hnodup : indices.Nodup) :
    (indices.foldl (fun acc i => memoryScrubRound layout i acc) acc).1 =
        acc.1 + BitVec.ofNat 32 (rewritten layout acc.2.scrub indices).length ∧
      (indices.foldl (fun acc i => memoryScrubRound layout i acc) acc).2.scrub =
        { acc.2.scrub with
            area := fun i =>
              if i ∈ rewritten layout acc.2.scrub indices then goldenCopy i else acc.2.scrubArea i } ∧
      (indices.foldl (fun acc i => memoryScrubRound layout i acc) acc).2.upsets =
        ⟨UpsetCounts.record^[(rewritten layout acc.2.scrub indices).length] acc.2.upsetCounts,
          acc.2.seuEntries⟩ := by
  induction indices generalizing acc with
  | nil =>
    refine ⟨?_, ?_, rfl⟩
    · simp [rewritten]
    · simp only [rewritten, List.filter_nil, List.not_mem_nil, if_false]
      rfl
  | cons i indices ih =>
    obtain ⟨hfresh, hnodup⟩ := List.nodup_cons.mp hnodup
    rw [List.foldl_cons]
    obtain ⟨herrors, hscrub, hupsets⟩ := ih (memoryScrubRound layout i acc) hnodup
    by_cases h : Rewrites layout acc.2.scrub i
    · obtain ⟨herrors', hscrub', hupsets'⟩ := memoryScrubRound_of_rewrites i acc h
      have hlist : rewritten layout (memoryScrubRound layout i acc).2.scrub indices =
          rewritten layout acc.2.scrub indices := by
        rw [hscrub']
        exact rewritten_update acc.2.scrub indices i _ hfresh
      have hcounts : World.upsetCounts _ = acc.2.upsetCounts.record :=
        congrArg UpsetAccount.counts hupsets'
      have hentries : World.seuEntries _ = acc.2.seuEntries :=
        congrArg UpsetAccount.entries hupsets'
      have harea : World.scrubArea _ = Function.update acc.2.scrubArea i (goldenCopy i) :=
        congrArg ScrubMemory.area hscrub'
      rw [hlist] at herrors hscrub hupsets
      rw [rewritten_cons, if_pos h, List.length_cons]
      refine ⟨?_, ?_, ?_⟩
      · rw [herrors, herrors', BitVec.ofNat_add, BitVec.add_assoc, BitVec.add_comm 1]
        rfl
      · rw [hscrub, hscrub', harea]
        simp only [golden_cons]
      · rw [hupsets, hcounts, hentries, Function.iterate_succ_apply]
    · obtain ⟨herrors', hscrub', hupsets'⟩ := memoryScrubRound_of_not_rewrites i acc h
      have hcounts : World.upsetCounts _ = acc.2.upsetCounts :=
        congrArg UpsetAccount.counts hupsets'
      have hentries : World.seuEntries _ = acc.2.seuEntries :=
        congrArg UpsetAccount.entries hupsets'
      have harea : World.scrubArea _ = acc.2.scrubArea := congrArg ScrubMemory.area hscrub'
      rw [hscrub'] at herrors hscrub hupsets
      rw [rewritten_cons, if_neg h]
      refine ⟨herrors'.symm ▸ herrors, ?_, ?_⟩
      · rw [hscrub, harea]
      · rw [hupsets, hcounts, hentries]

-- `errors_corrected` after the rounds of `memory_scrub` for some bytes.
def errorsCorrected (layout : Layout) (indices : List Nat) (w : World) : BitVec 32 :=
  (indices.foldl (fun acc i => memoryScrubRound layout i acc) (0, w)).1

-- Stated for any bytes, as unfolding it at the whole range would run the loop.
theorem errorsCorrected_eq (indices : List Nat) (w : World) :
    errorsCorrected layout indices w =
      (indices.foldl (fun acc i => memoryScrubRound layout i acc) (0, w)).1 := rfl

theorem errorsCorrected_toNat (indices : List Nat) (w : World) (hnodup : indices.Nodup)
    (hlength : indices.length < 2 ^ 32) :
    (errorsCorrected layout indices w).toNat = (rewritten layout w.scrub indices).length := by
  have hle : (rewritten layout w.scrub indices).length ≤ indices.length := List.length_filter_le _ _
  have hzero : ∀ errors : BitVec 32, 0 + errors = errors := fun errors => BitVec.zero_add errors
  rw [errorsCorrected_eq, (foldl_memoryScrubRound_spec layout indices (0, w) hnodup).1, hzero,
    BitVec.toNat_ofNat, Nat.mod_eq_of_lt (Nat.lt_of_le_of_lt hle hlength)]

theorem errorsCorrected_range (w : World) :
    (errorsCorrected layout (List.range SCRUB_SIZE) w).toNat =
      (rewritten layout w.scrub (List.range SCRUB_SIZE)).length := by
  have hlength : (List.range SCRUB_SIZE).length < 2 ^ 32 := by
    rw [List.length_range]
    decide
  exact errorsCorrected_toNat _ w List.nodup_range hlength

-- What a full scrub does to the area and to the account, and what it says at
-- its end.
theorem memoryScrub_spec (w : World) :
    (memoryScrub layout w).scrub =
        { w.scrub with
            area := fun i =>
              if i ∈ rewritten layout w.scrub (List.range SCRUB_SIZE) then goldenCopy i
              else w.scrubArea i } ∧
      (memoryScrub layout w).upsets =
        ⟨UpsetCounts.record^[(rewritten layout w.scrub (List.range SCRUB_SIZE)).length]
          w.upsetCounts, w.seuEntries⟩ ∧
      (memoryScrub layout w).uart.getLast? =
        some (if rewritten layout w.scrub (List.range SCRUB_SIZE) = [] then
          "Memory scrub completed - No errors\r\n"
        else
          "Memory scrub: SEU(s) detected and corrected\r\n") := by
  obtain ⟨-, hscrub, hupsets⟩ :=
    foldl_memoryScrubRound_spec layout (List.range SCRUB_SIZE) (0, w) List.nodup_range
  have herrors : errorsCorrected layout (List.range SCRUB_SIZE) w > 0 ↔
      ¬rewritten layout w.scrub (List.range SCRUB_SIZE) = [] := by
    rw [gt_iff_lt, BitVec.lt_def, errorsCorrected_range]
    exact List.length_pos_iff
  rw [errorsCorrected_eq] at herrors
  dsimp only at hscrub hupsets
  unfold memoryScrub
  dsimp only
  by_cases hnone : rewritten layout w.scrub (List.range SCRUB_SIZE) = []
  · rw [if_neg (fun h => herrors.mp h hnone), if_pos hnone]
    refine ⟨?_, ?_, ?_⟩
    · rw [uartPuts_eq, uartWrite_scrub, hscrub]
    · rw [uartPuts_eq, uartWrite_upsets, hupsets]
    · simp
  · rw [if_pos (herrors.mpr hnone), if_neg hnone]
    refine ⟨?_, ?_, ?_⟩
    · rw [uartPuts_eq, uartWrite_scrub, hscrub]
    · rw [uartPuts_eq, uartWrite_upsets, hupsets]
    · simp

theorem memoryScrub_upsetCounts (layout : Layout) (w : World) :
    (memoryScrub layout w).upsetCounts =
      UpsetCounts.record^[(rewritten layout w.scrub (List.range SCRUB_SIZE)).length]
        w.upsetCounts := by
  rw [← World.upsets_counts, (memoryScrub_spec w).2.1]

-- Whatever the table and the area, each success is one upset.
theorem memoryScrubFixEvent_upsetCounts (event : Option FaultEvent) (w : World) :
    (memoryScrubFixEvent layout event w).2.upsetCounts =
      UpsetCounts.record^[(memoryScrubFixEvent layout event w).1.toNat] w.upsetCounts := by
  cases event with
  | none => rfl
  | some event =>
    by_cases h : Repairs layout w.scrub event
    · obtain ⟨hresult, -, hupsets⟩ := memoryScrubFixEvent_of_repairs event w h
      rw [hresult]
      exact congrArg UpsetAccount.counts hupsets
    · obtain ⟨hresult, -, hupsets⟩ := memoryScrubFixEvent_of_not_repairs event w h
      rw [hresult]
      exact congrArg UpsetAccount.counts hupsets

theorem memoryScrubRound_upsetCounts (i : Nat) (w : World) :
    (memoryScrubRound layout i (0, w)).2.upsetCounts =
      UpsetCounts.record^[(memoryScrubRound layout i (0, w)).1.toNat] w.upsetCounts := by
  by_cases h : Rewrites layout w.scrub i
  · obtain ⟨hresult, -, hupsets⟩ := memoryScrubRound_of_rewrites i (0, w) h
    rw [hresult]
    exact congrArg UpsetAccount.counts hupsets
  · obtain ⟨hresult, -, hupsets⟩ := memoryScrubRound_of_not_rewrites i (0, w) h
    rw [hresult]
    exact congrArg UpsetAccount.counts hupsets

end Operations

end SpaceBaremetal
