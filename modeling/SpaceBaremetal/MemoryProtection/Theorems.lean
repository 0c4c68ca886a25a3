import Mathlib.Data.List.Induction
import Mathlib.Order.Interval.Set.Basic
import SpaceBaremetal.MemoryProtection

namespace SpaceBaremetal

-- What the software MPU is for, on exact addresses: an access is permitted if
-- every region it meets grants it.
section Policy

def MemoryRegion.addresses (region : MemoryRegion) : Set Nat :=
  Set.Ico region.start.toNat region.end_.toNat

-- The addresses of an access, up to the top of the address space.
def accessed (address size : BitVec 64) : Set Nat :=
  Set.Ico address.toNat (min (address.toNat + size.toNat) (2 ^ 64))

def MemoryRegion.Meets (region : MemoryRegion) (address size : BitVec 64) : Prop :=
  ∃ a ∈ accessed address size, a ∈ region.addresses

def MemoryRegion.Grants (region : MemoryRegion) (access : BitVec 32) : Prop :=
  region.permissions &&& access = access

instance (region : MemoryRegion) (access : BitVec 32) : Decidable (region.Grants access) :=
  inferInstanceAs (Decidable (_ = _))

def Permitted (regions : List MemoryRegion) (address size : BitVec 64) (access : BitVec 32) :
    Prop :=
  ∀ region ∈ regions, region.Meets address size → region.Grants access

theorem meets_iff (region : MemoryRegion) (address size : BitVec 64)
    (hregion : region.start < region.end_) (hsize : 0 < size) :
    region.Meets address size ↔
      address < region.end_ ∧ region.start.toNat < address.toNat + size.toNat := by
  have hend := region.end_.isLt
  simp only [BitVec.lt_def] at hregion hsize ⊢
  unfold MemoryRegion.Meets accessed MemoryRegion.addresses
  simp only [Set.mem_Ico]
  constructor
  · rintro ⟨a, ha, hmem⟩
    omega
  · intro hlt
    -- the later of the two first addresses lies in both
    refine ⟨max address.toNat region.start.toNat, ?_, ?_⟩ <;> omega

theorem meets_one_iff (region : MemoryRegion) (address : BitVec 64) :
    region.Meets address 1 ↔ address.toNat ∈ region.addresses := by
  have haddress := address.isLt
  have hone : (1 : BitVec 64).toNat = 1 := rfl
  unfold MemoryRegion.Meets accessed MemoryRegion.addresses
  simp only [Set.mem_Ico, hone]
  constructor
  · rintro ⟨a, ha, hmem⟩
    omega
  · intro hmem
    exact ⟨address.toNat, by omega, hmem⟩

end Policy

section Check

-- The region at which the loop of the check stops, as it computes it.
def MemoryRegion.refuses (address size : BitVec 64) (access : BitVec 32) (region : MemoryRegion) :
    Bool :=
  regionOverlaps region address size && decide (region.permissions &&& access ≠ access)

-- The loop denies at the first region that refuses the access, and passes if
-- none does.
theorem checkRegions_eq (address size : BitVec 64) (access : BitVec 32)
    (regions : List MemoryRegion) (w : World) :
    checkRegions address size access regions w =
      (regions.find? (MemoryRegion.refuses address size access)).elim (true, w)
        fun region => (false, reportViolation address size (accessTypeName access) region w) := by
  induction regions with
  | nil => rfl
  | cons region rest ih =>
    unfold checkRegions
    by_cases hoverlap : regionOverlaps region address size = false
    · have hpass : ¬region.refuses address size access = true := by
        simp [MemoryRegion.refuses, hoverlap]
      rw [if_pos hoverlap, List.find?_cons_of_neg hpass, ih]
    · by_cases hgrants : region.permissions &&& access = access
      · have hpass : ¬region.refuses address size access = true := by
          simp [MemoryRegion.refuses, hgrants]
        rw [if_neg hoverlap, if_neg (not_not_intro hgrants), List.find?_cons_of_neg hpass, ih]
      · have hstop : region.refuses address size access = true := by
          simp [MemoryRegion.refuses, hgrants, hoverlap]
        rw [if_neg hoverlap, if_pos hgrants, List.find?_cons_of_pos hstop]
        rfl

theorem systemStateRequestChange_memoryProtection (state : SystemState) (reason : BitVec 32)
    (w : World) :
    (systemStateRequestChange state reason w).2.memoryProtection = w.memoryProtection := by
  unfold systemStateRequestChange
  cases w.xStateRequestQueue <;> rfl

theorem recordViolation_memoryProtection (w : World) :
    (recordViolation w).memoryProtection =
      { w.memoryProtection with violationCount := w.memoryProtection.violationCount + 1 } := by
  unfold recordViolation eventLogRecordMemProtThreshold
  dsimp only
  split_ifs
  · rw [systemStateRequestChange_memoryProtection]
    rfl
  · rw [systemStateRequestChange_memoryProtection]
  · rfl
  · rfl

theorem reportViolation_memoryProtection (address size : BitVec 64) (accessType : String)
    (region : MemoryRegion) (w : World) :
    (reportViolation address size accessType region w).memoryProtection =
      { w.memoryProtection with violationCount := w.memoryProtection.violationCount + 1 } := by
  unfold reportViolation
  rw [recordViolation_memoryProtection]
  simp

variable {address size : BitVec 64} {access : BitVec 32} {w : World}

-- Everything a call can do: pass and change nothing, or report one violation
-- against a region of the table that refuses the access.
theorem memoryProtectionCheckAccess_cases (address size : BitVec 64) (w : World)
    (hnone : access ≠ MEM_PERM_NONE) :
    (memoryProtectionCheckAccess address size access w = (true, w) ∧
        ∀ region ∈ w.memoryProtection.protectedRegions,
          region.refuses address size access = false) ∨
      ∃ region ∈ w.memoryProtection.protectedRegions, region.refuses address size access = true ∧
        memoryProtectionCheckAccess address size access w =
          (false, reportViolation address size (accessTypeName access) region w) := by
  unfold memoryProtectionCheckAccess
  rw [if_neg hnone, checkRegions_eq]
  cases hfind : w.memoryProtection.protectedRegions.find?
    (MemoryRegion.refuses address size access) with
  | none =>
    refine .inl ⟨rfl, fun region hregion => ?_⟩
    simpa using List.find?_eq_none.mp hfind region hregion
  | some region =>
    exact .inr ⟨region, List.mem_of_find?_eq_some hfind, List.find?_some hfind, rfl⟩

theorem memoryProtectionCheckAccess_denied_iff (hnone : access ≠ MEM_PERM_NONE) :
    (memoryProtectionCheckAccess address size access w).1 = false ↔
      ∃ region ∈ w.memoryProtection.protectedRegions,
        region.refuses address size access = true := by
  obtain ⟨hpass, hnot⟩ | ⟨region, hregion, hrefuses, hdenied⟩ :=
    memoryProtectionCheckAccess_cases address size w hnone
  · rw [hpass]
    constructor
    · intro h
      cases h
    · rintro ⟨region, hregion, hrefuses⟩
      rw [hnot region hregion] at hrefuses
      cases hrefuses
  · rw [hdenied]
    exact ⟨fun _ => ⟨region, hregion, hrefuses⟩, fun _ => rfl⟩

-- An access that every region it overlaps grants is not even noticed.
theorem memoryProtectionCheckAccess_granted (w : World) (hnone : access ≠ MEM_PERM_NONE)
    (hgranted : ∀ region ∈ w.memoryProtection.protectedRegions,
      regionOverlaps region address size = true → region.permissions &&& access = access) :
    memoryProtectionCheckAccess address size access w = (true, w) := by
  obtain ⟨hpass, -⟩ | ⟨region, hregion, hrefuses, -⟩ :=
    memoryProtectionCheckAccess_cases address size w hnone
  · exact hpass
  · simp only [MemoryRegion.refuses, Bool.and_eq_true, decide_eq_true_eq] at hrefuses
    exact absurd (hgranted region hregion hrefuses.1) hrefuses.2

end Check

-- What a report of a violation leaves alone.
section Frame

variable {γ : Type} {view : World → γ}

-- A view of the world that holds nothing of what a report touches: the console,
-- the recorder, the count of violations and the state requests.
structure Unreported (view : World → γ) : Prop where
  uart : ∀ text w, view (uartWrite text w) = view w
  eventLog : ∀ log w, view { w with eventLog := log } = view w
  violations : ∀ count w,
    view { w with
      memoryProtection := { w.memoryProtection with violationCount := count } } = view w
  requests : ∀ queue requests w,
    view { w with xStateRequestQueue := queue, stateRequests := requests } = view w

namespace Unreported

theorem systemStateRequestChange (h : Unreported view) (state : SystemState) (reason : BitVec 32)
    (w : World) : view (systemStateRequestChange state reason w).2 = view w := by
  unfold SpaceBaremetal.systemStateRequestChange
  cases w.xStateRequestQueue with
  | none => exact h.requests _ _ w
  | some queue => exact h.requests _ _ w

theorem recordViolation (h : Unreported view) (w : World) : view (recordViolation w) = view w := by
  let count := w.memoryProtection.violationCount + 1
  let counted : World :=
    { w with memoryProtection := { w.memoryProtection with violationCount := count } }
  have hcounted : view counted = view w := h.violations count w
  unfold SpaceBaremetal.recordViolation
  dsimp only
  split_ifs
  · rw [h.systemStateRequestChange]
    exact (h.eventLog _ counted).trans hcounted
  · rw [h.systemStateRequestChange]
    exact hcounted
  · exact (h.eventLog _ counted).trans hcounted
  · exact hcounted

theorem reportViolation (h : Unreported view) (address size : BitVec 64) (accessType : String)
    (region : MemoryRegion) (w : World) :
    view (reportViolation address size accessType region w) = view w := by
  unfold SpaceBaremetal.reportViolation
  rw [h.recordViolation]
  simp only [uartPuts_eq, uartPutHex_eq, uartPutDec_eq, uartWrite_uartWrite]
  exact h.uart _ w

theorem memoryProtectionCheckAccess (h : Unreported view) (address size : BitVec 64)
    (access : BitVec 32) (w : World) :
    view (memoryProtectionCheckAccess address size access w).2 = view w := by
  by_cases hnone : access = MEM_PERM_NONE
  · rw [SpaceBaremetal.memoryProtectionCheckAccess, if_pos hnone]
  · obtain ⟨hpass, -⟩ | ⟨region, -, -, hdenied⟩ :=
      memoryProtectionCheckAccess_cases address size w hnone
    · rw [hpass]
    · rw [hdenied]
      exact h.reportViolation _ _ _ _ w

end Unreported

theorem protectedRegions_unreported :
    Unreported fun w => w.memoryProtection.protectedRegions where
  uart := fun _ _ => rfl
  eventLog := fun _ _ => rfl
  violations := fun _ _ => rfl
  requests := fun _ _ _ => rfl

end Frame

section Exact

-- What a call of the check with a region table, an address, a size and an
-- access mask ought to do.
structure CheckedExactly (address size : BitVec 64) (access : BitVec 32) (w : World) : Prop where
  decision : (memoryProtectionCheckAccess address size access w).1 = true ↔
    Permitted w.memoryProtection.protectedRegions address size access
  denied : (memoryProtectionCheckAccess address size access w).1 = false →
    (memoryProtectionCheckAccess address size access w).2.memoryProtection.violationCount =
      w.memoryProtection.violationCount + 1
  allowed : (memoryProtectionCheckAccess address size access w).1 = true →
    (memoryProtectionCheckAccess address size access w).2 = w

-- The end of the access fits in an address, or it does not matter that it
-- wraps: a region that lacks the permission and ends above the access starts
-- below the wrapped end too, or none lies there at all.
def WrapHarmless (regions : List MemoryRegion) (address size : BitVec 64) (access : BitVec 32) :
    Prop :=
  address.toNat + size.toNat < 2 ^ 64 ∨
    ((∃ region ∈ regions, ¬region.Grants access ∧ address < region.end_) →
      ∃ region ∈ regions, ¬region.Grants access ∧ address < region.end_ ∧
        region.start < address + size)

variable {address size : BitVec 64} {access : BitVec 32}

theorem refuses_iff (region : MemoryRegion) :
    region.refuses address size access = true ↔
      ¬region.Grants access ∧ address < region.end_ ∧ region.start < address + size := by
  unfold MemoryRegion.refuses regionOverlaps MemoryRegion.Grants
  simp only [Bool.and_eq_true, decide_eq_true_eq]
  exact and_comm

theorem toNat_end_of_lt (hfits : address.toNat + size.toNat < 2 ^ 64) :
    (address + size).toNat = address.toNat + size.toNat := by
  rw [BitVec.toNat_add, Nat.mod_eq_of_lt hfits]

-- An access that reaches the top of the address space meets every region that
-- ends above its first address.
theorem meets_iff_of_wrap (region : MemoryRegion) (hregion : region.start < region.end_)
    (hsize : 0 < size) (hwrap : 2 ^ 64 ≤ address.toNat + size.toNat) :
    region.Meets address size ↔ address < region.end_ := by
  have hstart := region.start.isLt
  rw [meets_iff region address size hregion hsize]
  constructor
  · exact fun h => h.1
  · exact fun h => ⟨h, by omega⟩

theorem not_permitted_iff (regions : List MemoryRegion) :
    ¬Permitted regions address size access ↔
      ∃ region ∈ regions, ¬region.Grants access ∧ region.Meets address size := by
  simp only [Permitted, not_forall, exists_prop]
  exact exists_congr fun region => and_congr_right fun _ => and_comm

-- The decision goes wrong only at the top of the address space, where the end
-- of the access wraps around and no region that ought to refuse is met.
theorem refused_iff_not_permitted_iff (regions : List MemoryRegion)
    (hregions : ∀ region ∈ regions, region.start < region.end_) (hsize : 0 < size) :
    ((∃ region ∈ regions, region.refuses address size access = true) ↔
        ¬Permitted regions address size access) ↔
      WrapHarmless regions address size access := by
  rw [not_permitted_iff]
  simp only [refuses_iff]
  by_cases hfits : address.toNat + size.toNat < 2 ^ 64
  · have hmeets : ∀ region ∈ regions, (¬region.Grants access ∧ address < region.end_ ∧
        region.start < address + size ↔ ¬region.Grants access ∧ region.Meets address size) := by
      intro region hregion
      rw [meets_iff region address size (hregions region hregion) hsize,
        BitVec.lt_def (x := region.start), toNat_end_of_lt hfits]
    constructor
    · exact fun _ => .inl hfits
    · exact fun _ => exists_congr fun region => and_congr_right (hmeets region)
  · have hmeets : ∀ region ∈ regions, (¬region.Grants access ∧ region.Meets address size ↔
        ¬region.Grants access ∧ address < region.end_) := by
      intro region hregion
      rw [meets_iff_of_wrap region (hregions region hregion) hsize (by omega)]
    have hought : (∃ region ∈ regions, ¬region.Grants access ∧ region.Meets address size) ↔
        ∃ region ∈ regions, ¬region.Grants access ∧ address < region.end_ :=
      exists_congr fun region => and_congr_right (hmeets region)
    rw [hought]
    unfold WrapHarmless
    constructor
    · exact fun h => .inr h.mpr
    · rintro (h | h)
      · exact absurd h hfits
      · exact ⟨fun ⟨region, hregion, hlacks, habove, _⟩ => ⟨region, hregion, hlacks, habove⟩, h⟩

theorem check_access_exact_iff (address size : BitVec 64) (access : BitVec 32) (w : World)
    (hregions : ∀ region ∈ w.memoryProtection.protectedRegions, region.start < region.end_)
    (hsize : 0 < size) (hnone : access ≠ MEM_PERM_NONE) :
    CheckedExactly address size access w ↔
      WrapHarmless w.memoryProtection.protectedRegions address size access := by
  rw [← refused_iff_not_permitted_iff _ hregions hsize,
    ← memoryProtectionCheckAccess_denied_iff hnone]
  constructor
  · intro h
    rw [← h.decision, Bool.not_eq_true]
  · intro h
    have hcases := memoryProtectionCheckAccess_cases address size w hnone
    refine ⟨?_, ?_, ?_⟩
    · rw [← not_iff_not, Bool.not_eq_true]
      exact h
    · intro hdenied
      obtain ⟨hpass, -⟩ | ⟨region, -, -, hreport⟩ := hcases
      · rw [hpass] at hdenied
        cases hdenied
      · rw [hreport, reportViolation_memoryProtection]
    · intro hallowed
      obtain ⟨hpass, -⟩ | ⟨region, -, -, hreport⟩ := hcases
      · rw [hpass]
      · rw [hreport] at hallowed
        cases hallowed

-- A region that a test locks, and a write across its lower bound.
theorem check_access_exact_iff_partial :
    CheckedExactly 0x1002 4 MEM_PERM_WRITE
      (memoryProtectionAddRegion ⟨0x1004, 0x100C, MEM_PERM_READ, "Partial"⟩
        (memoryProtectionInit startupWorld)) := by
  refine (check_access_exact_iff _ _ _ _ ?_ (by decide) (by decide)).mpr (.inl (by decide))
  decide

-- A write of the last 128 bytes of the address space passes a region there
-- that may only be read.
theorem check_access_misses_top :
    ¬CheckedExactly 0xFFFFFFFFFFFFFF80 0x80 MEM_PERM_WRITE
      (memoryProtectionAddRegion ⟨0xFFFFFFFFFFFFFF00, 0xFFFFFFFFFFFFFFF0, MEM_PERM_READ, "Top"⟩
        (memoryProtectionInit startupWorld)) := by
  intro h
  have hmeets : MemoryRegion.Meets ⟨0xFFFFFFFFFFFFFF00, 0xFFFFFFFFFFFFFFF0, MEM_PERM_READ, "Top"⟩
      0xFFFFFFFFFFFFFF80 0x80 := (meets_iff _ _ _ (by decide) (by decide)).mpr (by decide)
  have hgrants := h.decision.mp (by decide) _ (by decide) hmeets
  revert hgrants
  decide

end Exact

section Locked

-- The calls that use the table once it is initialised.
inductive ProtectionCall
  | ProtectRegion (region : MemoryRegion)
  | CheckAccess (address size : BitVec 64) (access : BitVec 32)

def ProtectionCall.run : ProtectionCall → World → World
  | .ProtectRegion region, w => memoryProtectionProtectRegion region w
  | .CheckAccess address size access, w => (memoryProtectionCheckAccess address size access w).2

def protectionRun (calls : List ProtectionCall) (w : World) : World :=
  calls.foldl (fun w call => call.run w) (memoryProtectionInit w)

def ProtectionCall.region? : ProtectionCall → Option MemoryRegion
  | .ProtectRegion region => some region
  | .CheckAccess .. => none

-- The regions that were announced as locked, in order.
def lockedRegions (calls : List ProtectionCall) : List MemoryRegion :=
  calls.filterMap ProtectionCall.region?

def lockedText (name : String) : List String :=
  ["Memory Protection: locked ", name, "\r\n"]

-- The announcement is made whether or not there was room for the region.
theorem memoryProtectionProtectRegion_announces (region : MemoryRegion) (w : World) :
    lockedText region.name <:+ (memoryProtectionProtectRegion region w).uart := by
  refine ⟨(memoryProtectionAddRegion region w).uart, ?_⟩
  simp [memoryProtectionProtectRegion, lockedText]

-- The table takes the first regions that come.
theorem memoryProtectionProtectRegion_regions {w : World} {regions : List MemoryRegion}
    (region : MemoryRegion)
    (h : w.memoryProtection.protectedRegions = regions.take MAX_PROTECTED_REGIONS) :
    (memoryProtectionProtectRegion region w).memoryProtection.protectedRegions =
      (regions ++ [region]).take MAX_PROTECTED_REGIONS := by
  unfold memoryProtectionProtectRegion memoryProtectionAddRegion
  simp only [uartPuts_eq, uartWrite_uartWrite, uartWrite_memoryProtection]
  have hlength : w.memoryProtection.protectedRegions.length =
      min MAX_PROTECTED_REGIONS regions.length := by rw [h, List.length_take]
  split_ifs with hroom
  · have hregions : regions.length < MAX_PROTECTED_REGIONS := by omega
    simp only [h, List.take_append]
    rw [List.take_of_length_le (by omega), List.take_of_length_le]
    simp only [List.length_singleton]
    omega
  · rw [uartWrite_memoryProtection, h, List.take_append_of_le_length (by omega)]

theorem protectionRun_regions (calls : List ProtectionCall) (w : World) :
    (protectionRun calls w).memoryProtection.protectedRegions =
      (lockedRegions calls).take MAX_PROTECTED_REGIONS := by
  unfold protectionRun lockedRegions
  induction calls using List.reverseRecOn with
  | nil => rfl
  | append_singleton calls call ih =>
    rw [List.foldl_append, List.filterMap_append]
    cases call with
    | ProtectRegion region => exact memoryProtectionProtectRegion_regions region ih
    | CheckAccess address size access =>
      have hregion : [ProtectionCall.CheckAccess address size access].filterMap
          ProtectionCall.region? = [] := rfl
      rw [hregion, List.append_nil, ← ih]
      exact protectedRegions_unreported.memoryProtectionCheckAccess _ _ _ _

-- A one-byte access never wraps into a region it does not meet.
theorem check_one_denied_iff (address : BitVec 64) (access : BitVec 32) (w : World)
    (hregions : ∀ region ∈ w.memoryProtection.protectedRegions, region.start < region.end_)
    (hnone : access ≠ MEM_PERM_NONE) (hbelow : address.toNat + 1 < 2 ^ 64) :
    (memoryProtectionCheckAccess address 1 access w).1 = false ↔
      ∃ region ∈ w.memoryProtection.protectedRegions,
        ¬region.Grants access ∧ address.toNat ∈ region.addresses := by
  have hfits : WrapHarmless w.memoryProtection.protectedRegions address 1 access := .inl hbelow
  rw [memoryProtectionCheckAccess_denied_iff hnone,
    (refused_iff_not_permitted_iff _ hregions (by decide)).mpr hfits, not_permitted_iff]
  simp only [meets_one_iff]

-- An announced region is enforced at an address for as long as the table had
-- room for it; without room the address is protected only by what came before.
theorem locked_region_enforced_iff (before after : List ProtectionCall) (region : MemoryRegion)
    (address : BitVec 64) (access : BitVec 32) (w : World)
    (hranges : ∀ other ∈ lockedRegions (before ++ .ProtectRegion region :: after),
      other.start < other.end_)
    (hinside : address.toNat ∈ region.addresses) (hlacks : ¬region.Grants access) :
    lockedText region.name <:+ (protectionRun (before ++ [.ProtectRegion region]) w).uart ∧
      ((memoryProtectionCheckAccess address 1 access
          (protectionRun (before ++ .ProtectRegion region :: after) w)).1 = false ↔
        (lockedRegions before).length < MAX_PROTECTED_REGIONS ∨
          ∃ earlier ∈ (lockedRegions before).take MAX_PROTECTED_REGIONS,
            ¬earlier.Grants access ∧ address.toNat ∈ earlier.addresses) := by
  have hnone : access ≠ MEM_PERM_NONE := by
    rintro rfl
    exact hlacks (BitVec.and_zero)
  have hbelow : address.toNat + 1 < 2 ^ 64 := by
    have hend := region.end_.isLt
    obtain ⟨-, hlt⟩ := hinside
    omega
  have hsplit : lockedRegions (before ++ .ProtectRegion region :: after) =
      lockedRegions before ++ region :: lockedRegions after := by
    simp [lockedRegions, ProtectionCall.region?]
  constructor
  · unfold protectionRun
    rw [List.foldl_append]
    exact memoryProtectionProtectRegion_announces region _
  · rw [check_one_denied_iff address access _ ?_ hnone hbelow, protectionRun_regions, hsplit]
    · by_cases hroom : (lockedRegions before).length < MAX_PROTECTED_REGIONS
      · refine ⟨fun _ => .inl hroom, fun _ => ⟨region, ?_, hlacks, hinside⟩⟩
        rw [List.take_append, List.take_of_length_le (by omega)]
        obtain ⟨room, hsucc⟩ : ∃ room, MAX_PROTECTED_REGIONS - (lockedRegions before).length =
            room + 1 := ⟨_, (Nat.succ_pred_eq_of_pos (by omega)).symm⟩
        simp [hsucc]
      · rw [List.take_append_of_le_length (by omega)]
        simp [hroom]
    · intro other hother
      rw [protectionRun_regions] at hother
      exact hranges other (List.mem_of_mem_take hother)

theorem locked_region_enforced_iff_first :
    lockedText "TestReadOnly" <:+
        (protectionRun [.ProtectRegion ⟨0x1000, 0x1010, MEM_PERM_READ, "TestReadOnly"⟩]
          startupWorld).uart ∧
      (memoryProtectionCheckAccess 0x1000 1 MEM_PERM_WRITE
        (protectionRun [.ProtectRegion ⟨0x1000, 0x1010, MEM_PERM_READ, "TestReadOnly"⟩]
          startupWorld)).1 = false := by
  have h := locked_region_enforced_iff [] [] ⟨0x1000, 0x1010, MEM_PERM_READ, "TestReadOnly"⟩
    0x1000 MEM_PERM_WRITE startupWorld (by decide) ⟨by decide, by decide⟩ (by decide)
  exact ⟨h.1, h.2.mpr (.inl (by decide))⟩

-- The calls of the test that fills the table and then locks one more region.
def tableFullCalls : List ProtectionCall :=
  (List.range 8).map (fun i =>
    .ProtectRegion
      ⟨0x1000 + BitVec.ofNat 64 i * 0x100, 0x1010 + BitVec.ofNat 64 i * 0x100, MEM_PERM_READ,
        "Region"⟩)

theorem ninth_locked_region_not_enforced :
    lockedText "Overflow" <:+
        (protectionRun
          (tableFullCalls ++ [.ProtectRegion ⟨0x9000, 0x9010, MEM_PERM_READ, "Overflow"⟩])
          startupWorld).uart ∧
      (memoryProtectionCheckAccess 0x9000 1 MEM_PERM_WRITE
        (protectionRun
          (tableFullCalls ++ [.ProtectRegion ⟨0x9000, 0x9010, MEM_PERM_READ, "Overflow"⟩])
          startupWorld)).1 = true := by
  refine ⟨?_, by decide⟩
  unfold protectionRun
  rw [List.foldl_append]
  exact memoryProtectionProtectRegion_announces ⟨0x9000, 0x9010, MEM_PERM_READ, "Overflow"⟩ _

end Locked

end SpaceBaremetal
