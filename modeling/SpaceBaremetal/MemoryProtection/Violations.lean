import SpaceBaremetal.EventLog.Theorems
import SpaceBaremetal.Lib.History
import SpaceBaremetal.MemoryProtection.Theorems
import SpaceBaremetal.SystemState.Requests

namespace SpaceBaremetal

def MPU_REQUEST : StateRequest := ⟨.Degraded, 0x04⟩

-- What reporting a violation writes, besides the console.
structure ViolationCounts where
  violations : BitVec 32
  thresholds : Nat
  requests : Nat
deriving DecidableEq

@[simps] def World.violationCounts (w : World) : ViolationCounts where
  violations := w.memoryProtection.violationCount
  thresholds := (w.entriesOf .MemProtThreshold).length
  requests := w.attempts MPU_REQUEST

def ViolationCounts.record (counts : ViolationCounts) : ViolationCounts where
  violations := counts.violations + 1
  thresholds :=
    counts.thresholds + if counts.violations + 1 = MEM_PROT_VIOLATION_THRESHOLD then 1 else 0
  requests :=
    counts.requests + if counts.violations + 1 ≥ MEM_PROT_VIOLATION_THRESHOLD then 1 else 0

section Report

theorem memProtThreshold_counts (count : BitVec 32) (w : World) :
    (eventLogRecordMemProtThreshold count w).violationCounts =
      { w.violationCounts with thresholds := w.violationCounts.thresholds + 1 } := by
  have hentries := eventLogStore_entriesOf .MemProtThreshold .MemProtThreshold 0 0 count w
  rw [if_pos rfl] at hentries
  have hlength := congrArg List.length hentries
  rw [List.length_append, List.length_singleton] at hlength
  exact congrArg (fun thresholds => { w.violationCounts with thresholds := thresholds }) hlength

theorem mpuRequest_counts (w : World) :
    (systemStateRequestChange .Degraded 0x04 w).2.violationCounts =
      { w.violationCounts with requests := w.violationCounts.requests + 1 } := by
  have hattempts := systemStateRequestChange_attempts MPU_REQUEST .Degraded 0x04 w
  rw [if_pos (show MPU_REQUEST = ⟨.Degraded, 0x04⟩ from rfl)] at hattempts
  unfold World.violationCounts
  rw [hattempts, systemStateRequestChange_entriesOf, systemStateRequestChange_memoryProtection]

theorem recordViolation_counts (w : World) :
    (recordViolation w).violationCounts = w.violationCounts.record := by
  have hviolations : w.violationCounts.violations = w.memoryProtection.violationCount := rfl
  unfold recordViolation ViolationCounts.record
  dsimp only
  rw [hviolations]
  split_ifs
  · rw [mpuRequest_counts, memProtThreshold_counts]
    rfl
  · rw [mpuRequest_counts]
    rfl
  · rw [memProtThreshold_counts]
    rfl
  · rfl

theorem reportViolation_counts (address size : BitVec 64) (accessType : String)
    (region : MemoryRegion) (w : World) :
    (reportViolation address size accessType region w).violationCounts =
      w.violationCounts.record := by
  unfold reportViolation
  rw [recordViolation_counts]
  simp only [uartPuts_eq, uartPutHex_eq, uartPutDec_eq, uartWrite_uartWrite]
  rfl

theorem memoryProtectionProtectRegion_counts (region : MemoryRegion) (w : World) :
    (memoryProtectionProtectRegion region w).violationCounts = w.violationCounts := by
  unfold memoryProtectionProtectRegion memoryProtectionAddRegion
  split_ifs <;> rfl

end Report

section Runs

-- The result of a call; only a check can deny.
def ProtectionCall.allowed (w : World) : ProtectionCall → Bool
  | .ProtectRegion _ => true
  | .CheckAccess address size access => (memoryProtectionCheckAccess address size access w).1

-- The calls that were denied since the initialisation.
def denials (w : World) (calls : List ProtectionCall) : Nat :=
  (calls.foldl (fun acc call => (acc.1 + (!call.allowed acc.2).toNat, call.run acc.2))
    (0, memoryProtectionInit w)).1

-- What the next call ought to do: the third denial enters MPU_THRESHOLD, it and
-- every later one ask for DEGRADED, and no other call does either.
structure AccountsDenial (w : World) (done : List ProtectionCall) (call : ProtectionCall) :
    Prop where
  recorded : ((call.run (protectionRun done w)).entriesOf .MemProtThreshold).length =
    ((protectionRun done w).entriesOf .MemProtThreshold).length +
      if call.allowed (protectionRun done w) = false ∧ denials w done + 1 = 3 then 1 else 0
  requested : (call.run (protectionRun done w)).attempts MPU_REQUEST =
    (protectionRun done w).attempts MPU_REQUEST +
      if call.allowed (protectionRun done w) = false ∧ 3 ≤ denials w done + 1 then 1 else 0

-- The same from the calls alone: a check is refused if some region of the table
-- refuses it.
def ProtectionCall.refused (regions : List MemoryRegion) : ProtectionCall → Bool
  | .ProtectRegion _ => false
  | .CheckAccess address size access =>
      decide (access ≠ MEM_PERM_NONE) && regions.any (MemoryRegion.refuses address size access)

def refusals (locked : List MemoryRegion) : List ProtectionCall → Nat
  | [] => 0
  | call :: calls =>
      (call.refused (locked.take MAX_PROTECTED_REGIONS)).toNat +
        refusals (locked ++ call.region?.toList) calls

variable {w : World}

theorem protectionRun_append (calls : List ProtectionCall) (call : ProtectionCall) (w : World) :
    protectionRun (calls ++ [call]) w = call.run (protectionRun calls w) := by
  unfold protectionRun
  rw [List.foldl_append]
  rfl

theorem denials_append (w : World) (calls : List ProtectionCall) (call : ProtectionCall) :
    denials w (calls ++ [call]) =
      denials w calls + (!call.allowed (protectionRun calls w)).toNat := by
  have hworld : ∀ (calls : List ProtectionCall) (acc : Nat × World),
      (calls.foldl (fun acc call => (acc.1 + (!call.allowed acc.2).toNat, call.run acc.2)) acc).2 =
        calls.foldl (fun w call => call.run w) acc.2 := by
    intro calls
    induction calls with
    | nil => exact fun _ => rfl
    | cons call calls ih => exact fun acc => ih _
  unfold denials protectionRun
  rw [List.foldl_append, ← hworld calls (0, memoryProtectionInit w)]
  rfl

-- A denied call records one violation, and no other call does anything to the
-- counts.
theorem ProtectionCall.run_counts (call : ProtectionCall) (w : World) :
    (call.run w).violationCounts =
      if call.allowed w = false then w.violationCounts.record else w.violationCounts := by
  cases call with
  | ProtectRegion region =>
    rw [if_neg (by simp [ProtectionCall.allowed])]
    exact memoryProtectionProtectRegion_counts region w
  | CheckAccess address size access =>
    change (memoryProtectionCheckAccess address size access w).2.violationCounts =
      if (memoryProtectionCheckAccess address size access w).1 = false then _ else _
    by_cases hnone : access = MEM_PERM_NONE
    · have hpass : memoryProtectionCheckAccess address size access w = (true, w) := if_pos hnone
      rw [hpass]
      exact (if_neg nofun).symm
    · obtain ⟨hpass, -⟩ | ⟨region, -, -, hdenied⟩ :=
        memoryProtectionCheckAccess_cases address size w hnone
      · rw [hpass]
        exact (if_neg nofun).symm
      · rw [hdenied, if_pos rfl]
        exact reportViolation_counts _ _ _ region w

theorem protectionRun_violations (w : World) (calls : List ProtectionCall) :
    (protectionRun calls w).violationCounts.violations = BitVec.ofNat 32 (denials w calls) := by
  induction calls using List.reverseRecOn with
  | nil => rfl
  | append_singleton calls call ih =>
    rw [protectionRun_append, denials_append, call.run_counts]
    cases hallowed : call.allowed (protectionRun calls w) with
    | true => simpa using ih
    | false =>
      rw [if_pos rfl, BitVec.ofNat_add, ← ih]
      rfl

theorem ProtectionCall.allowed_eq (call : ProtectionCall) (w : World) :
    call.allowed w = !call.refused w.memoryProtection.protectedRegions := by
  cases call with
  | ProtectRegion region => rfl
  | CheckAccess address size access =>
    unfold ProtectionCall.allowed ProtectionCall.refused
    dsimp only
    by_cases hnone : access = MEM_PERM_NONE
    · have hpass : memoryProtectionCheckAccess address size access w = (true, w) := if_pos hnone
      rw [hpass, hnone]
      rfl
    · have hiff := @memoryProtectionCheckAccess_denied_iff address size _ w hnone
      rw [← List.any_eq_true] at hiff
      cases hany : w.memoryProtection.protectedRegions.any
        (MemoryRegion.refuses address size access) with
      | true => simp [hiff.mpr hany, hnone]
      | false =>
        rw [hany] at hiff
        simpa using hiff

theorem refusals_append (locked : List MemoryRegion) (calls : List ProtectionCall)
    (call : ProtectionCall) :
    refusals locked (calls ++ [call]) =
      refusals locked calls +
        (call.refused ((locked ++ lockedRegions calls).take MAX_PROTECTED_REGIONS)).toNat := by
  induction calls generalizing locked with
  | nil => simp [refusals, lockedRegions]
  | cons first calls ih =>
    have hlocked : lockedRegions (first :: calls) = first.region?.toList ++ lockedRegions calls := by
      unfold lockedRegions
      rw [List.filterMap_cons]
      cases first.region? <;> rfl
    rw [List.cons_append, refusals, refusals, ih, hlocked, List.append_assoc, Nat.add_assoc]

-- What is denied in a run can be told from the calls.
theorem denials_eq_refusals (w : World) (calls : List ProtectionCall) :
    denials w calls = refusals [] calls := by
  induction calls using List.reverseRecOn with
  | nil => rfl
  | append_singleton calls call ih =>
    rw [denials_append, refusals_append, ih, call.allowed_eq, protectionRun_regions, Bool.not_not,
      List.nil_append]

-- How the next denial compares with the threshold in 32 bits.
theorem next_violation (done : List ProtectionCall) :
    (protectionRun done w).violationCounts.violations + 1 = BitVec.ofNat 32 (denials w done + 1) := by
  rw [protectionRun_violations, BitVec.ofNat_add]
  rfl

theorem accountsDenial_of_lt (done : List ProtectionCall) (call : ProtectionCall)
    (hlt : denials w (done ++ [call]) < 2 ^ 32) : AccountsDenial w done call := by
  have hcounts := call.run_counts (protectionRun done w)
  rw [denials_append] at hlt
  cases hallowed : call.allowed (protectionRun done w) with
  | true =>
    rw [hallowed, if_neg (by decide)] at hcounts
    refine ⟨?_, ?_⟩
    · rw [hallowed]
      simpa using congrArg ViolationCounts.thresholds hcounts
    · rw [hallowed]
      simpa using congrArg ViolationCounts.requests hcounts
  | false =>
    rw [hallowed, if_pos rfl] at hcounts
    rw [hallowed, Bool.not_false, Bool.toNat_true] at hlt
    have hnat : (BitVec.ofNat 32 (denials w done + 1)).toNat = denials w done + 1 := by
      rw [BitVec.toNat_ofNat, Nat.mod_eq_of_lt hlt]
    have hthird : (protectionRun done w).violationCounts.violations + 1 =
        MEM_PROT_VIOLATION_THRESHOLD ↔ denials w done + 1 = 3 := by
      rw [next_violation, ← BitVec.toNat_inj, hnat]
      rfl
    have hlater : (protectionRun done w).violationCounts.violations + 1 ≥
        MEM_PROT_VIOLATION_THRESHOLD ↔ 3 ≤ denials w done + 1 := by
      rw [next_violation, ge_iff_le, BitVec.le_def, hnat]
      rfl
    refine ⟨?_, ?_⟩
    · have hthresholds := congrArg ViolationCounts.thresholds hcounts
      unfold ViolationCounts.record at hthresholds
      simp only [hthird] at hthresholds
      simpa [hallowed] using hthresholds
    · have hrequests := congrArg ViolationCounts.requests hcounts
      unfold ViolationCounts.record at hrequests
      simp only [hlater] at hrequests
      simpa [hallowed] using hrequests

-- The denial that wraps the counter around to 0 asks for nothing.
theorem not_accountsDenial_of_wrap (done : List ProtectionCall) (call : ProtectionCall)
    (hdenied : call.allowed (protectionRun done w) = false)
    (hwrap : denials w done + 1 = 2 ^ 32) : ¬AccountsDenial w done call := by
  intro h
  have hcounts := call.run_counts (protectionRun done w)
  rw [hdenied, if_pos rfl] at hcounts
  have hrequests := congrArg ViolationCounts.requests hcounts
  unfold ViolationCounts.record at hrequests
  rw [next_violation, hwrap] at hrequests
  have hrequested := h.requested
  rw [if_pos ⟨hdenied, by omega⟩] at hrequested
  simp only [World.violationCounts_requests] at hrequests
  rw [if_neg (by decide)] at hrequests
  omega

-- A count that goes up one by one passes every number on its way.
theorem exists_denial (calls : List ProtectionCall) (n : Nat) (h : n < denials w calls) :
    ∃ done call rest, calls = done ++ call :: rest ∧ denials w done = n ∧
      call.allowed (protectionRun done w) = false := by
  induction calls using List.reverseRecOn with
  | nil => exact absurd h (Nat.not_lt_zero n)
  | append_singleton calls call ih =>
    by_cases hbefore : n < denials w calls
    · obtain ⟨done, denied, rest, hsplit, hcount⟩ := ih hbefore
      exact ⟨done, denied, rest ++ [call], by rw [hsplit]; simp, hcount⟩
    · rw [denials_append] at h
      cases hallowed : call.allowed (protectionRun calls w) with
      | true =>
        rw [hallowed] at h
        exact absurd h hbefore
      | false =>
        rw [hallowed, Bool.not_false, Bool.toNat_true] at h
        exact ⟨calls, call, [], rfl, by omega, hallowed⟩

theorem denials_le_append (calls more : List ProtectionCall) :
    denials w calls ≤ denials w (calls ++ more) := by
  induction more using List.reverseRecOn with
  | nil => rw [List.append_nil]
  | append_singleton more call ih =>
    rw [← List.append_assoc, denials_append]
    omega

theorem threshold_accounting_iff (calls : List ProtectionCall) (w : World) :
    History.Each (AccountsDenial w) calls ↔ refusals [] calls < 2 ^ 32 := by
  rw [← denials_eq_refusals w calls]
  constructor
  · intro heach
    by_contra hmany
    obtain ⟨done, call, rest, hsplit, hcount, hdenied⟩ :=
      exists_denial (w := w) calls (2 ^ 32 - 1) (by omega)
    exact not_accountsDenial_of_wrap done call hdenied (by omega) (heach done call rest hsplit)
  · intro hfew done call rest hsplit
    apply accountsDenial_of_lt
    have hmore : calls = (done ++ [call]) ++ rest := hsplit.trans (List.append_cons done call rest)
    rw [hmore] at hfew
    exact Nat.lt_of_le_of_lt (denials_le_append _ rest) hfew

-- The same call over and over.
theorem refusals_replicate (locked : List MemoryRegion) (call : ProtectionCall) (n : Nat)
    (hregion : call.region? = none)
    (hrefused : call.refused (locked.take MAX_PROTECTED_REGIONS) = true) :
    refusals locked (List.replicate n call) = n := by
  induction n with
  | zero => rfl
  | succ n ih =>
    rw [List.replicate_succ, refusals, hregion, Option.toList_none, List.append_nil, ih, hrefused,
      Bool.toNat_true, Nat.add_comm]

-- A region that may not be written, and a write to it 2 ^ 32 times.
theorem violation_count_wraps :
    ¬History.Each (AccountsDenial startupWorld)
      (.ProtectRegion ⟨0x1000, 0x1010, MEM_PERM_READ, "TestReadOnly"⟩ ::
        List.replicate (2 ^ 32) (.CheckAccess 0x1000 1 MEM_PERM_WRITE)) := by
  intro heach
  have hmany : 2 ^ 32 - 1 < denials startupWorld
      (.ProtectRegion ⟨0x1000, 0x1010, MEM_PERM_READ, "TestReadOnly"⟩ ::
        List.replicate (2 ^ 32) (.CheckAccess 0x1000 1 MEM_PERM_WRITE)) := by
    rw [denials_eq_refusals, refusals, refusals_replicate _ _ _ rfl (by decide)]
    decide
  obtain ⟨done, call, rest, hsplit, hcount, hdenied⟩ := exists_denial _ _ hmany
  exact not_accountsDenial_of_wrap done call hdenied (by omega) (heach done call rest hsplit)

end Runs

end SpaceBaremetal
