import SpaceBaremetal.MemoryScrub.OpenArea

namespace SpaceBaremetal

variable (layout : Layout)

section OneBit

-- What a fix of `event` ought to do to the area, the counters and the recorder.
structure FixesOnlyItsBit (event : Option FaultEvent) (w : World) : Prop where
  others : ∀ i k, (∀ named, event = some named → ¬(named.index.toNat = i ∧ named.bit.toNat = k)) →
    ((memoryScrubFixEvent layout event w).2.scrubArea i).getLsbD k = (w.scrubArea i).getLsbD k
  corrected : (memoryScrubFixEvent layout event w).1 = true →
    (∃ named, event = some named ∧
        ((memoryScrubFixEvent layout event w).2.scrubArea named.index.toNat).getLsbD
          named.bit.toNat = (goldenCopy named.index.toNat).getLsbD named.bit.toNat) ∧
      (memoryScrubFixEvent layout event w).2.seuTotalCount = w.seuTotalCount + 1 ∧
      (memoryScrubFixEvent layout event w).2.seuCounter = (memoryScrubRecordSeu w).seuCounter ∧
      ∃ entry, (memoryScrubFixEvent layout event w).2.seuEntries = w.seuEntries ++ [entry]
  untouched : (memoryScrubFixEvent layout event w).1 = false →
    (memoryScrubFixEvent layout event w).2.scrubArea = w.scrubArea ∧
      (memoryScrubFixEvent layout event w).2.seuTotalCount = w.seuTotalCount ∧
      (memoryScrubFixEvent layout event w).2.seuCounter = w.seuCounter ∧
      (memoryScrubFixEvent layout event w).2.seuEntries = w.seuEntries

-- The byte may be written but not read, so that it is taken for 0; the golden
-- bit is 1, so that a correction is due; and the byte has another 1 to lose.
def LosesBits (memory : ScrubMemory) (event : Option FaultEvent) : Prop :=
  ∃ named, event = some named ∧ named.Valid ∧
    byteRefused layout memory.regions named.index.toNat MEM_PERM_READ = true ∧
    byteRefused layout memory.regions named.index.toNat MEM_PERM_WRITE = false ∧
    (goldenCopy named.index.toNat).getLsbD named.bit.toNat = true ∧
    ∃ k, k ≠ named.bit.toNat ∧ (memory.area named.index.toNat).getLsbD k = true

variable {layout}

-- Without a repair nothing is touched, so nothing can go wrong.
theorem fixesOnlyItsBit_of_not_repairs (event : FaultEvent) (w : World)
    (h : ¬Repairs layout w.scrub event) : FixesOnlyItsBit layout (some event) w := by
  obtain ⟨hresult, hscrub, hupsets⟩ := memoryScrubFixEvent_of_not_repairs event w h
  have harea : World.scrubArea _ = w.scrubArea := congrArg ScrubMemory.area hscrub
  have hcounts : World.upsetCounts _ = w.upsetCounts := congrArg UpsetAccount.counts hupsets
  refine ⟨?_, ?_, ?_⟩
  · intro i k _
    rw [harea]
  · intro htrue
    rw [hresult] at htrue
    cases htrue
  · intro _
    exact ⟨harea, congrArg UpsetCounts.total hcounts, congrArg UpsetCounts.counter hcounts,
      congrArg UpsetAccount.entries hupsets⟩

-- A repair touches its bit alone exactly if every other bit reads as it is.
theorem fixesOnlyItsBit_iff_of_repairs (event : FaultEvent) (w : World)
    (h : Repairs layout w.scrub event) :
    FixesOnlyItsBit layout (some event) w ↔
      ∀ k, k ≠ event.bit.toNat → (readsAs layout w.scrub event.index.toNat).getLsbD k =
        (w.scrubArea event.index.toNat).getLsbD k := by
  obtain ⟨hresult, hscrub, hupsets⟩ := memoryScrubFixEvent_of_repairs event w h
  obtain ⟨⟨-, hbit⟩, -, -⟩ := h
  have harea : World.scrubArea _ = Function.update w.scrubArea event.index.toNat
      (fixedByte (readsAs layout w.scrub event.index.toNat) (goldenCopy event.index.toNat)
        event.bit.toNat) := congrArg ScrubMemory.area hscrub
  have hcounts : World.upsetCounts _ = w.upsetCounts.record :=
    congrArg UpsetAccount.counts hupsets
  have hrecorded : (memoryScrubRecordSeu w).upsetCounts = w.upsetCounts.record :=
    congrArg UpsetAccount.counts (memoryScrubRecordSeu_upsets w)
  constructor
  · intro hfixes k hk
    have hother := hfixes.others event.index.toNat k (by
      rintro named hnamed ⟨-, rfl⟩
      obtain rfl := Option.some.inj hnamed
      exact hk rfl)
    rw [harea, Function.update_self, getLsbD_fixedByte _ _ _ _ hbit, if_neg hk] at hother
    exact hother
  · intro hreads
    refine ⟨?_, ?_, ?_⟩
    · intro i k hother
      rw [harea]
      by_cases hi : i = event.index.toNat
      · have hk : k ≠ event.bit.toNat := fun hk => hother event rfl ⟨hi.symm, hk.symm⟩
        rw [hi, Function.update_self, getLsbD_fixedByte _ _ _ _ hbit, if_neg hk]
        exact hreads k hk
      · rw [Function.update_of_ne hi]
    · intro _
      refine ⟨⟨event, rfl, ?_⟩, ?_, ?_, _, congrArg UpsetAccount.entries hupsets⟩
      · rw [harea, Function.update_self, getLsbD_fixedByte _ _ _ _ hbit, if_pos rfl]
      · exact (congrArg UpsetCounts.total hcounts).trans (record_total w.upsetCounts)
      · exact congrArg UpsetCounts.counter (hcounts.trans hrecorded.symm)
    · intro hfalse
      rw [hresult] at hfalse
      cases hfalse

theorem losesBits_iff (memory : ScrubMemory) (event : FaultEvent) :
    LosesBits layout memory (some event) ↔
      Repairs layout memory event ∧ ¬∀ k, k ≠ event.bit.toNat →
        (readsAs layout memory event.index.toNat).getLsbD k =
          (memory.area event.index.toNat).getLsbD k := by
  unfold Repairs readsAs
  constructor
  · rintro ⟨named, hnamed, hvalid, hunread, hgranted, hgolden, k, hk, hset⟩
    obtain rfl := Option.some.inj hnamed
    rw [if_pos hunread]
    refine ⟨⟨hvalid, hgranted, ?_⟩, fun hreads => ?_⟩
    · rw [hgolden]
      simp
    · have hzero := hreads k hk
      rw [hset] at hzero
      simp at hzero
  · rintro ⟨⟨hvalid, hgranted, hwrong⟩, hreads⟩
    push Not at hreads
    obtain ⟨k, hk, hset⟩ := hreads
    by_cases hunread : byteRefused layout memory.regions event.index.toNat MEM_PERM_READ = true
    · rw [if_pos hunread] at hwrong hset
      refine ⟨event, rfl, hvalid, hunread, hgranted, ?_, k, hk, ?_⟩
      · simpa using hwrong.symm
      · simpa using hset.symm
    · rw [if_neg hunread] at hset
      exact absurd rfl hset

theorem fix_event_touches_only_bit_iff (event : Option FaultEvent) (w : World) :
    FixesOnlyItsBit layout event w ↔ ¬LosesBits layout w.scrub event := by
  cases event with
  | none =>
    constructor
    · rintro - ⟨named, hnamed, -⟩
      cases hnamed
    · intro _
      exact ⟨fun _ _ _ => rfl, nofun, fun _ => ⟨rfl, rfl, rfl, rfl⟩⟩
  | some event =>
    rw [losesBits_iff]
    by_cases h : Repairs layout w.scrub event
    · rw [fixesOnlyItsBit_iff_of_repairs event w h, not_and_not_right]
      exact ⟨fun hreads _ => hreads, fun hreads => hreads h⟩
    · exact ⟨fun _ hloses => h hloses.1, fun _ => fixesOnlyItsBit_of_not_repairs event w h⟩

-- An intact area behind a region that may be written but not read: bit 0 of
-- byte 3 is taken for a flip, and its repair clears bit 1.
theorem fix_event_corrupts_unreadable_byte :
    ¬FixesOnlyItsBit startupLayout (some ⟨3, 0⟩)
      { memoryProtectionAddRegion ⟨0x80010000, 0x80010200, MEM_PERM_WRITE, "WriteOnly"⟩
          (memoryProtectionInit startupWorld) with scrubArea := goldenCopy } := by
  intro hfixes
  have hother := hfixes.others 3 1 (by
    rintro named hnamed ⟨-, hbit⟩
    obtain rfl := Option.some.inj hnamed
    exact absurd hbit (by decide))
  revert hother
  decide +kernel

end OneBit

section ManyEvents

-- One fix for each event in turn; the first component counts those that
-- returned true.
def memoryScrubFixEvents (layout : Layout) (events : List FaultEvent) (w : World) : Nat × World :=
  events.foldl
    (fun acc event =>
      let fixed := memoryScrubFixEvent layout (some event) acc.2
      (acc.1 + fixed.1.toNat, fixed.2)) (0, w)

-- The bits of the area proper that differ from the golden copy.
def faultyBits (area : Nat → BitVec 8) (event : FaultEvent) : Bool :=
  decide event.Valid && wrongBits area event

def Names (events : List FaultEvent) (i k : Nat) : Prop :=
  ∃ event ∈ events, event.Valid ∧ event.index.toNat = i ∧ event.bit.toNat = k

instance (events : List FaultEvent) (i k : Nat) : Decidable (Names events i k) :=
  inferInstanceAs (Decidable (∃ event ∈ events, _))

variable {layout : Layout}

theorem faultyBits_fixedArea (area : Nat → BitVec 8) (event : FaultEvent) :
    faultyBits (fixedArea area event) = Marks.clear (faultyBits area) event := by
  funext event'
  rw [Marks.clear_apply]
  unfold faultyBits
  by_cases hvalid : event'.Valid
  · rw [wrongBits_fixedArea _ _ _ hvalid, Marks.clear_apply, Bool.and_assoc]
  · simp [hvalid]

-- On an open area a fix succeeds exactly on a wrong bit.
theorem memoryScrubFixEvent_open (event : FaultEvent) (w : World)
    (hopen : AreaOpen layout w.scrub.regions) :
    (memoryScrubFixEvent layout (some event) w).1 = faultyBits w.scrubArea event ∧
      (memoryScrubFixEvent layout (some event) w).2.upsetCounts =
        UpsetCounts.record^[(faultyBits w.scrubArea event).toNat] w.upsetCounts := by
  have hresult : (memoryScrubFixEvent layout (some event) w).1 = faultyBits w.scrubArea event := by
    unfold faultyBits
    rw [Bool.eq_iff_iff, memoryScrubFixEvent_eq_true_iff, repairs_iff_of_open hopen event,
      Bool.and_eq_true, decide_eq_true_eq]
    rfl
  refine ⟨hresult, ?_⟩
  rw [← hresult]
  exact memoryScrubFixEvent_upsetCounts (some event) w

-- The list is worked off as marks are cleared, and each cleared mark is one
-- success and one upset.
theorem foldl_memoryScrubFixEvent (events : List FaultEvent) (acc : Nat × World)
    (hopen : AreaOpen layout acc.2.scrub.regions) :
    let done := events.foldl
      (fun acc event =>
        let fixed := memoryScrubFixEvent layout (some event) acc.2
        (acc.1 + fixed.1.toNat, fixed.2)) acc
    done.1 = acc.1 + Marks.clears (faultyBits acc.2.scrubArea) events ∧
      done.2.scrubArea = events.foldl fixedArea acc.2.scrubArea ∧
      done.2.upsetCounts =
        UpsetCounts.record^[Marks.clears (faultyBits acc.2.scrubArea) events]
          acc.2.upsetCounts := by
  induction events generalizing acc with
  | nil => exact ⟨rfl, rfl, rfl⟩
  | cons event events ih =>
    obtain ⟨hresult, hcounts⟩ := memoryScrubFixEvent_open event acc.2 hopen
    have hscrub := memoryScrubFixEvent_scrub acc.2 hopen event
    have hregions := congrArg ScrubMemory.regions hscrub
    have harea : World.scrubArea _ = fixedArea acc.2.scrubArea event :=
      congrArg ScrubMemory.area hscrub
    obtain ⟨hsuccesses, harea', hcounts'⟩ :=
      ih (acc.1 + (memoryScrubFixEvent layout (some event) acc.2).1.toNat,
        (memoryScrubFixEvent layout (some event) acc.2).2) (hregions ▸ hopen)
    rw [harea, faultyBits_fixedArea] at hsuccesses hcounts'
    rw [List.foldl_cons, List.foldl_cons]
    unfold Marks.clears
    refine ⟨?_, ?_, ?_⟩
    · rw [hsuccesses, hresult, Nat.add_assoc]
    · rw [harea', harea]
    · rw [hcounts', hcounts, Nat.add_comm, Function.iterate_add_apply]

theorem fixedArea_bit (area : Nat → BitVec 8) (event : FaultEvent) (i k : Nat) :
    (fixedArea area event i).getLsbD k =
      if event.Valid ∧ event.index.toNat = i ∧ event.bit.toNat = k then (goldenCopy i).getLsbD k
      else (area i).getLsbD k := by
  unfold fixedArea
  by_cases hvalid : event.Valid
  · rw [if_pos hvalid]
    by_cases hi : event.index.toNat = i
    · subst hi
      rw [Function.update_self, getLsbD_fixedByte _ _ _ _ hvalid.2]
      simp [hvalid, eq_comm]
    · rw [Function.update_of_ne (Ne.symm hi)]
      simp [hi]
  · rw [if_neg hvalid]
    simp [hvalid]

theorem names_cons (event : FaultEvent) (events : List FaultEvent) (i k : Nat) :
    Names (event :: events) i k ↔
      (event.Valid ∧ event.index.toNat = i ∧ event.bit.toNat = k) ∨ Names events i k := by
  unfold Names
  simp only [List.mem_cons, exists_eq_or_imp]

-- Bit by bit: what a list of events does to the area does not depend on their
-- order.
theorem foldl_fixedArea_bit (events : List FaultEvent) (area : Nat → BitVec 8) (i k : Nat) :
    (events.foldl fixedArea area i).getLsbD k =
      if Names events i k then (goldenCopy i).getLsbD k else (area i).getLsbD k := by
  induction events generalizing area with
  | nil => simp [Names]
  | cons event events ih =>
    rw [List.foldl_cons, ih, fixedArea_bit]
    simp only [names_cons]
    by_cases hrest : Names events i k
    · simp [hrest]
    · simp [hrest]

theorem names_perm {events permuted : List FaultEvent} (hperm : permuted.Perm events) (i k : Nat) :
    Names permuted i k ↔ Names events i k := by
  unfold Names
  simp only [hperm.mem_iff]

theorem World.scrub_area (w : World) : w.scrub.area = w.scrubArea := rfl

theorem area_ext {area area' : Nat → BitVec 8}
    (h : ∀ i k, (area i).getLsbD k = (area' i).getLsbD k) : area = area' := by
  funext i
  apply BitVec.eq_of_getLsbD_eq
  intro k _
  exact h i k

-- Once every wrong bit is named, the area is golden, and nothing beyond it has
-- changed.
theorem foldl_fixedArea_all (events : List FaultEvent) (area : Nat → BitVec 8)
    (hall : ∀ event : FaultEvent, event.Valid → wrongBits area event = true → event ∈ events) :
    events.foldl fixedArea area = fun i => if i < SCRUB_SIZE then goldenCopy i else area i := by
  have hgolden : Golden (events.foldl fixedArea area) := by
    rw [golden_iff]
    intro event hvalid
    rw [wrongBits_foldl_fixedArea _ _ _ hvalid, Marks.clearAll_apply]
    cases hwrong : wrongBits area event with
    | true => simp [hall event hvalid hwrong]
    | false => rfl
  funext i
  by_cases hi : i < SCRUB_SIZE
  · rw [if_pos hi, hgolden i hi]
  · rw [if_neg hi]
    apply BitVec.eq_of_getLsbD_eq
    intro k _
    rw [foldl_fixedArea_bit, if_neg]
    rintro ⟨event, -, hvalid, hindex, -⟩
    exact hi (hindex ▸ hvalid.1)

theorem targeted_repair_order_independent (events : List FaultEvent) (w : World)
    (hopen : AreaOpen layout w.scrub.regions) :
    (∀ i k, ((memoryScrubFixEvents layout events w).2.scrubArea i).getLsbD k =
        if Names events i k then (goldenCopy i).getLsbD k else (w.scrubArea i).getLsbD k) ∧
      (memoryScrubFixEvents layout events w).1 =
        (events.toFinset.filter fun event => faultyBits w.scrubArea event = true).card ∧
      (∀ permuted, permuted.Perm events →
        (memoryScrubFixEvents layout permuted w).2.scrubArea =
            (memoryScrubFixEvents layout events w).2.scrubArea ∧
          (memoryScrubFixEvents layout permuted w).1 =
            (memoryScrubFixEvents layout events w).1) ∧
      ((∀ event : FaultEvent, event.Valid → wrongBits w.scrubArea event = true → event ∈ events) →
        (memoryScrubFixEvents layout events w).2.scrubArea = (memoryScrub layout w).scrubArea) := by
  have harea : ∀ list, (memoryScrubFixEvents layout list w).2.scrubArea =
      list.foldl fixedArea w.scrubArea :=
    fun list => (foldl_memoryScrubFixEvent list (0, w) hopen).2.1
  have hcount : ∀ list, (memoryScrubFixEvents layout list w).1 =
      (list.toFinset.filter fun event => faultyBits w.scrubArea event = true).card := by
    intro list
    rw [← Marks.clears_eq]
    exact (foldl_memoryScrubFixEvent list (0, w) hopen).1.trans (Nat.zero_add _)
  refine ⟨?_, hcount events, ?_, ?_⟩
  · intro i k
    rw [harea, foldl_fixedArea_bit]
  · intro permuted hperm
    refine ⟨?_, ?_⟩
    · rw [harea, harea]
      apply area_ext
      intro i k
      simp only [foldl_fixedArea_bit, names_perm hperm]
    · rw [hcount, hcount, List.toFinset_eq_of_perm _ _ hperm]
  · intro hall
    rw [harea, foldl_fixedArea_all events w.scrubArea hall, ← World.scrub_area (memoryScrub _ _),
      memoryScrub_scrub w hopen]

-- Two flips in one byte, one of them named twice, and an event past the area.
theorem targeted_repair_order_independent_two :
    (memoryScrubFixEvents startupLayout [⟨3, 0⟩, ⟨600, 0⟩, ⟨3, 2⟩, ⟨3, 0⟩]
      { memoryScrubInit startupLayout startupWorld with
          scrubArea := Function.update goldenCopy 3 0x06 }).1 = 2 := by
  have hopen := (memoryScrubInit_scrub startupLayout startupWorld
    fun region hregion => absurd hregion List.not_mem_nil).2.2.2
  generalize memoryScrubInit startupLayout startupWorld = w at hopen ⊢
  have h := targeted_repair_order_independent [⟨3, 0⟩, ⟨600, 0⟩, ⟨3, 2⟩, ⟨3, 0⟩]
    { w with scrubArea := Function.update goldenCopy 3 0x06 } hopen
  have hwrong : ([⟨3, 0⟩, ⟨600, 0⟩, ⟨3, 2⟩, ⟨3, 0⟩].toFinset.filter fun event =>
      faultyBits (Function.update goldenCopy 3 0x06) event = true).card = 2 := by decide +kernel
  exact h.2.1.trans hwrong

end ManyEvents

end SpaceBaremetal
