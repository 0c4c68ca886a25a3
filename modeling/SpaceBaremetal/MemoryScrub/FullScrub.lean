import Mathlib.Data.List.Dedup
import SpaceBaremetal.MemoryScrub.Targeted

namespace SpaceBaremetal

section Honest

-- What a full scrub ought to do and to say.
structure ScrubHonest (layout : Layout) (w : World) : Prop where
  kept : ∀ i < SCRUB_SIZE, (memoryScrub layout w).scrubArea i = w.scrubArea i ∨
    (memoryScrub layout w).scrubArea i = goldenCopy i
  repaired : ∀ i < SCRUB_SIZE,
    (memoryProtectionCheckAccess (scrubAddress layout i) 1 MEM_PERM_READ w).1 = true →
    (memoryProtectionCheckAccess (scrubAddress layout i) 1 MEM_PERM_WRITE w).1 = true →
      (memoryScrub layout w).scrubArea i = goldenCopy i
  honest : (memoryScrub layout w).uart.getLast? = some "Memory scrub completed - No errors\r\n" →
    Golden w.scrubArea

variable {layout : Layout}

theorem memoryScrub_scrubArea (w : World) (i : Nat) :
    (memoryScrub layout w).scrubArea i =
      if i ∈ rewritten layout w.scrub (List.range SCRUB_SIZE) then goldenCopy i
      else w.scrubArea i := by
  rw [← World.scrub_area (memoryScrub layout w), (memoryScrub_spec w).1]

theorem memoryScrub_kept (w : World) (i : Nat) :
    (memoryScrub layout w).scrubArea i = w.scrubArea i ∨
      (memoryScrub layout w).scrubArea i = goldenCopy i := by
  rw [memoryScrub_scrubArea]
  split_ifs
  · exact .inr rfl
  · exact .inl rfl

-- A byte that may be read and written is rewritten unless it is right.
theorem memoryScrub_repaired (w : World) (i : Nat) (hi : i < SCRUB_SIZE)
    (hread : (memoryProtectionCheckAccess (scrubAddress layout i) 1 MEM_PERM_READ w).1 = true)
    (hwrite : (memoryProtectionCheckAccess (scrubAddress layout i) 1 MEM_PERM_WRITE w).1 = true) :
    (memoryScrub layout w).scrubArea i = goldenCopy i := by
  rw [memoryProtectionCheckAccess_byte layout w i (by decide), Bool.not_eq_true'] at hread hwrite
  rw [memoryScrub_scrubArea]
  split_ifs with hrewritten
  · rfl
  · by_contra hwrong
    apply hrewritten
    refine mem_rewritten.mpr ⟨hi, hwrite, ?_⟩
    unfold readsAs
    rw [hread]
    exact hwrong

-- The summary says that there were no errors exactly if nothing was rewritten.
theorem memoryScrub_says_no_errors_iff (layout : Layout) (w : World) :
    (memoryScrub layout w).uart.getLast? = some "Memory scrub completed - No errors\r\n" ↔
      ∀ i < SCRUB_SIZE, ¬Rewrites layout w.scrub i := by
  rw [(memoryScrub_spec w).2.2]
  constructor
  · intro hsays i hi hrewrites
    rw [if_neg (List.ne_nil_of_mem (mem_rewritten.mpr ⟨hi, hrewrites⟩))] at hsays
    exact absurd hsays (by decide)
  · intro hnone
    rw [if_pos]
    apply List.eq_nil_iff_forall_not_mem.mpr
    intro i hi
    obtain ⟨hlt, hrewrites⟩ := mem_rewritten.mp hi
    exact hnone i hlt hrewrites

theorem scrub_honest_iff (w : World) :
    ScrubHonest layout w ↔ Golden w.scrubArea ∨ ∃ i < SCRUB_SIZE, Rewrites layout w.scrub i := by
  constructor
  · intro h
    by_cases hrewrites : ∃ i < SCRUB_SIZE, Rewrites layout w.scrub i
    · exact .inr hrewrites
    · refine .inl (h.honest ((memoryScrub_says_no_errors_iff layout w).mpr ?_))
      intro i hi hi'
      exact hrewrites ⟨i, hi, hi'⟩
  · intro h
    refine ⟨fun i _ => memoryScrub_kept w i, memoryScrub_repaired w, ?_⟩
    intro hsays
    cases h with
    | inl hgolden => exact hgolden
    | inr hrewrites =>
      obtain ⟨i, hi, hrewrites⟩ := hrewrites
      exact absurd hrewrites ((memoryScrub_says_no_errors_iff layout w).mp hsays i hi)

-- One damaged byte behind a region that may not be written.
theorem scrub_hides_unwritable_damage :
    ¬ScrubHonest startupLayout
      { memoryProtectionAddRegion ⟨0x80010000, 0x80010200, MEM_PERM_READ, "ReadOnly"⟩
          (memoryProtectionInit startupWorld) with
          scrubArea := Function.update goldenCopy 0 0xFF } := by
  intro h
  have hsays := (memoryScrub_says_no_errors_iff startupLayout
    { memoryProtectionAddRegion ⟨0x80010000, 0x80010200, MEM_PERM_READ, "ReadOnly"⟩
        (memoryProtectionInit startupWorld) with
        scrubArea := Function.update goldenCopy 0 0xFF }).mpr (by decide +kernel)
  have hbyte := h.honest hsays 0 (by decide)
  revert hbyte
  decide

end Honest

section Alike

-- Repairing by events and by a full scrub leaves the same counts behind.
structure CountsAlike (layout : Layout) (events : List FaultEvent) (w : World) : Prop where
  total : (memoryScrubFixEvents layout events w).2.seuTotalCount =
    (memoryScrub layout w).seuTotalCount
  counter : (memoryScrubFixEvents layout events w).2.seuCounter = (memoryScrub layout w).seuCounter
  requests : (memoryScrubFixEvents layout events w).2.attempts UPSET_REQUEST =
    (memoryScrub layout w).attempts UPSET_REQUEST

-- No byte of the area differs from the golden copy in two bits.
def OneFlipPerByte (area : Nat → BitVec 8) : Prop :=
  ∀ event other : FaultEvent, event.Valid → other.Valid → wrongBits area event = true →
    wrongBits area other = true → event.index = other.index → event = other

variable {layout : Layout} {w : World} {events : List FaultEvent}

-- The two totals tell the numbers of upsets apart, as neither can wrap around.
theorem iterate_record_inj {m n : Nat} (hm : m ≤ 4096) (hn : n ≤ 4096) (counts : UpsetCounts)
    (h : (UpsetCounts.record^[m] counts).total = (UpsetCounts.record^[n] counts).total) :
    m = n := by
  rw [iterate_record_total, iterate_record_total, BitVec.add_right_inj] at h
  have hnat := congrArg BitVec.toNat h
  rw [BitVec.toNat_ofNat, BitVec.toNat_ofNat, Nat.mod_eq_of_lt (by omega),
    Nat.mod_eq_of_lt (by omega)] at hnat
  exact hnat

-- The events name every differing bit once.
def NamesEachFlip (area : Nat → BitVec 8) (events : List FaultEvent) : Prop :=
  events.Nodup ∧ ∀ event, event ∈ events ↔ event.Valid ∧ wrongBits area event = true

theorem fixEvents_upsetCounts (hopen : AreaOpen layout w.scrub.regions)
    (hevents : NamesEachFlip w.scrubArea events) :
    (memoryScrubFixEvents layout events w).2.upsetCounts =
      UpsetCounts.record^[events.length] w.upsetCounts := by
  obtain ⟨hnodup, hall⟩ := hevents
  have hcounts := (foldl_memoryScrubFixEvent events (0, w) hopen).2.2
  have hfaulty : events.toFinset.filter (fun event => faultyBits w.scrubArea event = true) =
      events.toFinset := by
    apply Finset.filter_true_of_mem
    intro event hevent
    obtain ⟨hvalid, hwrong⟩ := (hall event).mp (List.mem_toFinset.mp hevent)
    unfold faultyBits
    rw [hwrong, decide_eq_true hvalid]
    rfl
  rw [Marks.clears_eq, hfaulty, List.toFinset_card_of_nodup hnodup] at hcounts
  exact hcounts

-- With the area open the bytes rewritten are those that some event names.
theorem rewritten_toFinset (hopen : AreaOpen layout w.scrub.regions)
    (hevents : NamesEachFlip w.scrubArea events) :
    (rewritten layout w.scrub (List.range SCRUB_SIZE)).toFinset =
      (events.map fun event => event.index.toNat).toFinset := by
  obtain ⟨-, hall⟩ := hevents
  ext i
  rw [List.mem_toFinset, List.mem_toFinset, mem_rewritten, List.mem_map]
  constructor
  · rintro ⟨hi, hrewrites⟩
    rw [rewrites_iff_of_open hopen hi, World.scrub_area, ne_eq,
      byte_golden_iff w.scrubArea i hi] at hrewrites
    push Not at hrewrites
    obtain ⟨event, hvalid, hindex, hwrong⟩ := hrewrites
    exact ⟨event, (hall event).mpr ⟨hvalid, by simpa using hwrong⟩, hindex⟩
  · rintro ⟨event, hevent, rfl⟩
    obtain ⟨hvalid, hwrong⟩ := (hall event).mp hevent
    refine ⟨hvalid.1, (rewrites_iff_of_open hopen hvalid.1).mpr fun hgolden => ?_⟩
    rw [(byte_golden_iff w.scrubArea _ hvalid.1).mp hgolden event hvalid rfl] at hwrong
    cases hwrong

theorem rewritten_length (hopen : AreaOpen layout w.scrub.regions)
    (hevents : NamesEachFlip w.scrubArea events) :
    (rewritten layout w.scrub (List.range SCRUB_SIZE)).length =
      (events.map fun event => event.index.toNat).dedup.length := by
  have hnodup : (rewritten layout w.scrub (List.range SCRUB_SIZE)).Nodup :=
    List.nodup_range.filter _
  rw [← List.toFinset_card_of_nodup hnodup, rewritten_toFinset hopen hevents, List.card_toFinset]

-- As many bytes as bits differ exactly if no byte holds two of the bits.
theorem dedup_length_eq_iff (hevents : NamesEachFlip w.scrubArea events) :
    (events.map fun event => event.index.toNat).dedup.length = events.length ↔
      OneFlipPerByte w.scrubArea := by
  obtain ⟨hnodup, hall⟩ := hevents
  have hinjective : OneFlipPerByte w.scrubArea ↔
      (events.map fun event => event.index.toNat).Nodup := by
    rw [List.nodup_map_iff_inj_on hnodup]
    constructor
    · intro hone event hevent other hother hindex
      obtain ⟨hvalid, hwrong⟩ := (hall event).mp hevent
      obtain ⟨hvalid', hwrong'⟩ := (hall other).mp hother
      exact hone event other hvalid hvalid' hwrong hwrong' (BitVec.eq_of_toNat_eq hindex)
    · intro hinj event other hvalid hvalid' hwrong hwrong' hindex
      exact hinj event ((hall event).mpr ⟨hvalid, hwrong⟩) other
        ((hall other).mpr ⟨hvalid', hwrong'⟩) (congrArg BitVec.toNat hindex)
  rw [hinjective, ← List.dedup_eq_self]
  constructor
  · intro hlength
    apply (List.dedup_sublist _).eq_of_length
    rw [hlength, List.length_map]
  · intro hself
    rw [hself, List.length_map]

-- The area has 4096 bits.
theorem namesEachFlip_length_le (hevents : NamesEachFlip w.scrubArea events) :
    events.length ≤ 4096 := by
  obtain ⟨hnodup, hall⟩ := hevents
  have hmap : (events.map fun event => 8 * event.index.toNat + event.bit.toNat).Nodup := by
    rw [List.nodup_map_iff_inj_on hnodup]
    intro event hevent other hother heq
    obtain ⟨⟨-, hbit⟩, -⟩ := (hall event).mp hevent
    obtain ⟨⟨-, hbit'⟩, -⟩ := (hall other).mp hother
    by_contra hne
    have hindex : event.index.toNat = other.index.toNat := by omega
    exact faultEvent_ne hne hindex (by omega)
  have hsubset : (events.map fun event => 8 * event.index.toNat + event.bit.toNat) ⊆
      List.range 4096 := by
    intro position hposition
    obtain ⟨event, hevent, rfl⟩ := List.mem_map.mp hposition
    obtain ⟨⟨hindex, hbit⟩, -⟩ := (hall event).mp hevent
    unfold SCRUB_SIZE at hindex
    rw [List.mem_range]
    omega
  have hle := (hmap.subperm hsubset).length_le
  rwa [List.length_map, List.length_range] at hle

theorem countsAlike_of_oneFlip (hopen : AreaOpen layout w.scrub.regions)
    (hevents : NamesEachFlip w.scrubArea events) (hone : OneFlipPerByte w.scrubArea) :
    CountsAlike layout events w := by
  have hfixed := fixEvents_upsetCounts hopen hevents
  have hscrubbed := memoryScrub_upsetCounts layout w
  rw [rewritten_length hopen hevents, (dedup_length_eq_iff hevents).mpr hone] at hscrubbed
  obtain ⟨htotal, hcounter, hrequests⟩ := World.counts_of_upsetCounts (hfixed.trans hscrubbed.symm)
  exact ⟨htotal, hcounter, hrequests⟩

theorem oneFlip_of_countsAlike (hopen : AreaOpen layout w.scrub.regions)
    (hevents : NamesEachFlip w.scrubArea events) (h : CountsAlike layout events w) :
    OneFlipPerByte w.scrubArea := by
  have hfixed := fixEvents_upsetCounts hopen hevents
  have hscrubbed := memoryScrub_upsetCounts layout w
  rw [rewritten_length hopen hevents] at hscrubbed
  have hle := namesEachFlip_length_le hevents
  have hdedup := (List.dedup_sublist (events.map fun event => event.index.toNat)).length_le
  rw [List.length_map] at hdedup
  have htotal : (UpsetCounts.record^[events.length] w.upsetCounts).total =
      (UpsetCounts.record^[(events.map fun event => event.index.toNat).dedup.length]
        w.upsetCounts).total := by
    rw [← hfixed, ← hscrubbed, World.upsetCounts_total, World.upsetCounts_total]
    exact h.total
  exact (dedup_length_eq_iff hevents).mp (iterate_record_inj hle (by omega) _ htotal).symm

theorem counts_alike_iff (events : List FaultEvent) (w : World)
    (hopen : AreaOpen layout w.scrub.regions) (hevents : NamesEachFlip w.scrubArea events) :
    CountsAlike layout events w ↔ OneFlipPerByte w.scrubArea :=
  ⟨oneFlip_of_countsAlike hopen hevents, countsAlike_of_oneFlip hopen hevents⟩

theorem wrongBits_goldenCopy (event : FaultEvent) : wrongBits goldenCopy event = false := by
  simp [wrongBits]

theorem wrongBits_flip_goldenCopy (flipped event : FaultEvent) (hvalid : flipped.Valid) :
    wrongBits (flipBit goldenCopy flipped.index.toNat flipped.bit.toNat) event =
      decide (event = flipped) := by
  rw [wrongBits_flipBit _ _ _ hvalid, Marks.toggle_apply, wrongBits_goldenCopy, Bool.false_bne]

-- One flip in byte 3.
theorem counts_alike_iff_one :
    CountsAlike startupLayout [⟨3, 0⟩]
      { memoryScrubInit startupLayout startupWorld with scrubArea := flipBit goldenCopy 3 0 } := by
  have hwrong := fun event => wrongBits_flip_goldenCopy ⟨3, 0⟩ event (by decide)
  have hopen := (memoryScrubInit_scrub startupLayout startupWorld
    fun region hregion => absurd hregion List.not_mem_nil).2.2.2
  generalize memoryScrubInit startupLayout startupWorld = w at hopen ⊢
  apply (counts_alike_iff [⟨3, 0⟩] { w with scrubArea := flipBit goldenCopy 3 0 } hopen ?_).mpr
  · intro event other _ _ hevent hother _
    exact (of_decide_eq_true ((hwrong event).symm.trans hevent)).trans
      (of_decide_eq_true ((hwrong other).symm.trans hother)).symm
  · refine ⟨List.nodup_singleton _, fun event => ?_⟩
    rw [List.mem_singleton]
    constructor
    · rintro rfl
      exact ⟨by decide, (hwrong _).trans (by decide)⟩
    · exact fun h => of_decide_eq_true ((hwrong event).symm.trans h.2)

-- Two flips in byte 3: two upsets for the events, one for the full scrub.
theorem counts_differ_on_double_flip :
    AreaOpen startupLayout (memoryScrubInit startupLayout startupWorld).scrub.regions ∧
      NamesEachFlip (flipBit (flipBit goldenCopy 3 0) 3 1) [⟨3, 0⟩, ⟨3, 1⟩] ∧
      ¬CountsAlike startupLayout [⟨3, 0⟩, ⟨3, 1⟩]
        { memoryScrubInit startupLayout startupWorld with
            scrubArea := flipBit (flipBit goldenCopy 3 0) 3 1 } := by
  have hopen := (memoryScrubInit_scrub startupLayout startupWorld
    fun region hregion => absurd hregion List.not_mem_nil).2.2.2
  have hevents : NamesEachFlip (flipBit (flipBit goldenCopy 3 0) 3 1) [⟨3, 0⟩, ⟨3, 1⟩] := by
    refine ⟨by decide, fun event => ?_⟩
    have hwrong := (wrongBits_flipBit (flipBit goldenCopy 3 0) ⟨3, 1⟩ event (by decide)).trans
      (Marks.toggle_apply _ _ _)
    rw [show wrongBits (flipBit goldenCopy 3 0) event = decide (event = ⟨3, 0⟩) from
      wrongBits_flip_goldenCopy ⟨3, 0⟩ event (by decide)] at hwrong
    constructor
    · intro hevent
      simp only [List.mem_cons, List.not_mem_nil, or_false] at hevent
      obtain rfl | rfl := hevent <;> exact ⟨by decide, hwrong.trans (by decide)⟩
    · rintro ⟨-, htrue⟩
      have hnamed := hwrong.symm.trans htrue
      by_cases hfirst : event = ⟨3, 0⟩
      · simp [hfirst]
      · by_cases hsecond : event = ⟨3, 1⟩
        · simp [hsecond]
        · rw [decide_eq_false hfirst, decide_eq_false hsecond] at hnamed
          cases hnamed
  refine ⟨hopen, hevents, fun halike => ?_⟩
  generalize memoryScrubInit startupLayout startupWorld = w at hopen halike
  have hone : OneFlipPerByte (flipBit (flipBit goldenCopy 3 0) 3 1) :=
    oneFlip_of_countsAlike (w := { w with
      scrubArea := flipBit (flipBit goldenCopy 3 0) 3 1 }) hopen hevents halike
  have hsame := hone ⟨3, 0⟩ ⟨3, 1⟩ (by decide) (by decide) (by decide) (by decide) rfl
  exact absurd hsame (by decide)

end Alike

end SpaceBaremetal
