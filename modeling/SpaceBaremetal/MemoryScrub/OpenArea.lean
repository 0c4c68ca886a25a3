import SpaceBaremetal.MemoryScrub.Upsets

namespace SpaceBaremetal

variable {layout : Layout}

section Access

theorem byteRefused_eq_false {regions : List MemoryRegion} {i : Nat} {access : BitVec 32}
    (hgranted : ∀ region ∈ regions, regionOverlaps region (scrubAddress layout i) 1 = true →
      region.permissions &&& access = access) : byteRefused layout regions i access = false := by
  unfold byteRefused
  rw [List.any_eq_false]
  intro region hregion hrefuses
  unfold MemoryRegion.refuses at hrefuses
  rw [Bool.and_eq_true, decide_eq_true_eq] at hrefuses
  exact hrefuses.2 (hgranted region hregion hrefuses.1)

theorem byteRefused_of_open {regions : List MemoryRegion} (hopen : AreaOpen layout regions) {i : Nat}
    (hi : i < SCRUB_SIZE) :
    byteRefused layout regions i MEM_PERM_READ = false ∧
      byteRefused layout regions i MEM_PERM_WRITE = false :=
  ⟨byteRefused_eq_false fun region hregion hoverlap => (hopen region hregion i hi hoverlap).1,
    byteRefused_eq_false fun region hregion hoverlap => (hopen region hregion i hi hoverlap).2⟩

-- On an open area a byte reads as what it is, and what is wrong is repaired.
theorem repairs_iff_of_open {memory : ScrubMemory} (hopen : AreaOpen layout memory.regions)
    (event : FaultEvent) :
    Repairs layout memory event ↔ event.Valid ∧ wrongBits memory.area event = true := by
  unfold Repairs wrongBits readsAs
  rw [bne_iff_ne]
  constructor
  · rintro ⟨hvalid, -, hwrong⟩
    rw [(byteRefused_of_open hopen hvalid.1).1] at hwrong
    exact ⟨hvalid, hwrong⟩
  · rintro ⟨hvalid, hwrong⟩
    obtain ⟨hread, hwrite⟩ := byteRefused_of_open hopen hvalid.1
    rw [hread]
    exact ⟨hvalid, hwrite, hwrong⟩

theorem rewrites_iff_of_open {memory : ScrubMemory} (hopen : AreaOpen layout memory.regions) {i : Nat}
    (hi : i < SCRUB_SIZE) : Rewrites layout memory i ↔ memory.area i ≠ goldenCopy i := by
  obtain ⟨hread, hwrite⟩ := byteRefused_of_open hopen hi
  unfold Rewrites readsAs
  rw [hread, hwrite]
  simp

theorem mem_rewritten {memory : ScrubMemory} {i : Nat} :
    i ∈ rewritten layout memory (List.range SCRUB_SIZE) ↔
      i < SCRUB_SIZE ∧ Rewrites layout memory i := by
  unfold rewritten
  rw [List.mem_filter, List.mem_range, decide_eq_true_eq]

end Access

section Operations

theorem memoryScrubFixEvent_scrub (w : World) (hopen : AreaOpen layout w.scrub.regions)
    (event : FaultEvent) :
    (memoryScrubFixEvent layout (some event) w).2.scrub =
      { w.scrub with area := fixedArea w.scrubArea event } := by
  have hrepairs := repairs_iff_of_open hopen event
  by_cases h : Repairs layout w.scrub event
  · have hread : readsAs layout w.scrub event.index.toNat = w.scrubArea event.index.toNat := by
      unfold readsAs
      rw [(byteRefused_of_open hopen h.1.1).1]
      rfl
    unfold fixedArea
    rw [(memoryScrubFixEvent_of_repairs event w h).2.1, if_pos h.1, hread]
  · have hright : event.Valid → wrongBits w.scrubArea event = false := fun hvalid =>
      Bool.eq_false_of_not_eq_true fun hwrong => h (hrepairs.mpr ⟨hvalid, hwrong⟩)
    rw [(memoryScrubFixEvent_of_not_repairs event w h).2.1, fixedArea_of_right _ _ hright]
    rfl

section Drain

variable {w : World} {queue : BoundedQueue FaultEvent FAULT_QUEUE_LENGTH}
  (hqueue : w.xFaultQueue = some queue)

include hqueue

theorem memoryScrubDrain_of_empty (fuel : Nat) (had : Bool) (hempty : queue.items = []) :
    memoryScrubDrain layout fuel (had, w) = (had, w) := by
  cases fuel with
  | zero => rfl
  | succ fuel =>
    unfold memoryScrubDrain faultQueueReceive
    dsimp only
    rw [hqueue]
    dsimp only
    rw [BoundedQueue.receive_eq_none.mpr hempty]

theorem memoryScrubDrain_of_received (fuel : Nat) (had : Bool) {event : FaultEvent}
    {rest : BoundedQueue FaultEvent FAULT_QUEUE_LENGTH}
    (hreceive : queue.receive = some (event, rest)) :
    memoryScrubDrain layout (fuel + 1) (had, w) =
      memoryScrubDrain layout fuel
        (true, (memoryScrubFixEvent layout (some event) { w with xFaultQueue := some rest }).2) := by
  rw [memoryScrubDrain, faultQueueReceive]
  dsimp only
  rw [hqueue]
  dsimp only
  rw [hreceive]

end Drain

-- Draining fixes every bit that the queue names and leaves the queue empty.
theorem memoryScrubDrain_scrub (fuel : Nat) (had : Bool) (w : World)
    (queue : BoundedQueue FaultEvent FAULT_QUEUE_LENGTH) (hqueue : w.xFaultQueue = some queue)
    (hopen : AreaOpen layout w.scrub.regions) (hfuel : queue.items.length < fuel) :
    (memoryScrubDrain layout fuel (had, w)).2.scrub =
        { w.scrub with
            area := queue.items.foldl fixedArea w.scrubArea
            queue := some BoundedQueue.empty } ∧
      (memoryScrubDrain layout fuel (had, w)).1 = (had || !queue.items.isEmpty) := by
  induction fuel generalizing had w queue with
  | zero => omega
  | succ fuel ih =>
    cases hreceive : queue.receive with
    | none =>
      have hitems := BoundedQueue.receive_eq_none.mp hreceive
      have hempty : queue = BoundedQueue.empty := BoundedQueue.ext_items hitems
      rw [memoryScrubDrain_of_empty hqueue _ had hitems]
      subst hempty
      refine ⟨?_, by simp⟩
      change w.scrub = { w.scrub with area := w.scrubArea, queue := some BoundedQueue.empty }
      rw [← hqueue]
      rfl
    | some received =>
      obtain ⟨event, rest⟩ := received
      have hitems := BoundedQueue.receive_eq_some.mp hreceive
      have hfixed := memoryScrubFixEvent_scrub { w with xFaultQueue := some rest } hopen event
      have hrest := congrArg ScrubMemory.queue hfixed
      have hregions := congrArg ScrubMemory.regions hfixed
      have hrestlen : rest.items.length < fuel := by
        rw [hitems, List.length_cons] at hfuel
        omega
      have harea : World.scrubArea _ = fixedArea w.scrubArea event :=
        congrArg ScrubMemory.area hfixed
      obtain ⟨hscrub, hhad⟩ := ih true _ rest hrest (hregions ▸ hopen) hrestlen
      rw [memoryScrubDrain_of_received hqueue fuel had hreceive, hhad]
      refine ⟨?_, ?_⟩
      · rw [hscrub, harea, hfixed, hitems, List.foldl_cons]
        rfl
      · rw [hitems]
        simp

theorem memoryScrub_scrub (w : World) (hopen : AreaOpen layout w.scrub.regions) :
    (memoryScrub layout w).scrub =
      { w.scrub with
          area := fun i => if i < SCRUB_SIZE then goldenCopy i else w.scrubArea i } := by
  have harea : (fun i => if i ∈ rewritten layout w.scrub (List.range SCRUB_SIZE) then goldenCopy i
      else w.scrubArea i) = fun i => if i < SCRUB_SIZE then goldenCopy i else w.scrubArea i := by
    funext i
    by_cases hi : i < SCRUB_SIZE
    · by_cases hright : w.scrubArea i = goldenCopy i
      · simp [hi, hright]
      · have hrewritten : i ∈ rewritten layout w.scrub (List.range SCRUB_SIZE) :=
          mem_rewritten.mpr ⟨hi, (rewrites_iff_of_open hopen hi).mpr hright⟩
        rw [if_pos hrewritten, if_pos hi]
    · rw [if_neg fun hrewritten => hi (mem_rewritten.mp hrewritten).1, if_neg hi]
  rw [(memoryScrub_spec w).1, harea]

-- A cycle of the scrub task fixes what is queued. It scrubs the whole area
-- only when nothing was queued, and not in SAFE.
theorem memoryScrubBody_scrub (w : World) (queue : BoundedQueue FaultEvent FAULT_QUEUE_LENGTH)
    (hqueue : w.xFaultQueue = some queue) (hopen : AreaOpen layout w.scrub.regions) :
    (memoryScrubBody layout w).scrub =
      if queue.items = [] then
        if w.gSystemState = .Safe then w.scrub else (memoryScrub layout w).scrub
      else
        { w.scrub with
            area := queue.items.foldl fixedArea w.scrubArea
            queue := some BoundedQueue.empty } := by
  have hlen : queue.items.length < FAULT_QUEUE_LENGTH + 1 := Nat.lt_succ_of_le queue.items_le
  obtain ⟨hdrained, hhad⟩ := memoryScrubDrain_scrub _ false w queue hqueue hopen hlen
  unfold memoryScrubBody
  rw [watchdogKick_scrub]
  unfold memoryScrubCycle
  dsimp only
  by_cases hitems : queue.items = []
  · rw [if_pos hitems, memoryScrubDrain_of_empty hqueue _ false hitems]
    by_cases hsafe : w.gSystemState = .Safe
    · rw [if_pos hsafe, if_neg]
      rintro ⟨-, hallowed⟩
      unfold systemStateGet at hallowed
      rw [hsafe] at hallowed
      exact absurd hallowed (by decide)
    · rw [if_neg hsafe, if_pos]
      refine ⟨rfl, ?_⟩
      unfold safePolicyAllowsBackgroundScrub systemStateGet
      simpa using hsafe
  · rw [if_neg hitems, if_neg, hdrained]
    rintro ⟨hnone, -⟩
    rw [hhad] at hnone
    simp [hitems] at hnone

end Operations

end SpaceBaremetal
