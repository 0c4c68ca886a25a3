import Mathlib.Data.List.Infix
import SpaceBaremetal.Fdir.Escalation
import SpaceBaremetal.Fdir.Health

namespace SpaceBaremetal.Fdir

-- The system has not been in NOMINAL at any point of the history.
def NeverNominal (trace : List Event) : Prop :=
  ∀ before, before <+: trace → stateAfter before ≠ .Nominal

instance (trace : List Event) : Decidable (NeverNominal trace) :=
  decidable_of_iff (∀ before ∈ trace.inits, stateAfter before ≠ .Nominal)
    (forall_congr' fun before => by rw [List.mem_inits])

section Gate

variable {imageOk : Bool} {trace before after : List Event}

theorem neverNominal_of_append (h : NeverNominal (before ++ after)) : NeverNominal before := by
  intro earlier hupTo
  exact h earlier (hupTo.trans (List.prefix_append before after))

-- The gate of FaultInject opens in NOMINAL only.
theorem faultInjectCheck_refused (hjudged : History.Each (Judged imageOk) trace)
    (hnever : NeverNominal trace) (tick : Nat) : Event.FaultInjectCheck true tick ∉ trace := by
  intro hmem
  obtain ⟨earlier, later, rfl⟩ := List.append_of_mem hmem
  have hallowed : true = safePolicyAllowsAutoFaultInject (stateAfter earlier) := hjudged _ _ _ rfl
  exact hnever earlier (List.prefix_append _ _) (eq_of_beq hallowed.symm)

-- Before the first NOMINAL nothing kicks for FaultInject.
theorem faultInject_silent (hjudged : History.Each (Judged imageOk) trace)
    (hnever : NeverNominal trace) : kickedBits trace &&& WATCHDOG_BIT_FAULTINJECT = 0 := by
  induction trace using List.reverseRecOn with
  | nil => rfl
  | append_singleton trace event ih =>
    have hearlier := neverNominal_of_append hnever
    have hupTo := History.each_of_append hjudged
    have hevent := hjudged _ event [] rfl
    have hbits : event.deliveredBits &&& WATCHDOG_BIT_FAULTINJECT = 0 := by
      cases event with
      | Kick taskBit delivered tick =>
        cases delivered with
        | false => exact BitVec.zero_and
        | true =>
          change taskBit &&& WATCHDOG_BIT_FAULTINJECT = 0
          obtain rfl | rfl | ⟨-, tick', hcheck⟩ := hevent
          · decide
          · decide
          · exact absurd hcheck (faultInjectCheck_refused hupTo hearlier tick')
      | _ => exact BitVec.zero_and
    rw [kickedBits_concat, BitVec.and_comm, BitVec.and_or_distrib_left, BitVec.and_comm,
      ih hupTo hearlier, BitVec.and_comm, hbits]
    rfl

end Gate

section Main

variable {layout : Layout} {imageOk : Bool} {s : Fdir}

-- A cycle that starts in DEGRADED waits for FaultInject, so before the first
-- NOMINAL it does not end complete.
theorem degraded_cycle_incomplete {cycle : Cycle} (htold : cycle.Told)
    (hexits : ExitsTrack cycle.history) (hjudged : History.Each (Judged imageOk) cycle.history)
    (hnever : NeverNominal cycle.history) (hdegraded : cycle.state = .Degraded) :
    cycle.task.complete = false := by
  rw [← Bool.not_eq_true]
  intro hcomplete
  rw [cycle.history_eq] at hjudged hnever
  have hsilent := faultInject_silent (History.each_of_append hjudged) (neverNominal_of_append hnever)
  cases heard_of_complete htold hexits hcomplete with
  | inl hsafe => exact absurd (hdegraded.symm.trans hsafe) (by simp)
  | inr hheard => exact absurd (hheard.symm.trans hsilent) (by decide)

-- So no recovery has been asked for by then.
theorem no_recovery (h : Transition.Reachable (Initial imageOk) (Step layout) s)
    {before after : List Event} {request : StateRequest} {from_ to_ : SystemState}
    (hsplit : s.trace = before ++ .Handled request from_ to_ :: after) (hnever : NeverNominal before) :
    request.reasonCode ≠ 0x03 := by
  intro hreason
  obtain ⟨-, -, -, hknown, htells, hjudged⟩ := transition_judged h hsplit
  have hexits := exitsTrack_of_reachable h
  rw [hsplit] at hexits
  have hexitsBefore : ExitsTrack before := History.each_of_append hexits
  obtain ⟨cycle, rfl, hstate, hrequested, hasked⟩ := answered_cycle htells hknown (.inr hreason)
  obtain ⟨hcomplete, hdegraded, -⟩ := watchdogRequest_recovery hasked hreason
  have hincomplete := degraded_cycle_incomplete (cycle.told htells) hexitsBefore hjudged hnever
    (hstate.trans hdegraded)
  exact absurd (hcomplete.symm.trans hincomplete) (by simp)

theorem corrupt_image_stays_out_of_nominal (layout : Layout) (s : Fdir)
    (h : Transition.Reachable (Initial false) (Step layout) s) :
    s.world.gSystemState = stateAfter s.trace ∧
      ∀ before event after, s.trace = before ++ event :: after → NeverNominal before →
        stateAfter (before ++ [event]) = .Nominal →
        ∃ request from_, event = .Handled request from_ .Nominal ∧
          operatorRequest .GoNominal = some request := by
  refine ⟨(accounted_of_reachable h).state_eq, ?_⟩
  intro before event after hsplit hnever hnominal
  have hbefore := hnever before List.prefix_rfl
  rw [stateAfter_append] at hnominal
  cases event with
  | Boot booted =>
    obtain ⟨-, hbooted⟩ := (accounted_of_reachable h).judged _ _ _ hsplit
    dsimp only at hnominal
    rw [hbooted] at hnominal
    exact absurd hnominal (by simp)
  | Handled request from_ to_ =>
    dsimp only at hnominal
    subst hnominal
    refine ⟨request, from_, rfl, ?_⟩
    obtain ⟨hfrom, hboot, hto, -⟩ := transition_judged h hsplit
    have hmoves : from_ ≠ applied from_ request := by
      rw [← hto, hfrom]
      exact hbefore
    obtain ⟨happlied, hup | ⟨hnominal, -, hreason⟩⟩ := applied_moves hmoves
    · -- Below NOMINAL there is only BOOT, and that is behind.
      rw [← happlied, ← hto] at hup
      revert hup hboot
      cases from_ <;> simp [SystemState.value]
    · have hoperator := hreason.resolve_left (no_recovery h hsplit hnever)
      exact operatorRequest_goNominal hnominal hoperator
  | _ => exact absurd hnominal hbefore

-- The operator's `n` after a boot with a corrupt image.
def operatorLifts : List Action := [.Boot true, .Command .GoNominal, .Receive, .Handle]

theorem corrupt_image_stays_out_of_nominal_operator :
    ∃ request, operatorRequest .GoNominal = some request ∧
      (run startupLayout (start false) operatorLifts).trace =
        [.Boot .Degraded, .Handled request .Degraded .Nominal] := by
  have htrace : (run startupLayout (start false) operatorLifts).trace =
      [.Boot .Degraded] ++ .Handled ⟨.Nominal, 0x10⟩ .Degraded .Nominal :: [] := by decide +kernel
  obtain ⟨request, from_, hevent, hoperator⟩ :=
    (corrupt_image_stays_out_of_nominal startupLayout _ (reachable_run_start false operatorLifts)).2
      _ _ _ htrace (by decide) (by decide)
  rw [Event.Handled.injEq] at hevent
  refine ⟨request, hoperator, ?_⟩
  rw [htrace, hevent.1]
  rfl

end Main

end SpaceBaremetal.Fdir
