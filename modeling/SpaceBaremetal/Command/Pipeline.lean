import SpaceBaremetal.Command
import SpaceBaremetal.Lib.Transition
import SpaceBaremetal.Operation

namespace SpaceBaremetal

-- The two command tasks around their queue. `held` is the command that the
-- handler has received and not yet executed. The other fields are the history
-- of the run: the keys that were read, each with whether it was accepted, and
-- the commands received and executed.
structure CommandPipeline where
  world : World
  held : Option CommandType
  keys : List (Char × Bool)
  received : List CommandType
  executed : List CommandType

namespace CommandPipeline

-- `command_send` returns pdPASS for the command of the key.
def accepts (c : Char) (w : World) : Bool :=
  match keyCommand c with
  | none => false
  | some cmd => (commandSend cmd w).1

-- The commands that were accepted, in the order of their keys.
def accepted (s : CommandPipeline) : List CommandType :=
  s.keys.flatMap fun key => if key.2 then (keyCommand key.1).toList else []

inductive Step (layout : Layout) : CommandPipeline → CommandPipeline → Prop
  | Key (s : CommandPipeline) (c : Char) (hkey : c ≠ '\r' ∧ c ≠ '\n') :
      Step layout s
        { s with
            world := commandInputBody (some c) s.world
            keys := s.keys ++ [(c, accepts c s.world)] }
  | NewLine (s : CommandPipeline) (c : Char) (hkey : c = '\r' ∨ c = '\n') :
      Step layout s { s with world := commandInputBody (some c) s.world }
  | Receive (s : CommandPipeline) (cmd : CommandType) (w' : World) (hheld : s.held = none)
      (hreceive : commandQueueReceive s.world = some (cmd, w')) :
      Step layout s { s with world := w', held := some cmd, received := s.received ++ [cmd] }
  | Execute (s : CommandPipeline) (cmd : CommandType) (hheld : s.held = some cmd) :
      Step layout s
        { s with
            world := commandHandle layout cmd s.world
            held := none
            executed := s.executed ++ [cmd] }
  -- The rest of the system leaves the command queue alone.
  | Other (s : CommandPipeline) (w' : World) (hqueue : w'.xCommandQueue = s.world.xCommandQueue) :
      Step layout s { s with world := w' }

-- Both tasks are about to enter their loops, and the queue was created.
structure Initial (s : CommandPipeline) : Prop where
  queue_eq : s.world.xCommandQueue = some BoundedQueue.empty
  held_eq : s.held = none
  keys_eq : s.keys = []
  received_eq : s.received = []
  executed_eq : s.executed = []

section Keys

def helpText : List String :=
  ["Commands:\r\n", "  s  status (DEBUG telemetry snapshot)\r\n",
    "  n  request NOMINAL state\r\n", "  d  request DEGRADED state\r\n",
    "  a  request SAFE state\r\n", "  f  inject one fault now\r\n",
    "  r  force full memory scrub\r\n", "  v  print memory protection violation count\r\n",
    "  u  print SEU count\r\n", "  x  toggle automatic fault injection\r\n",
    "  l  dump flight recorder log\r\n", "  h  show this help\r\n"].map (LOG_PREFIX_CMD ++ ·)

def unknownKeyText (c : Char) : List String :=
  [LOG_PREFIX_CMD ++ "unknown key '", String.singleton c, "' (h for help)\r\n"]

def queueFullText : List String := [LOG_PREFIX_CMD ++ "queue full\r\n"]

-- The one report that a key which is not accepted gets.
def report (c : Char) : List String :=
  if (keyCommand c).isSome then queueFullText
  else if c = 'h' ∨ c = '?' then helpText
  else unknownKeyText c

theorem commandPrintHelp_eq (w : World) : commandPrintHelp w = uartWrite helpText w := by
  simp [commandPrintHelp, helpText]

theorem commandSend_refused {cmd : CommandType} {w : World} (h : (commandSend cmd w).1 = false) :
    (commandSend cmd w).2 = w := by
  unfold commandSend at h ⊢
  cases hqueue : w.xCommandQueue with
  | none => rfl
  | some queue =>
    rw [hqueue] at h
    dsimp only at h ⊢
    rw [BoundedQueue.send_of_refused h, ← hqueue]

-- A key that is not accepted does nothing but print its report.
theorem commandInputBody_not_accepted {c : Char} {w : World} (hkey : c ≠ '\r' ∧ c ≠ '\n')
    (h : accepts c w = false) : commandInputBody (some c) w = uartWrite (report c) w := by
  unfold accepts at h
  unfold commandInputBody commandDispatchChar report
  dsimp only
  rw [if_neg (by rintro (hcr | hlf); exacts [hkey.1 hcr, hkey.2 hlf])]
  cases hcommand : keyCommand c with
  | none =>
    by_cases hhelp : c = 'h' ∨ c = '?'
    · simp [hhelp, commandPrintHelp_eq]
    · simp [hhelp, unknownKeyText]
  | some cmd =>
    rw [hcommand] at h
    dsimp only at h ⊢
    rw [if_neg (by decide), if_pos h, commandSend_refused h]
    rfl

-- A key that is accepted puts its command into the queue and prints nothing.
theorem commandInputBody_accepted {c : Char} {w : World}
    {queue : BoundedQueue CommandType COMMAND_QUEUE_LENGTH} (hkey : c ≠ '\r' ∧ c ≠ '\n')
    (hqueue : w.xCommandQueue = some queue) (h : accepts c w = true) :
    ∃ cmd, keyCommand c = some cmd ∧ (queue.send cmd).1 = true ∧
      commandInputBody (some c) w = { w with xCommandQueue := some (queue.send cmd).2 } := by
  unfold accepts at h
  cases hcommand : keyCommand c with
  | none =>
    rw [hcommand] at h
    cases h
  | some cmd =>
    rw [hcommand] at h
    have hsend : commandSend cmd w =
        ((queue.send cmd).1, { w with xCommandQueue := some (queue.send cmd).2 }) := by
      unfold commandSend
      rw [hqueue]
    dsimp only at h
    rw [hsend] at h
    refine ⟨cmd, rfl, h, ?_⟩
    unfold commandInputBody commandDispatchChar
    dsimp only
    rw [if_neg (by rintro (hcr | hlf); exacts [hkey.1 hcr, hkey.2 hlf]), hcommand]
    dsimp only
    rw [if_neg (by decide), hsend, if_neg (by rw [h]; decide)]

end Keys

section Invariant

variable {layout : Layout}

-- The queue holds exactly the accepted commands that have not been received,
-- and the handler executes what it receives.
def Flow (s : CommandPipeline) : Prop :=
  ∃ queue, s.world.xCommandQueue = some queue ∧ s.accepted = s.received ++ queue.items ∧
    s.received = s.executed ++ s.held.toList

theorem accepted_key (s : CommandPipeline) (key : Char × Bool) (w : World) :
    accepted { s with world := w, keys := s.keys ++ [key] } =
      s.accepted ++ if key.2 then (keyCommand key.1).toList else [] := by
  simp [accepted]

theorem flow_key (s : CommandPipeline) (c : Char) (hkey : c ≠ '\r' ∧ c ≠ '\n') (h : s.Flow) :
    Flow
      { s with
          world := commandInputBody (some c) s.world
          keys := s.keys ++ [(c, accepts c s.world)] } := by
  obtain ⟨queue, hqueue, haccepted, hreceived⟩ := h
  cases haccepts : accepts c s.world with
  | true =>
    obtain ⟨cmd, hcommand, hsent, hbody⟩ := commandInputBody_accepted hkey hqueue haccepts
    have hflow := BoundedQueue.send_flow cmd haccepted
    rw [hsent, if_pos rfl] at hflow
    refine ⟨(queue.send cmd).2, ?_, ?_, hreceived⟩
    · dsimp only
      rw [hbody]
    · rw [accepted_key, if_pos rfl, hcommand]
      exact hflow
  | false =>
    refine ⟨queue, ?_, ?_, hreceived⟩
    · dsimp only
      rw [commandInputBody_not_accepted hkey haccepts, uartWrite_xCommandQueue]
      exact hqueue
    · rw [accepted_key]
      simpa using haccepted

theorem commandQueueReceive_some {w w' : World} {cmd : CommandType}
    (h : commandQueueReceive w = some (cmd, w')) :
    ∃ queue rest, w.xCommandQueue = some queue ∧ queue.receive = some (cmd, rest) ∧
      w'.xCommandQueue = some rest := by
  unfold commandQueueReceive at h
  cases hqueue : w.xCommandQueue with
  | none =>
    rw [hqueue] at h
    cases h
  | some queue =>
    rw [hqueue] at h
    dsimp only at h
    cases hreceive : queue.receive with
    | none =>
      rw [hreceive] at h
      cases h
    | some taken =>
      rw [hreceive] at h
      obtain ⟨rfl, rfl⟩ := Prod.mk.inj (Option.some.inj h)
      exact ⟨queue, taken.2, rfl, hreceive, rfl⟩

theorem commandHandle_xCommandQueue (cmd : CommandType) (w : World) :
    (commandHandle layout cmd w).xCommandQueue = w.xCommandQueue := by
  have h := congrArg Operation.commandQueue (commandHandle_operation layout cmd w)
  split_ifs at h <;> exact h

theorem flow_step {s s' : CommandPipeline} (h : s.Flow) (hstep : Step layout s s') : s'.Flow := by
  cases hstep with
  | Key c hkey => exact flow_key s c hkey h
  | NewLine c hkey =>
    have hbody : commandInputBody (some c) s.world = s.world := if_pos hkey
    rw [hbody]
    exact h
  | Receive cmd w' hheld hreceive =>
    obtain ⟨queue, hqueue, haccepted, hreceived⟩ := h
    obtain ⟨queue', rest, hqueue', hreceive, hrest⟩ := commandQueueReceive_some hreceive
    obtain rfl := Option.some.inj (hqueue.symm.trans hqueue')
    refine ⟨rest, hrest, BoundedQueue.receive_flow haccepted hreceive, ?_⟩
    dsimp only
    rw [hreceived, hheld]
    simp
  | Execute cmd hheld =>
    obtain ⟨queue, hqueue, haccepted, hreceived⟩ := h
    refine ⟨queue, (commandHandle_xCommandQueue cmd s.world).trans hqueue, haccepted, ?_⟩
    dsimp only
    rw [hreceived, hheld]
    simp
  | Other w' hqueue' =>
    obtain ⟨queue, hqueue, hflow⟩ := h
    exact ⟨queue, hqueue'.trans hqueue, hflow⟩

theorem flow_reachable {s : CommandPipeline} (h : Transition.Reachable Initial (Step layout) s) :
    s.Flow := by
  have hinit : ∀ s, Initial s → s.Flow := by
    intro s hinit
    refine ⟨BoundedQueue.empty, hinit.queue_eq, ?_, ?_⟩
    · simp [accepted, hinit.keys_eq, hinit.received_eq]
    · simp [hinit.received_eq, hinit.executed_eq, hinit.held_eq]
  have hstep : ∀ s s', s.Flow → Step layout s s' → s'.Flow := fun _ _ => flow_step
  exact Transition.invariant_of_step hinit hstep h

end Invariant

section Result

theorem command_pipeline_lossless (layout : Layout) (s : CommandPipeline)
    (h : Transition.Reachable Initial (Step layout) s) :
    s.executed <+: s.accepted ∧
      s.received <+: s.accepted ∧
      s.accepted.length ≤ s.received.length + COMMAND_QUEUE_LENGTH ∧
      ∀ c : Char, c ≠ '\r' ∧ c ≠ '\n' → accepts c s.world = false →
        ∃ text ∈ [helpText, unknownKeyText c, queueFullText],
          (commandInputBody (some c) s.world).uart = s.world.uart ++ text ∧
            (commandInputBody (some c) s.world).xCommandQueue = s.world.xCommandQueue := by
  obtain ⟨queue, -, haccepted, hreceived⟩ := flow_reachable h
  have hfirst : s.received <+: s.accepted := ⟨queue.items, haccepted.symm⟩
  refine ⟨?_, hfirst, ?_, ?_⟩
  · have hexecuted : s.executed <+: s.received := ⟨s.held.toList, hreceived.symm⟩
    exact hexecuted.trans hfirst
  · have hlength := queue.items_le
    rw [haccepted, List.length_append]
    omega
  · intro c hkey hnot
    refine ⟨report c, ?_, ?_, ?_⟩
    · unfold report
      split_ifs <;> simp
    · rw [commandInputBody_not_accepted hkey hnot, uartWrite_uart]
    · rw [commandInputBody_not_accepted hkey hnot, uartWrite_xCommandQueue]

-- The key 'n', received by the handler.
theorem command_pipeline_lossless_key :
    [CommandType.GoNominal] <+:
      accepted
        { world := commandInit true startupWorld
          held := some .GoNominal
          keys := [('n', true)]
          received := [.GoNominal]
          executed := [] } := by
  have hstart : Transition.Reachable Initial (Step startupLayout)
      { world := commandInit true startupWorld
        held := none
        keys := []
        received := []
        executed := [] } :=
    Transition.reachable_of_init ⟨rfl, rfl, rfl, rfl, rfl⟩
  have hkey := Transition.reachable_step hstart (.Key _ 'n' (by decide))
  have hreceived := Transition.reachable_step hkey (.Receive _ .GoNominal _ rfl rfl)
  exact (command_pipeline_lossless startupLayout _ hreceived).2.1

end Result

end CommandPipeline

end SpaceBaremetal
