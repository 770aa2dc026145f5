import N8n.Engine.FilledStack
import N8n.Engine.ProcessRunExecutionData

/-!
# Stranded waiting nodes

The loop looks for waiting nodes at the end of an iteration, when the stack is
empty.  An iteration that ends before this check may be the last one, and then
a waiting node that could be executed is left behind.  In a run in which no
such iteration empties the stack none is.
-/

namespace N8n

open StateExcept WorkflowExecute

section Exits

/-- A call that ends the iteration of its node before the check, behind which
no waiting node could be executed. -/
def NodeCall.keepsChecking (call : NodeCall) (workflow : Workflow)
    (state : RunExecutionData) (iteration : Iteration) : Bool :=
  match call.outcome with
  | .returned none _ =>
    iteration.executionNode.alwaysOutputData == some true ||
      state.waitTill || call.putsToWait || !decide (Stranded workflow state)
  | .requested request =>
    match prepareRequestingNodeForResuming iteration.executionData with
    | none => !decide (Stranded workflow state)
    | some _ => (iteration.executionNode.name ::
        request.actions.map EngineAction.nodeName).any fun nodeName =>
          workflow.numberOfInputs nodeName ≤ 1
  | _ => true

abbrev WorkflowExecute.nodeExecutionStack (run : WorkflowExecute) : List IExecuteData :=
  run.runExecutionData.executionData.nodeExecutionStack

/-- The stack runs empty before the check only where the check would find no
node.  The loop may begin with an empty stack, the last entry may be outside
the filter, and the call of a node may put nothing on the stack. -/
def WorkflowExecute.keepsChecking (workflow : Workflow)
    (run : WorkflowExecute) (event : RunEvent) : Bool :=
  let stranded := decide (Stranded workflow run.runExecutionData)
  match event, run.phase with
  | .resolves, .establishingContext | .resolves, .workflowExecuteBefore =>
    !(run.nodeExecutionStack.isEmpty && stranded)
  | .loops _, .loopHead =>
    !(run.nodeExecutionStack.length == 1 && (run.nodeExecutionStack.any fun executionData =>
        run.runExecutionData.isFiltered executionData.node.name) && stranded)
  | .nodeEnds call, .runningNode iteration
  | .nodeEnds call, .runningNodeAgain iteration =>
    !run.nodeExecutionStack.isEmpty || call.keepsChecking workflow run.runExecutionData iteration
  | _, _ => true

/-- `keepsChecking` as a condition on the steps of a run. -/
def WorkflowExecute.KeepsChecking (workflow : Workflow)
    (run : WorkflowExecute) (event : RunEvent) : Prop :=
  run.keepsChecking workflow event = true

instance (workflow : Workflow) (run : WorkflowExecute) (event : RunEvent) :
    Decidable (run.KeepsChecking workflow event) :=
  inferInstanceAs (Decidable (_ = _))

end Exits

namespace WorkflowExecute

/-- The loop ends, and the call resolves, only in a settled state. -/
def Checked (workflow : Workflow) (run : WorkflowExecute) : Prop :=
  match run.phase with
  | .loopHead | .loopEnded | .closing _ | .workflowExecuteAfter _ =>
    Settled workflow run.runExecutionData
  | .nodeFailed => run.nodeExecutionStack ≠ []
  | .failureHook result | .failureClosing result => result.error ≠ none
  | .returning result | .resolved result =>
    result.error = none → Settled workflow run.runExecutionData
  | _ => True

section LoopStep

variable {workflow : Workflow} {additionalData : WorkflowExecuteAdditionalData}
  {run next : WorkflowExecute} {iteration : Iteration}

theorem checked_attempt {α : Type} {computation : Engine α}
    {goOn : WorkflowExecute → α → WorkflowExecute} (goesOn : ∀ data value,
      exec computation run.runExecutionData = (.ok value, data) →
      Checked workflow (goOn { run with runExecutionData := data } value)) :
    Checked workflow (run.attempt computation goOn) := by
  rw [attempt]
  cases ran : exec computation run.runExecutionData with
  | mk outcome data =>
    cases outcome with
    | ok value => exact goesOn data value ran
    | error error => trivial

theorem checked_continueIteration :
    Checked workflow (run.continueIteration workflow iteration) := by
  rw [continueIteration]
  split
  · trivial
  · dsimp only
    split
    · trivial
    · split
      · trivial
      · apply checked_attempt
        intro data _ _
        trivial

theorem checked_afterTries : Checked workflow (run.afterTries workflow iteration) := by
  rw [afterTries]
  split
  · trivial
  · exact checked_continueIteration

theorem checked_failTry (error : ExecutionError) :
    Checked workflow (run.failTry workflow iteration error) := by
  rw [failTry]
  split
  · split
    · trivial
    · trivial
  · exact checked_afterTries

theorem checked_failIteration : Checked workflow (run.failIteration workflow iteration) := by
  rw [failIteration]
  split
  · exact checked_continueIteration
  · dsimp only
    split
    · intro emptied
      simp [unshiftItem] at emptied
    · simp [Checked, runHook, unshiftItem]

variable {nodeSuccessData : Option NodeSuccessData} {executionData : IExecuteData}

theorem alwaysOutputData_eq_none
    (ended : alwaysOutputData nodeSuccessData executionData = .ok none) :
    nodeSuccessData = none ∧ executionData.node.alwaysOutputData ≠ some true := by
  rw [alwaysOutputData] at ended
  split at ended
  · split at ended
    · cases ended
    · cases ended
  next silent =>
    cases ended
    refine ⟨rfl, ?_⟩
    intro always
    apply silent
    exact ⟨rfl, always⟩

theorem assignPairedItems_eq_none
    (paired : assignPairedItems nodeSuccessData executionData = .ok none) :
    nodeSuccessData = none := by
  unfold assignPairedItems at paired
  split at paired
  · rfl
  · cases paired
  · split at paired
    · cases paired
    · obtain ⟨_, _, paired⟩ := Except.bind_eq_ok_iff.mp paired
      obtain ⟨_, _, paired⟩ := Except.bind_eq_ok_iff.mp paired
      cases paired

theorem checked_endTry (ends : nodeSuccessData = none →
      iteration.executionNode.alwaysOutputData ≠ some true →
      run.runExecutionData.waitTill = false →
      Settled workflow run.runExecutionData) :
    Checked workflow (run.endTry workflow iteration nodeSuccessData) := by
  rw [endTry]
  split
  · exact checked_failTry _
  next paired pairs =>
    have stays : paired = none → (if paired.isSome then
        run.setLastNodeExecuted iteration else run) = run := by
      rintro rfl
      rfl
    dsimp only
    generalize (if paired.isSome then run.setLastNodeExecuted iteration
      else run) = kept at stays
    split
    · exact checked_failTry _
    next output outputs =>
      split
      next ended =>
        obtain ⟨noOutput, notWaiting⟩ := ended
        subst noOutput
        obtain ⟨unpaired, silent⟩ := alwaysOutputData_eq_none outputs
        have noData : nodeSuccessData = none := assignPairedItems_eq_none (unpaired ▸ pairs)
        rw [stays unpaired] at notWaiting ⊢
        exact ends noData silent notWaiting
      · exact checked_afterTries

theorem checked_startTry : Checked workflow (run.startTry workflow iteration) := by
  rw [startTry]
  split
  · trivial
  · apply checked_endTry
    intro absent
    cases absent

theorem separateErrors_eq_none {getPairedItem : GetPairedItem}
    (separated : separateErrors workflow getPairedItem iteration
      nodeSuccessData = .ok none) : nodeSuccessData = none := by
  unfold separateErrors at separated
  split at separated
  · rfl
  · split at separated
    · obtain ⟨_, _, separated⟩ := Except.bind_eq_ok_iff.mp separated
      cases separated
    · cases separated

theorem settled_applyCall {call : NodeCall} (settled : Settled workflow run.runExecutionData) :
    Settled workflow (run.applyCall call).runExecutionData := by
  obtain ⟨sameData, sameFilter, _⟩ := writeSubNodeRun_same run.runExecutionData call.subNodeRuns
  exact settled_congr settled sameData sameFilter

theorem checked_receiveOutcome {call : NodeCall} (keeps : run.nodeExecutionStack = [] →
      call.keepsChecking workflow run.runExecutionData iteration = true)
    {current : Iteration} (same : current.executionData = iteration.executionData) :
    Checked workflow ((run.applyCall call).receiveOutcome workflow
      additionalData current call.outcome) := by
  have sameNode : current.executionNode = iteration.executionNode := congrArg IExecuteData.node same
  obtain ⟨sameData, sameFilter, sameWait⟩ :=
    writeSubNodeRun_same run.runExecutionData call.subNodeRuns
  have sameStack : (run.applyCall call).runExecutionData.executionData =
      run.runExecutionData.executionData := sameData
  cases outcome : call.outcome with
  | threw error => exact checked_failTry error
  | requested request =>
    rw [receiveOutcome]
    cases ran : exec (handleEngineRequest workflow current.executionNode request current.runIndex
        current.executionData) (run.applyCall call).runExecutionData with
    | mk handled last =>
      cases handled with
      | error error => exact checked_failTry error
      | ok _ =>
        obtain ⟨kept, scheduled⟩ := handleEngineRequest_spec ran
        intro emptied
        have wasEmpty : run.nodeExecutionStack = [] := by
          by_contra filled
          exact kept (sameStack ▸ filled) emptied
        have keepsEmpty := keeps wasEmpty
        simp only [NodeCall.keepsChecking, outcome] at keepsEmpty
        rw [same] at scheduled
        cases resumed : prepareRequestingNodeForResuming iteration.executionData with
        | none =>
          rw [resumed] at scheduled keepsEmpty
          have settled : Settled workflow run.runExecutionData :=
            fun _ => by simpa using keepsEmpty
          have after := settled_congr (settled_applyCall settled) scheduled.1 scheduled.2
          exact after emptied
        | some _ =>
          rw [resumed] at scheduled keepsEmpty
          obtain ⟨nodeName, mem, single⟩ := List.any_eq_true.mp keepsEmpty
          exact absurd emptied (scheduled nodeName mem (of_decide_eq_true single))
  | returned data closeFunction =>
    simp only [receiveOutcome]
    split
    · trivial
    · split
      · exact checked_failTry _
      next output separated =>
        apply checked_endTry
        intro absent silent notWaiting
        subst absent
        have noData : data = none := separateErrors_eq_none separated
        subst noData
        have notYet : (run.applyCall call).runExecutionData.waitTill =
          false := notWaiting
        simp only [applyCall, sameWait, Bool.or_eq_false_iff] at notYet
        have settled : Settled workflow run.runExecutionData := by
          intro wasEmpty
          have keepsEmpty := keeps wasEmpty
          simp only [NodeCall.keepsChecking, outcome, Bool.or_eq_true,
            beq_iff_eq, Bool.not_eq_true', decide_eq_false_iff_not]
            at keepsEmpty
          rcases keepsEmpty with ((always | waits) | waits) | unstranded
          · exact absurd always (sameNode ▸ silent)
          · rw [notYet.1] at waits
            cases waits
          · rw [notYet.2] at waits
            cases waits
          · exact unstranded
        exact settled_applyCall settled

/-- A skipped entry leaves the stack, a deferred one goes back to it. -/
theorem checked_startIteration {taken : IExecuteData}
    (skips : run.runExecutionData.isFiltered taken.node.name = true →
      Settled workflow run.runExecutionData) :
    Checked workflow (run.startIteration workflow taken) := by
  apply checked_attempt
  intro data start began
  have spec := beginIteration_spec began
  cases start with
  | skipped =>
    obtain ⟨filtered, sameData, sameFilter⟩ := spec
    exact settled_congr (skips filtered) sameData sameFilter
  | deferred currentExecutionTry =>
    intro emptied
    exact absurd emptied spec
  | started iteration =>
    dsimp only
    split
    · exact checked_startTry
    · trivial

theorem checked_loop (now : Nat) (settled : Settled workflow run.runExecutionData)
    (keeps : run.nodeExecutionStack.length = 1 → (run.nodeExecutionStack.any fun executionData =>
        run.runExecutionData.isFiltered executionData.node.name) = true →
      ¬ Stranded workflow run.runExecutionData) :
    Checked workflow (run.loop workflow additionalData now) := by
  rw [loop]
  split
  · exact settled
  next taken rest stack =>
    have stays : Settled workflow run.runExecutionData := by
      intro emptied
      rw [stack] at emptied
      cases emptied
    have goesOn : run.runExecutionData.isFiltered taken.node.name = true →
        Settled workflow { run.runExecutionData with
            executionData :=
              { run.runExecutionData.executionData with
                nodeExecutionStack := rest } } := by
      intro filtered emptied
      have last : rest = [] := emptied
      subst last
      have unstranded : ¬ Stranded workflow run.runExecutionData := by
        apply keeps
        · rw [nodeExecutionStack, stack]
          rfl
        · rw [nodeExecutionStack, stack, List.any_cons, filtered, Bool.true_or]
      rintro ⟨nodeName, schedulable⟩
      apply unstranded
      exact ⟨nodeName, schedulable.waits, schedulable.inFilter, schedulable.released⟩
    dsimp only
    split
    · split
      · exact stays
      · exact checked_startIteration goesOn
    · split
      · exact stays
      · exact checked_startIteration goesOn

theorem settled_finishExecution {executionError : Option ExecutionError}
    (settled : Settled workflow run.runExecutionData) :
    Checked workflow (run.finishExecution executionError) := by
  rw [finishExecution]
  split
  · exact fun _ => settled
  · exact settled

theorem checked_resolve (checked : Checked workflow run)
    (keeps : run.KeepsChecking workflow .resolves)
    (undone : run.phase ≠ .destinationReached)
    (resolved : run.resolve workflow additionalData = some next) :
    Checked workflow next := by
  unfold KeepsChecking keepsChecking at keeps
  unfold Checked at checked
  rw [resolve] at resolved
  cases phase : run.phase with
  | establishingContext =>
    simp only [phase] at resolved keeps
    split at resolved
    · cases resolved
      trivial
    · cases resolved
      intro emptied
      have wasEmpty : run.nodeExecutionStack = [] := emptied
      simpa [wasEmpty] using keeps
  | workflowExecuteBefore =>
    simp only [phase] at resolved keeps
    cases resolved
    intro emptied
    have wasEmpty : run.nodeExecutionStack = [] := emptied
    simpa [wasEmpty] using keeps
  | nodeExecuteBefore iteration | waitingBetweenTries iteration =>
    simp only [phase] at resolved
    cases resolved
    exact checked_startTry
  | sleeping iteration =>
    simp only [phase] at resolved
    cases resolved
    trivial
  | sendingChunk iteration =>
    simp only [phase] at resolved
    cases resolved
    exact checked_failIteration
  | nodeFailed =>
    simp only [phase] at resolved checked
    cases resolved
    intro emptied
    exact absurd emptied checked
  | nodeWaits iteration =>
    simp only [phase] at resolved
    cases resolved
    intro emptied
    simp [unshiftItem] at emptied
  | destinationReached => exact absurd phase undone
  | nodeExecuteAfter =>
    simp only [phase] at resolved
    cases resolved
    apply checked_attempt
    intro data _ ok
    exact checkWaitingNodes_settled ok
  | loopEnded =>
    simp only [phase] at resolved checked
    cases resolved
    rw [processSuccessExecution]
    split
    · exact checked
    · exact settled_finishExecution checked
  | threw error =>
    simp only [phase] at resolved
    cases resolved
    simp [Checked, processFailure, runHook]
  | closing executionError =>
    simp only [phase] at resolved checked
    cases resolved
    exact settled_finishExecution checked
  | workflowExecuteAfter fullRunData =>
    simp only [phase] at resolved checked
    cases resolved
    exact fun _ => checked
  | failureHook fullRunData =>
    simp only [phase] at resolved checked
    split at resolved
    · cases resolved
      exact checked
    · cases resolved
      exact fun noError => absurd noError checked
  | failureClosing fullRunData =>
    simp only [phase] at resolved checked
    cases resolved
    exact fun noError => absurd noError checked
  | returning fullRunData =>
    simp only [phase] at resolved checked
    cases resolved
    exact checked
  | _ => simp [phase] at resolved

theorem checked_reject {error : ExecutionError} (checked : Checked workflow run)
    (rejected : run.reject workflow additionalData error = some next) :
    Checked workflow next := by
  rw [reject] at rejected
  split at rejected
  · cases rejected
    rw [failBeforeLoop]
    split <;> trivial
  · cases rejected
    rw [failBeforeLoop]
    dsimp only
    split <;> trivial
  all_goals first
    | cases rejected
      trivial
    | rename_i phase
      apply checked_resolve checked _ _ rejected
      · simp [KeepsChecking, keepsChecking, phase]
      · simp [phase]
    | cases rejected

theorem checked_cancel (checked : Checked workflow run) : Checked workflow run.cancel := by
  have settles : Settled workflow run.runExecutionData →
      Settled workflow run.cancel.runExecutionData :=
    fun settled => settled_congr settled rfl rfl
  have samePhase : run.cancel.phase = run.phase := rfl
  unfold Checked at checked ⊢
  rw [samePhase]
  cases phase : run.phase with
  | loopHead | loopEnded | closing executionError
  | workflowExecuteAfter fullRunData =>
    simp only [phase] at checked
    exact settles checked
  | returning fullRunData | resolved fullRunData =>
    simp only [phase] at checked
    exact fun noError => settles (checked noError)
  | nodeFailed | failureHook fullRunData | failureClosing fullRunData =>
    simp only [phase] at checked
    exact checked
  | _ => trivial

theorem checked_step {event : RunEvent} (checked : Checked workflow run)
    (keeps : run.KeepsChecking workflow event)
    (undone : run.phase ≠ .destinationReached)
    (moved : step workflow additionalData run event = some next) :
    Checked workflow next := by
  cases event with
  | cancel =>
    simp only [step] at moved
    split at moved
    · cases moved
    · cases moved
      exact checked_cancel checked
  | loops now =>
    simp only [step] at moved
    split at moved
    next phase =>
      cases moved
      simp only [KeepsChecking, keepsChecking, phase] at keeps
      unfold Checked at checked
      simp only [phase] at checked
      apply checked_loop now checked
      intro single filtered
      simpa [single, filtered] using keeps
    · cases moved
  | tries =>
    simp only [step] at moved
    split at moved
    · cases moved
      exact checked_startTry
    · cases moved
  | resolves => exact checked_resolve checked keeps undone moved
  | rejects error => exact checked_reject checked moved
  | nodeEnds call =>
    simp only [step] at moved
    split at moved
    next iteration phase =>
      cases moved
      simp only [KeepsChecking, keepsChecking, phase] at keeps
      refine checked_receiveOutcome ?_ rfl
      intro emptied
      simpa [emptied] using keeps
    next iteration phase =>
      cases moved
      simp only [KeepsChecking, keepsChecking, phase] at keeps
      have keepsEmpty : run.nodeExecutionStack = [] →
          call.keepsChecking workflow run.runExecutionData iteration =
            true := by
        intro emptied
        simpa [emptied] using keeps
      apply checked_receiveOutcome keepsEmpty
      split
      · rfl
      · rfl
    · cases moved

end LoopStep

section Run

variable {workflow : Workflow} {additionalData : WorkflowExecuteAdditionalData}

/-- The run ends with an empty stack and without error, cancellation or
`waitTill`. -/
structure EndsRegularly (run : WorkflowExecute) (result : IRun) : Prop where
  resolved : run.phase = .resolved result
  emptied : run.nodeExecutionStack = []
  noError : result.error = none
  uncanceled : result.status ≠ .canceled
  notWaiting : result.waitTill = false

/-- A run that keeps checking until its stack is empty leaves no node
stranded, unless it stops behind the destination node. -/
theorem not_stranded_of_keepsChecking {data : RunExecutionData}
    {start last : WorkflowExecute} {events : List RunEvent} {result : IRun}
    (started : processRunExecutionData data = .ok start)
    (reached : (step workflow additionalData).run start events = some last)
    (ends : last.EndsRegularly result)
    (undone : (step workflow additionalData).Meets
      (fun run _ => run.phase ≠ .destinationReached) start events)
    (keeps : (step workflow additionalData).Meets (KeepsChecking workflow)
      start events) : ¬ Stranded workflow last.runExecutionData := by
  have begun : Checked workflow start := by
    obtain ⟨state, _, same⟩ := Except.bind_eq_ok_iff.mp started
    cases same
    trivial
  have checked : Checked workflow last := by
    refine Machine.invariant_of_meets (Checked workflow) ?_ begun (undone.and keeps) reached
    intro run event next checked met stepped
    exact checked_step checked met.2 met.1 stepped
  unfold Checked at checked
  rw [ends.resolved] at checked
  exact checked ends.noError ends.emptied

end Run

namespace StrandedExample

def connectTo (inputs : List (String × Int)) : INodeConnections :=
  OrderedMap.empty.set .main [some (inputs.map fun (nodeName, index) =>
    { node := nodeName
      type := .main
      index := index })]

def workflow : Workflow :=
  { nodes := Workflow.setNodes [{ name := "Trigger" }, { name := "Side" },
      { name := "Other" }, { name := "Merge", type := "merge" },
      { name := "Result" }]
    connectionsBySourceNode := ((OrderedMap.empty.set "Trigger"
      (connectTo [("Merge", 0), ("Side", 0)])).set "Other"
        (connectTo [("Merge", 1)])).set "Merge" (connectTo [("Result", 0)])
    executionOrder := some .v1
    getByNameAndVersion := fun type _ =>
      if type = "merge" then
        { inputsLength := 2
          requiredInputs := some (.count 1) }
      else {}
    nodes_named := Workflow.setNodes_named _ }

def start : WorkflowExecute :=
  { runExecutionData := { executionData := { nodeExecutionStack :=
              [{ node := { name := "Trigger" }
                 data := .ofMain [.value [INodeExecutionData.blank]]
                 source := none }] } } }

/-- The run of a part of the workflow that ends with the node `Result`. -/
def startToResult : WorkflowExecute :=
  { runExecutionData :=
      { start.runExecutionData with
        runNodeFilter := some ["Merge", "Trigger", "Other", "Result"]
        destinationNode := some "Result" } }

def executesNode (data : Option NodeSuccessData) : List RunEvent :=
  [.loops 0, .resolves, .nodeEnds { outcome := .returned data false }]

def returnsItem : List RunEvent :=
  executesNode (some [.value [INodeExecutionData.blank]]) ++ [.resolves]

def begins : List RunEvent := [.resolves, .resolves]

def finishes : List RunEvent := [.loops 0, .resolves, .resolves, .resolves]

def undone (start : WorkflowExecute) (events : List RunEvent) : Prop :=
  (step workflow {}).Meets (fun run _ => run.phase ≠ .destinationReached) start events

instance (start : WorkflowExecute) (events : List RunEvent) : Decidable (undone start events) :=
  Machine.decidableMeets start events

theorem endsRegularly_of (start : WorkflowExecute) (events : List RunEvent) (stranded : Bool)
    (observed : ((step workflow {}).run start events).map (fun last =>
      (last.phase, last.nodeExecutionStack, decide (Stranded workflow last.runExecutionData))) =
          some (.resolved { status := .success, finished := true }, [], stranded)) :
    ∃ last result, (step workflow {}).run start events = some last ∧ last.EndsRegularly result ∧
        decide (Stranded workflow last.runExecutionData) = stranded := by
  obtain ⟨last, reached, same⟩ := Option.map_eq_some_iff.mp observed
  simp only [Prod.mk.injEq] at same
  obtain ⟨resolved, emptied, same⟩ := same
  refine ⟨last, { status := .success, finished := true }, reached, ?_, same⟩
  exact
    { resolved := resolved
      emptied := emptied
      noError := rfl
      uncanceled := nofun
      notWaiting := rfl }

/-- The merge node executes with one input, and the node behind it. -/
theorem not_stranded_mergeWithOneInput :
    ∃ last, (step workflow {}).run start (begins ++ returnsItem ++
        returnsItem ++ returnsItem ++ returnsItem ++ finishes) = some last ∧
      ¬ Stranded workflow last.runExecutionData := by
  obtain ⟨last, result, reached, ends, _⟩ := endsRegularly_of start
    (begins ++ returnsItem ++ returnsItem ++ returnsItem ++ returnsItem ++
      finishes) false (by decide +kernel)
  refine ⟨last, reached, ?_⟩
  have started : processRunExecutionData start.runExecutionData = .ok start := rfl
  apply not_stranded_of_keepsChecking started reached ends
  · decide +kernel
  · decide +kernel

/-- The run ends regularly behind its start, before the destination node, and
leaves a node stranded. -/
def LeavesStranded (start : WorkflowExecute) (events : List RunEvent) : Prop :=
  ∃ last result, processRunExecutionData start.runExecutionData = .ok start ∧
      (step workflow {}).run start events = some last ∧
      last.EndsRegularly result ∧ undone start events ∧
      Stranded workflow last.runExecutionData

theorem leavesStranded_of (start : WorkflowExecute) (events : List RunEvent)
    (started : processRunExecutionData start.runExecutionData = .ok start)
    (observed : ((step workflow {}).run start events).map (fun last =>
      (last.phase, last.nodeExecutionStack, decide (Stranded workflow last.runExecutionData))) =
          some (.resolved { status := .success, finished := true }, [], true))
    (before : undone start events) : LeavesStranded start events := by
  obtain ⟨last, result, reached, ends, stranded⟩ := endsRegularly_of start events true observed
  exact ⟨last, result, started, reached, ends, before, of_decide_eq_true stranded⟩

/-- The last node on the stack is not part of the partial run, or it returns
nothing: the merge node is left with its input. -/
theorem leavesStranded_lastNodeSkipped : LeavesStranded startToResult
        (begins ++ returnsItem ++ [.loops 0] ++ finishes) ∧
      LeavesStranded start (begins ++ returnsItem ++ executesNode none ++ finishes) := by
  constructor
  · apply leavesStranded_of
    · rfl
    · decide +kernel
    · decide +kernel
  · apply leavesStranded_of
    · rfl
    · decide +kernel
    · decide +kernel

end StrandedExample

end WorkflowExecute

end N8n
