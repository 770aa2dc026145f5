import N8n.Engine.Iteration
import N8n.Engine.WaitingNodes
import N8n.Library.Machine

/-!
# The run of an execution

`processRunExecutionData` as a machine.  A phase is what the call awaits; its
events are what settles there, and the cancel handler, which may run whenever
the call awaits something.  The loop condition and the start of a try are phases
too, but nothing else can happen there.
-/

namespace N8n

/-- The fields of the result that tell how a run ended. -/
structure IRun where
  status : ExecutionStatus
  error : Option ExecutionError := none
  waitTill : Bool := false
  finished : Bool := false
deriving DecidableEq

/-- The calls of `runHook`, with what they pass of the run. -/
inductive HookCall where
  | workflowExecuteBefore
  | workflowExecuteAfter (fullRunData : IRun)
  | nodeExecuteBefore (nodeName : String)
  | nodeExecuteAfter (nodeName : String) (taskData : ITaskData)
  | sendChunk (nodeName : String) (runIndex : Nat)
deriving DecidableEq

/-- What the call awaits. -/
inductive RunPhase where
  | establishingContext
  | workflowExecuteBefore
  | loopHead
  | nodeExecuteBefore (iteration : Iteration)
  | startingTry (iteration : Iteration)
  | waitingBetweenTries (iteration : Iteration)
  | runningNode (iteration : Iteration)
  | sleeping (iteration : Iteration)
  | runningNodeAgain (iteration : Iteration)
  | sendingChunk (iteration : Iteration)
  | nodeFailed
  | nodeWaits (iteration : Iteration)
  | destinationReached
  | nodeExecuteAfter
  | loopEnded
  | threw (error : ExecutionError)
  | closing (executionError : Option ExecutionError)
  | workflowExecuteAfter (fullRunData : IRun)
  | failureHook (fullRunData : IRun)
  | failureClosing (fullRunData : IRun)
  | returning (fullRunData : IRun)
  | resolved (fullRunData : IRun)
deriving DecidableEq

/-- The call awaits nothing. -/
def RunPhase.synchronous : RunPhase → Bool
  | .loopHead | .startingTry _ | .resolved _ => true
  | _ => false

def RunPhase.inLoop : RunPhase → Bool
  | .loopEnded | .threw _ | .closing _ | .workflowExecuteAfter _
  | .failureHook _ | .failureClosing _ | .returning _ | .resolved _ => false
  | _ => true

inductive RunNodeOutcome where
  | returned (data : Option NodeSuccessData) (closeFunction : Bool)
  | requested (request : EngineRequest)
  | threw (error : ExecutionError)
deriving DecidableEq

/-- The end of a call of `runNode`, with what the node wrote into the run: it
may have put the execution to wait and recorded runs of sub-nodes. -/
structure NodeCall where
  outcome : RunNodeOutcome
  putsToWait : Bool := false
  subNodeRuns : List (String × Nat × ITaskData) := []
deriving DecidableEq

inductive RunEvent where
  | cancel
  | loops (now : Nat)
  | tries
  | resolves
  | rejects (error : ExecutionError)
  | nodeEnds (call : NodeCall)
deriving DecidableEq

structure WorkflowExecuteAdditionalData where
  executionTimeoutTimestamp : Option Nat := none
  restartExecutionId : Option String := none
  getPairedItem : GetPairedItem := fun _ _ _ => .ok none

/-- The fields of `WorkflowExecute` and the variables of the call.
`canceledInLoop` is history: the cancel handler ran before the loop ended. -/
structure WorkflowExecute where
  status : ExecutionStatus := .running
  timedOut : Bool := false
  aborted : Bool := false
  runExecutionData : RunExecutionData
  executionError : Option ExecutionError := none
  lastExecutionTry : Option ExecutionTry := none
  closeFunction : Bool := false
  phase : RunPhase := .establishingContext
  hooks : List HookCall := []
  canceledInLoop : Bool := false
deriving DecidableEq

/-- `text.includes(part)` -/
def includes (text part : String) : Bool :=
  text.toList.tails.any part.toList.isPrefixOf

namespace ExecutionError

/-- The message, if it can tell a cancellation.  The message of a `TypeError`
names properties of the code only. -/
def message : ExecutionError → Option String
  | .assertion message | .application message | .unexpected message
  | .user message => some message
  | .typeError => none
  | .node _ message => message

/-- The own property `name`. -/
def name : ExecutionError → Option String
  | .node name _ => name
  | _ => none

/-- The test of `processSuccessExecution` for errors of cancelled nodes. -/
def isCancellation (error : ExecutionError) : Bool :=
  error.message.any (includes · "canceled") || error.name.any (includes · "Cancelled")

def timeoutExecutionCancelled : ExecutionError :=
  .node (some "TimeoutExecutionCancelledError")
    (some "The execution was cancelled because it timed out")

def manualExecutionCancelled : ExecutionError :=
  .node (some "ManualExecutionCancelledError") (some "The execution was cancelled manually")

end ExecutionError

variable (state : RunExecutionData)

/-- `subNodeRuns` of a call, each at its run index. -/
def writeSubNodeRun (write : String × Nat × ITaskData) : RunExecutionData :=
  let (nodeName, runIndex, taskData) := write
  let runs := (state.runData.get? nodeName).getD []
  { state with
    runData := state.runData.set nodeName (if runIndex < runs.length then runs.set runIndex taskData
      else runs ++ [taskData]) }

theorem writeSubNodeRun_same (writes : List (String × Nat × ITaskData)) :
    (writes.foldl writeSubNodeRun state).executionData = state.executionData ∧
      (writes.foldl writeSubNodeRun state).runNodeFilter = state.runNodeFilter ∧
      (writes.foldl writeSubNodeRun state).waitTill = state.waitTill := by
  induction writes generalizing state with
  | nil => exact ⟨rfl, rfl, rfl⟩
  | cons write writes ih => exact ih (writeSubNodeRun state write)

namespace WorkflowExecute

variable (workflow : Workflow)
  (additionalData : WorkflowExecuteAdditionalData) (run : WorkflowExecute)

def isCancelled : Bool := run.aborted

def getFullRunData : IRun := { status := run.status }

def runHook (hook : HookCall) (phase : RunPhase) : WorkflowExecute :=
  { run with
    hooks := run.hooks ++ [hook]
    phase := phase }

def leaveLoop (error : ExecutionError) : WorkflowExecute :=
  { run with phase := .threw error }

/-- Go on with the outcome of a computation, or leave the loop. -/
def attempt {α : Type} (computation : Engine α)
    (goOn : WorkflowExecute → α → WorkflowExecute) : WorkflowExecute :=
  let (outcome, runExecutionData) := StateExcept.exec computation run.runExecutionData
  match outcome with
  | .ok value => goOn { run with runExecutionData } value
  | .error error => { run with runExecutionData }.leaveLoop error

def updateTaskStatusesToCancelled (runData : IRunData) : IRunData :=
  runData.entries.foldl (fun updated (nodeName, taskDataArray) =>
      updated.set nodeName (taskDataArray.map fun taskData =>
        if taskData.executionStatus = some .running then
          { taskData with executionStatus := some .canceled }
        else taskData))
    .empty

/-- The cancel handler.  A promise runs it at most once, while it is
pending. -/
def cancel : WorkflowExecute :=
  let canceled : WorkflowExecute :=
    { run with
      status := .canceled
      runExecutionData :=
        { run.runExecutionData with
          runData := updateTaskStatusesToCancelled run.runExecutionData.runData }
      aborted := true
      canceledInLoop := run.phase.inLoop }
  canceled.runHook (.workflowExecuteAfter canceled.getFullRunData) run.phase

section Completion

variable (executionError : Option ExecutionError)

def finishExecution : WorkflowExecute :=
  let waitTill := executionError.isNone && run.runExecutionData.waitTill
  let fullRunData : IRun :=
    { run.getFullRunData with
      error := executionError
      waitTill := waitTill
      finished := executionError.isNone && !waitTill }
  -- the cancel handler ran the hook already
  if run.isCancelled then { run with phase := .returning fullRunData }
  else
    run.runHook (.workflowExecuteAfter fullRunData) (.workflowExecuteAfter fullRunData)

def successStatus (waitTill : Bool) : ExecutionStatus :=
  match executionError with
  | some error => if error.isCancellation then .canceled else .error
  | none => if waitTill then .waiting else .success

def processSuccessExecution : WorkflowExecute :=
  let run :=
    { run with
      status := successStatus executionError run.runExecutionData.waitTill }
  if run.closeFunction then { run with phase := .closing executionError }
  else run.finishExecution executionError

/-- The error a run ends with: a run that was stopped at the loop condition
ends with a cancellation. -/
def finalError : Option ExecutionError :=
  if run.status = .canceled ∧ run.executionError = none then
    some (if run.timedOut then .timeoutExecutionCancelled
      else .manualExecutionCancelled)
  else run.executionError

/-- The catch handler up to its hook. -/
def processFailure (error : ExecutionError) : WorkflowExecute :=
  let fullRunData := { run.getFullRunData with error := some error }
  run.runHook (.workflowExecuteAfter fullRunData) (.failureHook fullRunData)

end Completion

section Node

variable (iteration : Iteration)

def continueIteration : WorkflowExecute :=
  match mergeErrors iteration.nodeSuccessData with
  | .error error => run.leaveLoop error
  | .ok nodeSuccessData =>
    let nodeName := iteration.executionNode.name
    let waitTill := run.runExecutionData.waitTill
    let taskData := iteration.taskData waitTill run.executionError
    let run :=
      { run with
        runExecutionData := storeTaskData iteration taskData nodeSuccessData run.runExecutionData }
    if waitTill then
      run.runHook (.nodeExecuteAfter nodeName taskData) (.nodeWaits iteration)
    else if run.runExecutionData.destinationNode = some nodeName then
      run.runHook (.nodeExecuteAfter nodeName taskData) .destinationReached
    else
      run.attempt (addConnectedNodes workflow iteration nodeSuccessData)
        fun run _ => run.runHook (.nodeExecuteAfter nodeName taskData) .nodeExecuteAfter

/-- The iteration after the last try. -/
def afterTries : WorkflowExecute :=
  match run.executionError with
  | some _ =>
    run.runHook (.sendChunk iteration.executionNode.name iteration.runIndex)
      (.sendingChunk iteration)
  | none => run.continueIteration workflow iteration

def failIteration : WorkflowExecute :=
  if iteration.continuesOnFail then
    run.continueIteration workflow iteration.passInput
  else
    let nodeName := iteration.executionNode.name
    let taskData := iteration.taskData false run.executionError
    let run :=
      { run with
        runExecutionData := unshiftItem iteration.executionData
          (pushTaskData nodeName taskData run.runExecutionData) }
    -- a node that was aborted has no hook
    if run.isCancelled then { run with phase := .loopEnded }
    else run.runHook (.nodeExecuteAfter nodeName taskData) .nodeFailed

def pinnedData : Option (List INodeExecutionData) :=
  if iteration.executionNode.disabled = some true then none
  else
    run.runExecutionData.pinData.bind (·.get? iteration.executionNode.name)

def setLastNodeExecuted : WorkflowExecute :=
  { run with
    runExecutionData :=
      { run.runExecutionData with
        lastNodeExecuted := some iteration.executionNode.name } }

def failTry (error : ExecutionError) : WorkflowExecute :=
  let failed := { run with executionError := some error }.setLastNodeExecuted iteration
  let next := { iteration with tryIndex := iteration.tryIndex + 1 }
  if next.tryIndex < iteration.maxTries then
    { failed with
      executionError := none
      phase :=
        if iteration.waitBetweenTries = 0 then .startingTry next
        else .waitingBetweenTries next }
  else failed.afterTries workflow iteration

variable (nodeSuccessData : Option NodeSuccessData)

/-- A try with the output of its node.  A node without output ends its
branch. -/
def endTry : WorkflowExecute :=
  match assignPairedItems nodeSuccessData iteration.executionData with
  | .error error => run.failTry workflow iteration error
  | .ok paired =>
    let run := if paired.isSome then run.setLastNodeExecuted iteration else run
    match alwaysOutputData paired iteration.executionData with
    | .error error => run.failTry workflow iteration error
    | .ok output =>
      if output = none ∧ run.runExecutionData.waitTill = false then
        { run with phase := .loopHead }
      else
        run.afterTries workflow { iteration with nodeSuccessData := output }

/-- The call of `runNode`.  Pinned data takes its place. -/
def startTry : WorkflowExecute :=
  match run.pinnedData iteration with
  | none => { run with phase := .runningNode iteration }
  | some nodePinData =>
    let nodeSuccessData : NodeSuccessData := [.value nodePinData]
    run.endTry workflow { iteration with nodeSuccessData } nodeSuccessData

/-- `runNodeData.data?.[0]?.[0]?.json?.error !== undefined` -/
def nodeFailed : Bool :=
  (firstItem nodeSuccessData).any fun item =>
    (OrderedMap.lookupIn "error" item.json).isSome

/-- The output of a node with failed items in the error output, if it has
one. -/
def separateErrors (getPairedItem : GetPairedItem) (iteration : Iteration)
    (nodeSuccessData : Option NodeSuccessData) :
    Except ExecutionError (Option NodeSuccessData) :=
  match nodeSuccessData with
  | none => .ok none
  | some outputs =>
    if iteration.executionNode.onError = some .continueErrorOutput then do
      return some (← handleNodeErrorOutput workflow getPairedItem iteration.executionData outputs)
    else .ok (some outputs)

def receiveOutcome (outcome : RunNodeOutcome) : WorkflowExecute :=
  match outcome with
  | .threw error => run.failTry workflow iteration error
  | .requested request =>
    let (handled, runExecutionData) := StateExcept.exec
      (handleEngineRequest workflow iteration.executionNode request
        iteration.runIndex iteration.executionData) run.runExecutionData
    match handled with
    | .ok _ => { run with runExecutionData, phase := .loopHead }
    | .error error =>
      { run with runExecutionData }.failTry workflow iteration error
  | .returned data closeFunction =>
    if nodeFailed data ∧ iteration.tryIndex + 1 ≠ iteration.maxTries then
      { run with phase := .sleeping iteration }
    else
      let iteration := { iteration with nodeSuccessData := data }
      match separateErrors workflow additionalData.getPairedItem iteration data with
      | .error error => run.failTry workflow iteration error
      | .ok output =>
        { run with
          closeFunction := closeFunction || run.closeFunction }.endTry
          workflow { iteration with nodeSuccessData := output } output

/-- What a node wrote into the run while it was called. -/
def applyCall (call : NodeCall) : WorkflowExecute :=
  let written := call.subNodeRuns.foldl writeSubNodeRun run.runExecutionData
  { run with
    runExecutionData := { written with waitTill := written.waitTill || call.putsToWait } }

end Node

section Loop

variable (error : ExecutionError)

def failBeforeLoop : WorkflowExecute :=
  let failed := { run with executionError := some error }
  match run.runExecutionData.executionData.nodeExecutionStack with
  | [] => failed.leaveLoop .typeError
  | executionData :: _ =>
    let nodeName := executionData.node.name
    let taskData : ITaskData :=
      { data := (executionData.data.get? .main).map .ofMain
        executionStatus := some .error }
    { failed with
      runExecutionData :=
        { run.runExecutionData with
          runData := OrderedMap.empty.set nodeName [taskData]
          pinData := none
          lastNodeExecuted := some nodeName } }.leaveLoop error

def startIteration (executionData : IExecuteData) : WorkflowExecute :=
  run.attempt (beginIteration workflow run.lastExecutionTry executionData) fun run start =>
      match start with
      | .skipped => { run with phase := .loopHead }
      | .deferred currentExecutionTry =>
        { run with
          lastExecutionTry := some currentExecutionTry
          phase := .loopHead }
      | .started iteration =>
        if iteration.nodeWasResumed then
          run.startTry workflow iteration
        else
          run.runHook (.nodeExecuteBefore iteration.executionNode.name)
            (.nodeExecuteBefore iteration)

/-- The loop condition and the check at the head of the loop. -/
def loop (now : Nat) : WorkflowExecute :=
  match run.runExecutionData.executionData.nodeExecutionStack with
  | [] => { run with phase := .loopEnded }
  | executionData :: rest =>
    let timedOut := additionalData.executionTimeoutTimestamp.any (· ≤ now)
    let run :=
      if timedOut then
        { run with
          status := .canceled
          timedOut := true }
      else run
    if run.status = .canceled then { run with phase := .loopEnded }
    else
      { run with
        executionError := none
        runExecutionData :=
          { run.runExecutionData with
            executionData :=
              { run.runExecutionData.executionData with
                nodeExecutionStack := rest } } }.startIteration workflow
        executionData

/-- What the call awaits has succeeded, or the call goes on. -/
def resolve : Option WorkflowExecute :=
  match run.phase with
  | .establishingContext =>
    if additionalData.restartExecutionId.all (· = "") then
      some (run.runHook .workflowExecuteBefore .workflowExecuteBefore)
    else some { run with phase := .loopHead }
  | .workflowExecuteBefore => some { run with phase := .loopHead }
  | .nodeExecuteBefore iteration =>
    some (run.startTry workflow iteration)
  | .waitingBetweenTries iteration =>
    some (run.startTry workflow iteration)
  | .sleeping iteration => some { run with phase := .runningNodeAgain iteration }
  | .sendingChunk iteration => some (run.failIteration workflow iteration)
  | .nodeFailed => some { run with phase := .loopEnded }
  | .nodeWaits iteration =>
    some { run with
      runExecutionData := unshiftItem iteration.executionData run.runExecutionData
      phase := .loopEnded }
  | .destinationReached => some { run with phase := .loopHead }
  | .nodeExecuteAfter =>
    some (run.attempt (checkWaitingNodes workflow) fun run _ =>
      { run with phase := .loopHead })
  | .loopEnded => some (run.processSuccessExecution run.finalError)
  | .threw error => some (run.processFailure error)
  | .closing executionError => some (run.finishExecution executionError)
  | .workflowExecuteAfter fullRunData =>
    some { run with phase := .returning fullRunData }
  | .failureHook fullRunData =>
    if run.closeFunction then
      some { run with phase := .failureClosing fullRunData }
    else some { run with phase := .returning fullRunData }
  | .failureClosing fullRunData =>
    some { run with phase := .returning fullRunData }
  | .returning fullRunData => some { run with phase := .resolved fullRunData }
  | .loopHead | .startingTry _ | .runningNode _ | .runningNodeAgain _
  | .resolved _ => none

/-- What the call awaits has failed. -/
def reject : Option WorkflowExecute :=
  match run.phase with
  | .establishingContext | .workflowExecuteBefore =>
    some (run.failBeforeLoop error)
  | .nodeExecuteBefore _ | .sendingChunk _ | .nodeFailed | .nodeWaits _
  | .destinationReached | .nodeExecuteAfter | .workflowExecuteAfter _ =>
    some (run.leaveLoop error)
  -- the errors of the close function and of the last hook are logged
  | .closing _ | .failureHook _ | .failureClosing _ =>
    run.resolve workflow additionalData
  | _ => none

def step : Machine WorkflowExecute RunEvent := fun run event =>
  match event with
  | .cancel =>
    if run.phase.synchronous ∨ run.aborted then none else some run.cancel
  | .loops now =>
    match run.phase with
    | .loopHead => some (run.loop workflow additionalData now)
    | _ => none
  | .tries =>
    match run.phase with
    | .startingTry iteration => some (run.startTry workflow iteration)
    | _ => none
  | .resolves => run.resolve workflow additionalData
  | .rejects error => run.reject workflow additionalData error
  | .nodeEnds call =>
    match run.phase with
    | .runningNode iteration =>
      some ((run.applyCall call).receiveOutcome workflow additionalData iteration call.outcome)
    | .runningNodeAgain iteration =>
      let iteration :=
        match call.outcome with
        | .threw _ => iteration
        | _ => { iteration with tryIndex := iteration.tryIndex + 1 }
      some ((run.applyCall call).receiveOutcome workflow additionalData iteration call.outcome)
    | _ => none

end Loop

variable (data : RunExecutionData)

/-- A waiting execution goes on behind the node that waited: the node is
disabled and its last run removed. -/
def handleWaitingState : Except ExecutionError RunExecutionData :=
  if data.waitTill then
    match data.executionData.nodeExecutionStack, data.lastNodeExecuted.bind data.runData.get? with
    | executionData :: rest, some runs =>
      .ok { data with
        waitTill := false
        executionData :=
          { data.executionData with
            nodeExecutionStack :=
              { executionData with
                node := { executionData.node with disabled := some true } } ::
              rest }
        runData := data.runData.set (data.lastNodeExecuted.getD "") runs.dropLast }
    | _, _ => .error .typeError
  else .ok data

/-- The call up to its first `await`. -/
def processRunExecutionData : Except ExecutionError WorkflowExecute := do
  return { runExecutionData := ← handleWaitingState data }

end WorkflowExecute

end N8n
