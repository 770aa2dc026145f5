import N8n.Engine.NodeOutput

/-!
# One iteration of the execution loop

What an iteration does to the data of the run: how it begins with an entry of
the stack, what it records of the node, and which nodes it adds behind it.
-/

namespace N8n

structure Iteration where
  executionData : IExecuteData
  runIndex : Nat
  executionIndex : Nat
  tryIndex : Nat := 0
  nodeSuccessData : Option NodeSuccessData := none
deriving DecidableEq

namespace Iteration

variable (iteration : Iteration)

abbrev executionNode : INode := iteration.executionData.node

def maxTries (iteration : Iteration) : Nat :=
  if iteration.executionNode.retryOnFail = some true then
    min 5 (max 2 ((iteration.executionNode.maxTries.filter (· ≠ 0)).getD 3))
  else 1

def waitBetweenTries (iteration : Iteration) : Int :=
  if iteration.executionNode.retryOnFail = some true then
    min 5000 (max 0 ((iteration.executionNode.waitBetweenTries.filter (· ≠ 0)).getD 1000))
  else 0

/-- `executionData.metadata?.nodeWasResumed` -/
def nodeWasResumed (iteration : Iteration) : Bool :=
  (iteration.executionData.metadata.map (·.nodeWasResumed)).getD false

def continuesOnFail : Bool :=
  iteration.executionNode.continueOnFail == some true ||
    iteration.executionNode.onError == some .continueRegularOutput ||
    iteration.executionNode.onError == some .continueErrorOutput

/-- The output of a failed node behind which the workflow goes on is its
first input. -/
def passInput : Iteration :=
  match iteration.executionData.data.get? .main with
  | some (.null :: _) | some [] | none => iteration
  | some (input :: _) => { iteration with nodeSuccessData := some [input.read] }

end Iteration

section Begin

/-- Whether an item has the data its node needs to execute, by the inputs that
are left to check. -/
def hasInputData (workflow : Workflow) (executionData : IExecuteData) : List Nat → Bool
  | [] => true
  | connectionIndex :: rest =>
    if workflow.getHighestNode executionData.node.name (some connectionIndex) = [] then true
    else
      match executionData.data.get? .main with
      | none => false
      | some slots =>
        if workflow.isLegacyExecutionOrder ∧ (slots.length < connectionIndex ∨
              slots.at' connectionIndex = .null) then false
        else hasInputData workflow executionData rest

/-- `WorkflowExecute.ensureInputData`.  An item without its data is put back
on the stack. -/
def ensureInputData (workflow : Workflow) (executionData : IExecuteData) : Engine Bool := do
  if hasInputData workflow executionData
      (List.range (workflow.numberOfInputs executionData.node.name)) then
    return true
  modify fun state =>
    { state with
      executionData :=
        { state.executionData with
          nodeExecutionStack := state.executionData.nodeExecutionStack ++ [executionData] } }
  return false

/-- `${executionNode.name}:${runIndex}` -/
abbrev ExecutionTry := String × Nat

inductive IterationStart where
  | skipped
  | deferred (currentExecutionTry : ExecutionTry)
  | started (iteration : Iteration)

/-- `runIndex` -/
def RunExecutionData.runIndexOf (state : RunExecutionData) (executionData : IExecuteData) : Nat :=
  executionData.runIndex.getD
    (((state.runData.get? executionData.node.name).map List.length).getD 0)

/-- The beginning of an iteration with an entry that was taken from the
stack. -/
def beginIteration (workflow : Workflow)
    (lastExecutionTry : Option ExecutionTry) (taken : IExecuteData) :
    Engine IterationStart := do
  let executionIndex := (← get).currentNodeExecutionIndex
  modify fun state =>
    { state with currentNodeExecutionIndex := executionIndex + 1 }
  let data ← StateExcept.ofExcept (newTaskDataConnections taken)
  let executionData := { taken with data := data }
  let executionNode := executionData.node
  let state ← get
  let runIndex := state.runIndexOf executionData
  let currentExecutionTry := (executionNode.name, runIndex)
  if lastExecutionTry = some currentExecutionTry then
    throw (.application "Stopped execution because it seems to be in an endless loop")
  if state.runNodeFilter.any (executionNode.name ∉ ·) then return .skipped
  if ← ensureInputData workflow executionData then
    return .started
      { executionData := executionData
        runIndex := runIndex
        executionIndex := executionIndex }
  return .deferred currentExecutionTry

end Begin

section Record

def Iteration.taskData (iteration : Iteration) (waitTill : Bool)
    (executionError : Option ExecutionError) : ITaskData :=
  { executionIndex := iteration.executionIndex
    source := (iteration.executionData.source.bind (·.get? .main)).getD []
    metadata := iteration.executionData.metadata
    error := executionError
    executionStatus := some (if executionError.isSome then .error
      else if waitTill then .waiting else .success) }

/-- `runData[executionNode.name].push(taskData)` -/
def pushTaskData (nodeName : String) (taskData : ITaskData)
    (state : RunExecutionData) : RunExecutionData :=
  { state with
    runData := state.runData.set nodeName (((state.runData.get? nodeName).getD []) ++ [taskData]) }

/-- Record the output of a node.  A run that exists already, with the input of
a requested tool, is completed. -/
def storeTaskData (iteration : Iteration) (taskData : ITaskData)
    (nodeSuccessData : NodeSuccessData) (state : RunExecutionData) :
    RunExecutionData :=
  let nodeName := iteration.executionNode.name
  let runs := (state.runData.get? nodeName).getD []
  let current := runs[iteration.runIndex]?
  let taskData :=
    match (state.rewireOutputLogTo.get? nodeName).or iteration.executionNode.rewireOutputLogTo with
    | none => { taskData with data := some (.ofMain nodeSuccessData) }
    | some connectionType =>
      { taskData with
        inputOverride := some ((current.bind ITaskData.inputOverride).getD .empty)
        data := some (OrderedMap.empty.set connectionType nodeSuccessData) }
  match current with
  | none => pushTaskData nodeName taskData state
  | some currentTaskData =>
    { state with
      runData := state.runData.set nodeName (runs.set iteration.runIndex { taskData with
          inputOverride := taskData.inputOverride.or currentTaskData.inputOverride
          error := taskData.error.or currentTaskData.error }) }

/-- `nodeExecutionStack.unshift(executionData)` -/
def unshiftItem (executionData : IExecuteData) (state : RunExecutionData) : RunExecutionData :=
  { state with
    executionData :=
      { state.executionData with
        nodeExecutionStack := executionData :: state.executionData.nodeExecutionStack } }

end Record

section AddNodes

structure NodeToAdd where
  position : Int × Int
  connection : IConnection
  outputIndex : Nat

/-- The order in which the nodes are added: the node that executes first, the
one at the top left, comes last. -/
def NodeToAdd.precedes (left right : NodeToAdd) : Bool :=
  right.position.2 < left.position.2 ||
    right.position.2 == left.position.2 && right.position.1 < left.position.1

variable (workflow : Workflow)

def handsOver (nodeSuccessData : NodeSuccessData)
    (connectionData : IConnection) (outputIndex : Nat) : Bool :=
  match nodeSuccessData.at' outputIndex with
  | .value items => !items.isEmpty || 0 < connectionData.index && workflow.isLegacyExecutionOrder
  | _ => false

/-- The main connections of a node with the indices of their outputs. -/
def Workflow.outgoing (nodeName : String) : List (IConnection × Nat) :=
  (workflow.mainOutputs nodeName).zipIdx.flatMap fun (conns, outputIndex) =>
    (conns.getD []).map fun connectionData => (connectionData, outputIndex)

def requireDestination (connectionData : IConnection) : Except ExecutionError PUnit :=
  if workflow.nodes.has connectionData.node then .ok ⟨⟩
  else .error (.application "Destination node not found")

/-- The nodes to add in the execution order v1, before they are sorted. -/
def findNodesToAdd (workflow : Workflow) (nodeSuccessData : NodeSuccessData) :
    List (IConnection × Nat) → Except ExecutionError (List NodeToAdd)
  | [] => .ok []
  | (connectionData, outputIndex) :: rest => do
    requireDestination workflow connectionData
    let nodesToAdd ← findNodesToAdd workflow nodeSuccessData rest
    if handsOver workflow nodeSuccessData connectionData outputIndex then
      return {
        position := ((workflow.getNode connectionData.node).map (·.position)).getD (0, 0)
        connection := connectionData
        outputIndex := outputIndex } :: nodesToAdd
    else return nodesToAdd

def addConnectedNodes (iteration : Iteration)
    (nodeSuccessData : NodeSuccessData) : Engine PUnit := do
  let nodeName := iteration.executionNode.name
  let add (connectionData : IConnection) (outputIndex : Nat) : Engine PUnit :=
    addNodeToBeExecuted workflow connectionData outputIndex nodeName
      (some nodeSuccessData) iteration.runIndex
  if workflow.executionOrder = some .v1 then
    let nodesToAdd ← StateExcept.ofExcept
      (findNodesToAdd workflow nodeSuccessData (workflow.outgoing nodeName))
    (nodesToAdd.insertionSort fun left right => !right.precedes left).forM
      fun nodeData => add nodeData.connection nodeData.outputIndex
  else
    (workflow.outgoing nodeName).forM fun (connectionData, outputIndex) => do
      StateExcept.ofExcept (requireDestination workflow connectionData)
      if handsOver workflow nodeSuccessData connectionData outputIndex then
        add connectionData outputIndex

end AddNodes

end N8n
