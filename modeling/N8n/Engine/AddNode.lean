import N8n.Engine.State

/-!
# Adding nodes to the execution stack

`addNodeToBeExecuted` hands the output of a node to a node behind it.  A node
with one main input goes to the stack at once.  A node with several main
inputs collects its data in waiting entries until one of them is complete.

In the legacy execution order the first data of a waiting node also puts the
nodes on the stack from which its other inputs come.
-/

namespace N8n

open Engine StateExcept

/-- `value || undefined` -/
def orUndefined (value : Nat) : Option Nat :=
  if value = 0 then none else some value

/-- The source entry for data of the given parent. -/
def parentSource (parentNodeName : String) (outputIndex runIndex : Nat) : ISourceData :=
  { previousNode := parentNodeName
    previousNodeOutput := orUndefined outputIndex
    previousNodeRun := orUndefined runIndex }

/-- `get(runData, [node, runIndex, 'data', 'main', index])` -/
def mainOutputOfRun (runData : IRunData) (nodeName : String) (runIndex : Nat)
    (index : Int) : Slot (List INodeExecutionData) :=
  match (((runData.get? nodeName).bind (·[runIndex]?)).bind ITaskData.data).bind (·.get? .main) with
  | some outputs => outputs.at' index
  | none => .undefined

def incomingConnectionIsEmpty (runData : IRunData) (runIndex : Nat) :
    List IConnection → Except ExecutionError Bool
  | [] => .ok true
  | inputConnection :: rest =>
    match mainOutputOfRun runData inputConnection.node runIndex inputConnection.index with
    | .value (_ :: _) => .ok false
    | .null => .error .typeError
    | _ => incomingConnectionIsEmpty runData runIndex rest

namespace Workflow

variable (workflow : Workflow)

/-- `connectionsByDestinationNode[nodeName].main[0] ?? []` -/
def firstMainInput (nodeName : String) : Except ExecutionError (List IConnection) :=
  match workflow.mainInputs nodeName with
  | some inputs => .ok ((inputs[0]?.join).getD [])
  | none => .error .typeError

def checkOutputNodes (parentNodeName : String) : Except ExecutionError (List String) :=
  match workflow.connectionsBySourceNode.get? parentNodeName with
  | some byType =>
    .ok (((byType.get? .main).getD []).flatMap fun conns =>
      (conns.getD []).map (·.node))
  | none => .error .typeError

end Workflow

/-- The loop over the ancestors of an input which looks for the node to
start from. -/
def findNodeToAdd (checkOutputNodes executionStackNodes : List String)
    (runData : IRunData) (inputNode : String) :
    Option String → List String → Option String
  | nodeToAdd, [] => nodeToAdd
  | nodeToAdd, parentNode :: rest =>
    if inputNode ≠ parentNode ∧ parentNode ∈ checkOutputNodes then none
    else if parentNode ∈ executionStackNodes then none
    else if runData.has parentNode then nodeToAdd
    else
      findNodeToAdd checkOutputNodes executionStackNodes runData inputNode (some parentNode) rest

/-- The arguments of a call that hands over data of a parent node. -/
structure ParentOutput where
  parentNodeName : String
  outputIndex : Nat
  nodeSuccessData : Option (SlotArray (List INodeExecutionData))
  runIndex : Nat

namespace ParentOutput

section

variable (output : ParentOutput)

/-- The element written into the data of the node. -/
def dataSlot : Slot (List INodeExecutionData) :=
  match output.nodeSuccessData with
  | some nodeSuccessData => nodeSuccessData.at' output.outputIndex
  | none => .null

def source : ISourceData :=
  parentSource output.parentNodeName output.outputIndex output.runIndex

def sourceSlot : Slot ISourceData :=
  match output.nodeSuccessData with
  | some _ => .value output.source
  | none => .null

end

/-- `nodeSuccessData[outputIndex].length === 0` -/
def isEmpty (output : ParentOutput) : Except ExecutionError Bool :=
  match output.dataSlot with
  | .value items => .ok items.isEmpty
  | _ => .error .typeError

end ParentOutput

/-- The item that starts a node without waiting for its input. -/
def emptyItem (node : INode) (output : ParentOutput) : IExecuteData :=
  { node := node
    data := .ofMain [.value [INodeExecutionData.blank]]
    source := some (.ofMain [.value output.source]) }

section

variable (workflow : Workflow) (runData : IRunData)

section

variable (output : ParentOutput)

/-- Whether an input node follows the parent anyway and will have data. -/
def followsParent (checkOutputNodes : List String)
    (inputNode : String) : Except ExecutionError Bool :=
  if inputNode ∈ checkOutputNodes then do
    let conns ← workflow.firstMainInput inputNode
    return !(← incomingConnectionIsEmpty runData output.runIndex conns)
  else .ok false

/-- Whether an input needs no attention, because its node follows the parent
anyway, is on the stack or was processed.  Outside the legacy order parents
are never forced to execute. -/
def inputIsCovered (state : RunExecutionData)
    (output : ParentOutput) (checkOutputNodes : List String)
    (inputNode : String) : Except ExecutionError Bool := do
  if inputNode = output.parentNodeName then return true
  let follows ← followsParent workflow state.runData output checkOutputNodes inputNode
  return follows || inputNode ∈ state.executionData.nodeExecutionStack.map (·.node.name) ||
    state.runData.has inputNode || !workflow.isLegacyExecutionOrder

variable (nodeToAdd : String)

/-- Whether the node to add is a child of a parent that has no data. -/
def staysWithoutData : Except ExecutionError Bool :=
  if output.parentNodeName ∈ workflow.getParentNodes nodeToAdd then
    output.isEmpty
  else .ok false

/-- `addEmptyItem`: the node has no inputs, or the data of its first input is
empty. -/
def needsEmptyItem : Except ExecutionError Bool :=
  if workflow.connectionsByDestinationNode.has nodeToAdd then do
    let conns ← workflow.firstMainInput nodeToAdd
    incomingConnectionIsEmpty runData output.runIndex conns
  else .ok true

def itemToAdd : Except ExecutionError (Option IExecuteData) := do
  if ← staysWithoutData workflow output nodeToAdd then return none
  if ← needsEmptyItem workflow runData output nodeToAdd then
    match workflow.getNode nodeToAdd with
    | some node => .ok (some (emptyItem node output))
    | none => .error .typeError
  else return none

def forcedItem (state : RunExecutionData) (output : ParentOutput) (checkOutputNodes : List String)
    (inputNode : String) : Except ExecutionError (Option IExecuteData) := do
  if ← inputIsCovered workflow state output checkOutputNodes inputNode then
    return none
  let parentNodes := (workflow.getParentNodes inputNode ++ [inputNode]).reverse
  match findNodeToAdd checkOutputNodes (state.executionData.nodeExecutionStack.map (·.node.name))
      state.runData inputNode (some inputNode) parentNodes with
  | none => return none
  | some nodeToAdd => itemToAdd workflow state.runData output nodeToAdd

/-- Put the node an input comes from on the stack if it has to be forced. -/
def followInput (checkOutputNodes : List String) (inputData : IConnection) : Engine PUnit :=
  modifyOrThrow fun state => do
    match ← forcedItem workflow state output checkOutputNodes inputData.node with
    | some item =>
      return { state with
        executionData := state.executionData.enqueue workflow item }
    | none => return state

def followInputs (nodeName : String) (nodeWasWaiting : Bool) : Engine PUnit :=
  if nodeWasWaiting then pure ⟨⟩
  else do
    let checkOutputNodes ← StateExcept.ofExcept (workflow.checkOutputNodes output.parentNodeName)
    (((workflow.mainInputs nodeName).getD []).flatMap (·.getD [])).forM
      (followInput workflow output checkOutputNodes)

end

def findWaitingIndex (inputIndex : Int) :
    List (Nat × ITaskDataConnections) → Except ExecutionError (Option Nat)
  | [] => .ok none
  | (index, connections) :: rest =>
    match connections.get? .main with
    | none => .error .typeError
    | some slots =>
      if (slots.at' inputIndex).value?.isNone then .ok (some index)
      else findWaitingIndex inputIndex rest

variable (connectionData : IConnection)

def openWaitingEntry : Engine Nat := do
  updateExecutionData fun data =>
    return data.startWaiting connectionData.node
  let entries := (← get).executionData.waitingExecution.entriesOf connectionData.node
  match ← StateExcept.ofExcept (findWaitingIndex connectionData.index entries.entries) with
  | some waitingNodeIndex => return waitingNodeIndex
  | none =>
    let waitingNodeIndex := entries.size
    updateExecutionData fun data =>
      return data.prepareWaitingToExecution connectionData.node
        (workflow.numberOfInputs connectionData.node) waitingNodeIndex
    return waitingNodeIndex

variable (output : ParentOutput) (waitingNodeIndex : Nat)

def writeWaiting : Engine PUnit := do
  updateExecutionData fun data =>
    return { data with
      waitingExecution := ← data.waitingExecution.writeSlot connectionData.node
        waitingNodeIndex connectionData.index output.dataSlot }
  updateExecutionData fun data =>
    return { data with
      waitingExecutionSource := ← data.waitingExecutionSource.writeSlot
        connectionData.node waitingNodeIndex connectionData.index
        output.sourceSlot }

/-- Move a complete waiting entry to the stack. -/
def releaseWaiting (nodeName : String) (waitingNodeIndex : Nat) (data : ExecutionData) :
    Except ExecutionError ExecutionData :=
  match workflow.getNode nodeName,
      (data.waitingExecution.entriesOf nodeName).get? waitingNodeIndex with
  | some node, some connections =>
    .ok ((data.enqueue workflow
      { node := node
        data := connections
        source := (data.waitingExecutionSource.entriesOf nodeName).get?
          waitingNodeIndex }).deleteWaiting nodeName waitingNodeIndex)
  | _, _ => .error .typeError

/-- Write the data of an incomplete entry once more, as the end of
`addNodeToBeExecuted` does: the entry keeps only its main slots. -/
def rewriteWaiting (data : ExecutionData) : Except ExecutionError ExecutionData := do
  let connectionDataArray ← data.waitingExecution.main connectionData.node waitingNodeIndex
  let waitingExecutionSource ← data.waitingExecutionSource.main connectionData.node waitingNodeIndex
  let prepared := data.prepareWaitingToExecution connectionData.node
    (workflow.numberOfInputs connectionData.node) waitingNodeIndex
  return { prepared with
    waitingExecution := prepared.waitingExecution.setMain connectionData.node waitingNodeIndex
      (connectionDataArray.put connectionData.index output.dataSlot)
    waitingExecutionSource := prepared.waitingExecutionSource.setMain
      connectionData.node waitingNodeIndex waitingExecutionSource }

/-- The part of `addNodeToBeExecuted` for nodes with several main inputs. -/
def addToWaiting : Engine PUnit := do
  let nodeWasWaiting := (← get).executionData.waitingExecution.has connectionData.node
  let waitingNodeIndex ← openWaitingEntry workflow connectionData
  writeWaiting connectionData output waitingNodeIndex
  let slots ← StateExcept.ofExcept
    ((← get).executionData.waitingExecution.main connectionData.node waitingNodeIndex)
  if slots.all (!·.isNull) then
    updateExecutionData (releaseWaiting workflow connectionData.node waitingNodeIndex)
  else do
    followInputs workflow output connectionData.node nodeWasWaiting
    updateExecutionData (rewriteWaiting workflow connectionData output waitingNodeIndex)

/-- The item of a node with at most one main input. -/
def directItem (node : INode) (connectionData : IConnection)
    (output : ParentOutput) (newRunIndex : Option Nat)
    (metadata : Option ITaskMetadata) : IExecuteData :=
  { node := node
    data := .ofMain ((SlotArray.nulls (connectionData.index + 1).toNat).put
      connectionData.index output.dataSlot)
    source := some (.ofMain [.value output.source])
    runIndex := newRunIndex
    metadata := metadata }

/-- The part of `addNodeToBeExecuted` for nodes with at most one main
input. -/
def addToStack (newRunIndex : Option Nat) (metadata : Option ITaskMetadata) (data : ExecutionData) :
    Except ExecutionError ExecutionData :=
  match workflow.getNode connectionData.node with
  | some node =>
    .ok (data.enqueue workflow (directItem node connectionData output newRunIndex metadata))
  | none => .error .typeError

/-- A node that does not exist is an error here, not only when its item is
taken from the stack. -/
def addNodeToBeExecuted (outputIndex : Nat) (parentNodeName : String)
    (nodeSuccessData : Option (SlotArray (List INodeExecutionData)))
    (runIndex : Nat) (newRunIndex : Option Nat := none)
    (metadata : Option ITaskMetadata := none) : Engine PUnit :=
  let output : ParentOutput := { parentNodeName, outputIndex, nodeSuccessData, runIndex }
  if 1 < workflow.numberOfInputs connectionData.node then
    addToWaiting workflow connectionData output
  else
    updateExecutionData (addToStack workflow connectionData output newRunIndex metadata)

end

end N8n
