import N8n.Engine.AddNode

/-!
# Engine requests

A node may return a request instead of data: the engine runs the tools it
names and then the node once more, with their results.  `handleRequest`
prepares the entries, the one that resumes the node first, and
`handleEngineRequest` hands them to `addNodeToBeExecuted` in this order.
-/

namespace N8n

/-- `{ ...object, [field]: value }` -/
def IDataObject.setField (object : IDataObject) (field : String)
    (value : JsonValue) : IDataObject :=
  OrderedMap.setIn field value object

/-- `{ ...object, ...other }` -/
def IDataObject.spread (object other : IDataObject) : IDataObject :=
  other.foldl (fun result (field, value) => result.setField field value) object

structure NodeToBeExecuted where
  inputConnectionData : IConnection
  parentOutputIndex : Nat
  parentNode : String
  parentOutputData : Option (SlotArray (List INodeExecutionData))
  runIndex : Nat
  nodeRunIndex : Nat
  metadata : Option ITaskMetadata

namespace IExecuteData

/-- `executionData.source?.main?.[index]` -/
def mainSource (executionData : IExecuteData) (index : Nat) : Option ISourceData :=
  (executionData.source.bind (·.get? .main)).bind fun slots =>
    (slots.at' index).value?

/-- `executionData.data.main?.[0]?.[itemIndex]` -/
def agentInput (executionData : IExecuteData) (itemIndex : Nat) : Option INodeExecutionData :=
  ((executionData.data.get? .main).bind fun slots =>
    (slots.at' 0).value?).bind (·[itemIndex]?)

end IExecuteData

def requestedItem (currentNode : INode) (runIndex : Nat)
    (executionData : IExecuteData) (action : EngineAction) :
    INodeExecutionData :=
  let parentSourceData := executionData.mainSource runIndex
  let parentOutputIndex := (parentSourceData.bind ISourceData.previousNodeOutput).getD 0
  let parentRunIndex := (parentSourceData.bind ISourceData.previousNodeRun).getD 0
  let agentInputData := executionData.agentInput (action.itemIndex.getD 0)
  { json := (IDataObject.spread ((agentInputData.map (·.json)).getD [])
        action.input).setField "toolCallId" (.string action.id)
    pairedItem := some (.single
      { item := parentRunIndex
        input := some parentOutputIndex
        sourceOverwrite := some
          { previousNode :=
              (parentSourceData.map (·.previousNode)).getD currentNode.name
            previousNodeOutput := some parentOutputIndex
            previousNodeRun := some parentRunIndex } }) }

variable (workflow : Workflow) (currentNode : INode)

/-- The part of `prepareRequestedNodesForExecution` for one action.  It adds a
run to the run data of the tool that only holds its input. -/
def prepareRequestedNode (runIndex : Nat) (executionData : IExecuteData) (action : EngineAction) :
    Engine (NodeToBeExecuted × SubNodeExecutionDataAction) := do
  if !workflow.nodes.has action.nodeName then
    throw (.unexpected ("Workflow does not contain a node with the name of \"" ++
      action.nodeName ++ "\"."))
  let parentOutputData : SlotArray (List INodeExecutionData) :=
    [.value [requestedItem currentNode runIndex executionData action]]
  let nodeRunData := ((← get).runData.get? action.nodeName).getD []
  modify fun state =>
    { state with
      rewireOutputLogTo := state.rewireOutputLogTo.set action.nodeName action.type
      runData := state.runData.set action.nodeName (nodeRunData ++
        [{ inputOverride := some (OrderedMap.empty.set .aiTool parentOutputData) }]) }
  return (
    { inputConnectionData :=
        { type := action.type
          node := action.nodeName
          index := 0 }
      parentOutputIndex := 0
      parentNode := currentNode.name
      parentOutputData := some parentOutputData
      runIndex := runIndex
      nodeRunIndex := nodeRunData.length
      metadata := some { preserveSourceOverwrite := true } },
    { action := action
      nodeName := action.nodeName
      runIndex := nodeRunData.length })

variable (request : EngineRequest) (runIndex : Nat) (executionData : IExecuteData)

def prepareRequestedNodesForExecution : Engine (List NodeToBeExecuted × SubNodeExecutionData) := do
  let prepared ← request.actions.mapM
    (prepareRequestedNode workflow currentNode runIndex executionData)
  return (prepared.map Prod.fst,
    { actions := prepared.map Prod.snd
      metadata := request.metadata })

/-- The connection and the parent the node is resumed with.  Without a parent
the request is ignored. -/
def prepareRequestingNodeForResuming : Option (IConnection × String) :=
  match executionData.mainSource 0 with
  | some source =>
    if source.previousNode = "" then none
    else some (
      { type := .aiTool
        node := executionData.node.name
        index := 0 }, source.previousNode)
  | none => none

def handleRequest : Engine (List NodeToBeExecuted) := do
  let (nodesToBeExecuted, subNodeExecutionData) ←
    prepareRequestedNodesForExecution workflow currentNode request runIndex executionData
  match prepareRequestingNodeForResuming executionData with
  | none => return []
  | some (connectionData, parentNode) =>
    return {
      inputConnectionData := connectionData
      parentOutputIndex := 0
      parentNode := parentNode
      parentOutputData := executionData.data.get? .main
      runIndex := runIndex
      nodeRunIndex := runIndex
      metadata := some
        { nodeWasResumed := true
          subNodeExecutionData := some subNodeExecutionData } } ::
      nodesToBeExecuted

def handleEngineRequest : Engine PUnit := do
  let nodesToBeExecuted ← handleRequest workflow currentNode request runIndex executionData
  nodesToBeExecuted.forM fun nodeData =>
    addNodeToBeExecuted workflow nodeData.inputConnectionData
      nodeData.parentOutputIndex nodeData.parentNode
      nodeData.parentOutputData nodeData.runIndex
      (some nodeData.nodeRunIndex) nodeData.metadata

end N8n
