import N8n.Library.JsonValue
import N8n.Library.SlotArray
import N8n.Library.SortedMap

/-!
# Data model of workflows and executions

Nodes, connections, items, task data and execution-stack entries, with the
fields that the modelled functions read or write.  Times, hints and node
parameters are left out.
-/

namespace N8n

inductive NodeConnectionType where
  | aiAgent
  | aiChain
  | aiDocument
  | aiEmbedding
  | aiLanguageModel
  | aiMemory
  | aiOutputParser
  | aiRetriever
  | aiReranker
  | aiTextSplitter
  | aiTool
  | aiVectorStore
  | main
deriving DecidableEq, Repr

def NodeConnectionType.text : NodeConnectionType → String
  | .aiAgent => "ai_agent"
  | .aiChain => "ai_chain"
  | .aiDocument => "ai_document"
  | .aiEmbedding => "ai_embedding"
  | .aiLanguageModel => "ai_languageModel"
  | .aiMemory => "ai_memory"
  | .aiOutputParser => "ai_outputParser"
  | .aiRetriever => "ai_retriever"
  | .aiReranker => "ai_reranker"
  | .aiTextSplitter => "ai_textSplitter"
  | .aiTool => "ai_tool"
  | .aiVectorStore => "ai_vectorStore"
  | .main => "main"

inductive OnError where
  | continueErrorOutput
  | continueRegularOutput
  | stopWorkflow
deriving DecidableEq, Repr

/-- Absent optional flags are `none`: some checks tell `false` from absent. -/
structure INode where
  id : String := ""
  name : String
  type : String := ""
  typeVersion : Rat := 1
  position : Int × Int := (0, 0)
  disabled : Option Bool := none
  retryOnFail : Option Bool := none
  maxTries : Option Nat := none
  waitBetweenTries : Option Int := none
  alwaysOutputData : Option Bool := none
  executeOnce : Option Bool := none
  onError : Option OnError := none
  continueOnFail : Option Bool := none
  rewireOutputLogTo : Option NodeConnectionType := none
deriving DecidableEq

/-- `node.disabled` as a condition. -/
abbrev INode.IsDisabled (node : INode) : Prop := node.disabled = some true

/-- The target of a connection.  The index is a JSON number and need not be a
valid array index. -/
structure IConnection where
  node : String
  type : NodeConnectionType
  index : Int
deriving DecidableEq, Repr

/-- The connections of each output (or input) index.  A missing output is
`null` in the source. -/
abbrev NodeInputConnections := List (Option (List IConnection))

abbrev INodeConnections := OrderedMap NodeConnectionType NodeInputConnections

/-- Connections keyed by node name and connection type. -/
abbrev IConnections := OrderedMap String INodeConnections

abbrev IDataObject := List (String × JsonValue)

structure ISourceData where
  previousNode : String
  previousNodeOutput : Option Nat := none
  previousNodeRun : Option Nat := none
deriving DecidableEq, Repr

structure IPairedItemData where
  item : Nat
  input : Option Nat := none
  sourceOverwrite : Option ISourceData := none
deriving DecidableEq, Repr

inductive PairedItem where
  | index (item : Nat)
  | single (data : IPairedItemData)
  | multiple (data : List IPairedItemData)
deriving DecidableEq, Repr

/-- An item.  An error object is represented by its properties. -/
structure INodeExecutionData where
  json : IDataObject
  error : Option JsonValue := none
  pairedItem : Option PairedItem := none
deriving DecidableEq

/-- The data of a connection type, one slot for each input or output. -/
abbrev ITaskDataConnections :=
  OrderedMap NodeConnectionType (SlotArray (List INodeExecutionData))

abbrev ITaskDataConnectionsSource :=
  OrderedMap NodeConnectionType (SlotArray ISourceData)

/-- `ExecuteNodeAction`, with the `itemIndex` of its metadata. -/
structure EngineAction where
  nodeName : String
  input : IDataObject := []
  type : NodeConnectionType
  id : String
  itemIndex : Option Nat := none
deriving DecidableEq

structure EngineRequest where
  actions : List EngineAction
  metadata : JsonValue := .object []
deriving DecidableEq

structure SubNodeExecutionDataAction where
  nodeName : String
  runIndex : Nat
  action : EngineAction
deriving DecidableEq

structure SubNodeExecutionData where
  actions : List SubNodeExecutionDataAction
  metadata : JsonValue
deriving DecidableEq

structure ITaskMetadata where
  subNodeExecutionData : Option SubNodeExecutionData := none
  preserveSourceOverwrite : Bool := false
  nodeWasResumed : Bool := false
deriving DecidableEq

structure IExecuteData where
  node : INode
  data : ITaskDataConnections
  source : Option ITaskDataConnectionsSource
  runIndex : Option Nat := none
  metadata : Option ITaskMetadata := none
deriving DecidableEq

inductive ExecutionStatus where
  | canceled
  | crashed
  | error
  | new
  | running
  | success
  | unknown
  | waiting
deriving DecidableEq, Repr

/-- The errors the modelled code can raise.  A node may throw an error of any
name and message. -/
inductive ExecutionError where
  | assertion (message : String)
  | typeError
  | application (message : String)
  | unexpected (message : String)
  | user (message : String)
  | node (name message : Option String)
deriving DecidableEq, Repr

def ExecutionError.isAssertion : ExecutionError → Bool
  | .assertion _ => true
  | _ => false

structure ITaskData where
  executionIndex : Nat := 0
  source : SlotArray ISourceData := []
  executionStatus : Option ExecutionStatus := none
  data : Option ITaskDataConnections := none
  inputOverride : Option ITaskDataConnections := none
  error : Option ExecutionError := none
  metadata : Option ITaskMetadata := none
deriving DecidableEq

abbrev IRunData := OrderedMap String (List ITaskData)

abbrev IPinData := OrderedMap String (List INodeExecutionData)

/-- The slots of waiting nodes, by node name, entry index and type. -/
abbrev WaitingSlots (α : Type) :=
  OrderedMap String (SortedMap Nat (OrderedMap NodeConnectionType (SlotArray α)))

/-- The partial inputs of waiting nodes. -/
abbrev IWaitingForExecution := WaitingSlots (List INodeExecutionData)

abbrev IWaitingForExecutionSource := WaitingSlots ISourceData

/-- The `executionData` of a run: the stack and the waiting entries.  A
missing `waitingExecutionSource` is an empty one. -/
structure ExecutionData where
  nodeExecutionStack : List IExecuteData := []
  waitingExecution : IWaitingForExecution := .empty
  waitingExecutionSource : IWaitingForExecutionSource := .empty
deriving DecidableEq

namespace WaitingSlots

variable {α : Type} (waiting : WaitingSlots α)

def entriesOf (nodeName : String) : SortedMap Nat (OrderedMap NodeConnectionType (SlotArray α)) :=
  (waiting.get? nodeName).getD .empty

theorem entriesOf_set (nodeName other : String)
    (entries : SortedMap Nat (OrderedMap NodeConnectionType (SlotArray α))) :
    entriesOf (waiting.set nodeName entries) other =
      if nodeName = other then entries else waiting.entriesOf other := by
  rw [entriesOf, OrderedMap.get?_set]
  split <;> rfl

@[simp] theorem entriesOf_set_self (nodeName : String)
    (entries : SortedMap Nat (OrderedMap NodeConnectionType (SlotArray α))) :
    entriesOf (waiting.set nodeName entries) nodeName = entries := by
  rw [entriesOf_set, if_pos rfl]

end WaitingSlots

/-- The item `{ json: {} }`. -/
def INodeExecutionData.blank : INodeExecutionData := { json := [] }

variable (slots : SlotArray (List INodeExecutionData))

/-- The task data `{ main: slots }`. -/
def ITaskDataConnections.ofMain : ITaskDataConnections :=
  OrderedMap.empty.set .main slots

/-- The source `{ main: slots }`. -/
def ITaskDataConnectionsSource.ofMain (slots : SlotArray ISourceData) :
    ITaskDataConnectionsSource :=
  OrderedMap.empty.set .main slots

@[simp] theorem ITaskDataConnections.get?_ofMain :
    (ITaskDataConnections.ofMain slots).get? .main = some slots := by
  simp [ITaskDataConnections.ofMain]

@[simp] theorem ITaskDataConnectionsSource.get?_ofMain (slots : SlotArray ISourceData) :
    (ITaskDataConnectionsSource.ofMain slots).get? .main = some slots := by
  simp [ITaskDataConnectionsSource.ofMain]

end N8n
