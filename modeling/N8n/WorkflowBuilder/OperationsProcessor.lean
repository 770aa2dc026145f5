import N8n.Library.ObjectStore
import N8n.Library.OrderedMap
import N8n.Library.JsonValue

/-!
# Operations of the AI workflow builder

The builder collects operations and applies them to the workflow one after
the other.  The nested tables of the connections are objects which the
workflow, the operations and the result may share, so they live in a heap.
The topmost table is copied by every operation that writes to it and the
objects of the nodes are never written, so both are values here.  Tables are
read by their own keys.
-/

namespace N8n.OperationsProcessor

/-- The properties besides `id` and `name` are only carried along. -/
structure INode where
  id : String
  name : String
  properties : OrderedMap String JsonValue := .empty

/-- `Partial<INode>` -/
structure NodeUpdates where
  id : Option String := none
  name : Option String := none
  properties : OrderedMap String JsonValue := .empty

structure IConnection where
  node : String
  type : String
  index : Int
deriving DecidableEq, Repr

/-- The objects behind the connections: arrays of connections, arrays with
one entry for each output and tables with one entry for each connection type.
A missing output is `null` or a hole. -/
structure Heap where
  lists : ObjectStore (List IConnection)
  outputs : ObjectStore (List (Option Nat))
  tables : ObjectStore (OrderedMap String Nat)
deriving DecidableEq, Repr

/-- The source nodes with the references to their tables. -/
abbrev IConnections := OrderedMap String Nat

structure SimpleWorkflow where
  nodes : List INode
  connections : IConnections
  name : String

inductive WorkflowOperation where
  | clear
  | removeNode (nodeIds : List String)
  | addNodes (nodes : List INode)
  | updateNode (nodeId : String) (updates : NodeUpdates)
  | setConnections (connections : IConnections)
  | mergeConnections (connections : IConnections)
  | removeConnection (sourceNode targetNode connectionType : String)
      (sourceOutputIndex : Nat) (targetInputIndex : Int)
  | setName (name : String)

/-- The workflow that an operation works on, with the heap of the process. -/
structure State where
  heap : Heap
  workflow : SimpleWorkflow

/-! ## Reading connections -/

variable (heap : Heap) (connections : IConnections) (source type : String)

/-- `connections[source][type]` -/
def outputsRef? : Option Nat :=
  (connections.get? source).bind fun table =>
    (heap.tables.read table).get? type

/-- `outputs[index]`, unless it is missing. -/
def listIn (outputs index : Nat) : Option Nat :=
  ((heap.outputs.read outputs)[index]?).join

/-- `connections[source][type][index]` -/
def listRef? (index : Nat) : Option Nat :=
  (outputsRef? heap connections source type).bind fun outputs =>
    listIn heap outputs index

def connectionsAt (index : Nat) : List IConnection :=
  match listRef? heap connections source type index with
  | none => []
  | some list => heap.lists.read list

/-! ## Operations -/

variable (state : State)

def applyClearOperation : State :=
  { state with
    workflow := { nodes := [], connections := .empty, name := "" } }

/-- `outputs.map` with the connections to removed nodes filtered out. -/
def cleanOutputs (nodesToRemove : List String) (heap : Heap) :
    List (Option Nat) → Heap × List (Option Nat)
  | [] => (heap, [])
  | none :: outputs =>
    let (heap, cleaned) := cleanOutputs nodesToRemove heap outputs
    (heap, none :: cleaned)
  | some list :: outputs =>
    let (lists, kept) := heap.lists.allocate ((heap.lists.read list).filter fun conn =>
        conn.node ∉ nodesToRemove)
    let (heap, cleaned) := cleanOutputs nodesToRemove { heap with lists } outputs
    (heap, some kept :: cleaned)

variable (nodesToRemove : List String)

/-- One connection type of a source; the new table is `table`. -/
def cleanType (table : Nat) (heap : Heap) (entry : String × Nat) : Heap :=
  let (heap, cleaned) := cleanOutputs nodesToRemove heap (heap.outputs.read entry.2)
  let (outputs, ref) := heap.outputs.allocate cleaned
  { heap with
    outputs
    tables := heap.tables.write table ((heap.tables.read table).set entry.1 ref) }

def cleanSource (built : Heap × IConnections) (entry : String × Nat) : Heap × IConnections :=
  if entry.1 ∈ nodesToRemove then built
  else
    let (tables, table) := built.1.tables.allocate .empty
    ((built.1.tables.read entry.2).ownEntries.foldl
      (cleanType nodesToRemove table) { built.1 with tables },
      built.2.set entry.1 table)

def applyRemoveNodeOperation (nodeIds : List String) : State :=
  let cleaned := state.workflow.connections.ownEntries.foldl
    (cleanSource nodeIds) (state.heap, .empty)
  { heap := cleaned.1
    workflow := { state.workflow with
      nodes := state.workflow.nodes.filter fun node => node.id ∉ nodeIds
      connections := cleaned.2 } }

/-- A later node with the same id takes the place of the earlier one. -/
def applyAddNodesOperation (nodes : List INode) : State :=
  let nodeMap := (state.workflow.nodes ++ nodes).foldl
    (fun (map : OrderedMap String INode) node => map.set node.id node) .empty
  { state with workflow := { state.workflow with nodes := nodeMap.values } }

/-- `{ ...node, ...updates }` -/
def INode.update (node : INode) (updates : NodeUpdates) : INode where
  id := updates.id.getD node.id
  name := updates.name.getD node.name
  properties := updates.properties.entries.foldl
    (fun properties entry => properties.set entry.1 entry.2) node.properties

def applyUpdateNodeOperation (nodeId : String) (updates : NodeUpdates) : State :=
  { state with
    workflow := { state.workflow with
      nodes := state.workflow.nodes.map fun node =>
        if node.id = nodeId then node.update updates else node } }

/-- The table of the operation becomes the table of the workflow. -/
def applySetConnectionsOperation (connections : IConnections) : State :=
  { state with workflow := { state.workflow with connections } }

/-- `outputs[index] = list`; a write past the end leaves holes. -/
def setOutput (outputs : List (Option Nat)) (index list : Nat) : List (Option Nat) :=
  if index < outputs.length then outputs.set index (some list)
  else outputs ++ List.replicate (index - outputs.length) none ++ [some list]

/-- The connections that are pushed: the set of the existing ones is made
before the first push. -/
def additions (existing new : List IConnection) : List IConnection :=
  new.filter fun conn => conn ∉ existing

def mergeAt (existingOutputs newOutputs : Nat) (heap : Heap) (index : Nat) : Heap :=
  match listIn heap newOutputs index with
  | none => heap
  | some new =>
    match listIn heap existingOutputs index with
    | none =>
      { heap with
        outputs := heap.outputs.write existingOutputs
          (setOutput (heap.outputs.read existingOutputs) index new) }
    | some existing =>
      { heap with
        lists := heap.lists.write existing (heap.lists.read existing ++
            additions (heap.lists.read existing) (heap.lists.read new)) }

/-- Merges each output index.  No write makes the existing array longer than
the longer one of the two. -/
def mergeOutputs (heap : Heap) (existingOutputs newOutputs : Nat) : Heap :=
  (List.range (max (heap.outputs.read newOutputs).length
    (heap.outputs.read existingOutputs).length)).foldl (mergeAt existingOutputs newOutputs) heap

def mergeType (table : Nat) (heap : Heap) (entry : String × Nat) : Heap :=
  match (heap.tables.read table).get? entry.1 with
  | none =>
    { heap with
      tables := heap.tables.write table ((heap.tables.read table).set entry.1 entry.2) }
  | some existingOutputs => mergeOutputs heap existingOutputs entry.2

def mergeSource (merged : Heap × IConnections) (entry : String × Nat) : Heap × IConnections :=
  match merged.2.get? entry.1 with
  | none => (merged.1, merged.2.set entry.1 entry.2)
  | some table =>
    ((merged.1.tables.read entry.2).ownEntries.foldl (mergeType table) merged.1, merged.2)

def applyMergeConnectionsOperation (connections : IConnections) : State :=
  let merged := connections.ownEntries.foldl mergeSource (state.heap, state.workflow.connections)
  { heap := merged.1
    workflow := { state.workflow with connections := merged.2 } }

def applyRemoveConnectionOperation (sourceNode targetNode connectionType : String)
    (sourceOutputIndex : Nat) (targetInputIndex : Int) : State :=
  let heap := state.heap
  match state.workflow.connections.get? sourceNode with
  | none => state
  | some table =>
    match (heap.tables.read table).get? connectionType with
    | none => state
    | some connectionTypeOutputs =>
      match listIn heap connectionTypeOutputs sourceOutputIndex with
      | none => state
      | some outputConnections =>
        let filteredConnections :=
          (heap.lists.read outputConnections).filter fun conn =>
            !(conn.node = targetNode && conn.type = connectionType && conn.index = targetInputIndex)
        let (lists, filtered) := heap.lists.allocate filteredConnections
        let outputs := heap.outputs.write connectionTypeOutputs
          ((heap.outputs.read connectionTypeOutputs).set sourceOutputIndex (some filtered))
        let hasAnyConnections :=
          (outputs.read connectionTypeOutputs).any fun output =>
            output.any fun list => !(lists.read list).isEmpty
        if filteredConnections.isEmpty && !hasAnyConnections then
          let remaining := (heap.tables.read table).delete connectionType
          { heap := { lists, outputs
                      tables := heap.tables.write table remaining }
            workflow := { state.workflow with
              connections :=
                if remaining.entries.isEmpty then
                  state.workflow.connections.delete sourceNode
                else state.workflow.connections } }
        else { state with heap := { heap with lists, outputs } }

def applySetNameOperation (name : String) : State :=
  { state with workflow := { state.workflow with name } }

def applyOperation : WorkflowOperation → State
  | .clear => applyClearOperation state
  | .removeNode nodeIds => applyRemoveNodeOperation state nodeIds
  | .addNodes nodes => applyAddNodesOperation state nodes
  | .updateNode nodeId updates =>
    applyUpdateNodeOperation state nodeId updates
  | .setConnections connections =>
    applySetConnectionsOperation state connections
  | .mergeConnections connections =>
    applyMergeConnectionsOperation state connections
  | .removeConnection sourceNode targetNode connectionType sourceOutputIndex targetInputIndex =>
    applyRemoveConnectionOperation state sourceNode targetNode
      connectionType sourceOutputIndex targetInputIndex
  | .setName name => applySetNameOperation state name

/-- The copy of the workflow, made before the first operation, shares the
tables of the sources with it. -/
def applyOperations (heap : Heap) (workflow : SimpleWorkflow)
    (operations : List WorkflowOperation) : State :=
  operations.foldl applyOperation { heap, workflow }

end N8n.OperationsProcessor
