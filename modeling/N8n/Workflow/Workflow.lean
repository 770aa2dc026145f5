import N8n.Workflow.Connections

/-!
# Workflows

The `Workflow` class with its derived connection table.  Node types and the
expression evaluator are parameters of a workflow.
-/

namespace N8n

open OrderedMap

/-- The inputs a node type requires before it may execute.  A string is an
expression over the node. -/
inductive RequiredInputs where
  | count (inputs : Nat)
  | indexes (inputs : List Nat)
  | expression (text : String)
deriving DecidableEq, Repr

structure INodeTypeDescription where
  group : List String := []
  inputsLength : Nat := 1
  mainOutputs : Nat := 1
  requiredInputs : Option RequiredInputs := none
deriving DecidableEq, Repr

inductive ExecutionOrder where
  | v0
  | v1
deriving DecidableEq, Repr

/-- Nodes are stored under their names, as `setNodes` does. -/
structure Workflow where
  nodes : OrderedMap String INode
  connectionsBySourceNode : IConnections
  executionOrder : Option ExecutionOrder := none
  pinData : Option IPinData := none
  getByNameAndVersion : String → Rat → INodeTypeDescription := fun _ _ => {}
  getSimpleParameterValue : INode → String → List Nat := fun _ _ => []
  nodes_named : ∀ entry ∈ nodes.entries, entry.2.name = entry.1 := by decide

namespace Workflow

section

variable (workflow : Workflow)

def connectionsByDestinationNode : IConnections :=
  mapConnectionsByDestination workflow.connectionsBySourceNode

variable (nodeName : String)

def getNode : Option INode :=
  workflow.nodes.get? nodeName

def getParentNodes : List String :=
  getConnectedNodes workflow.connectionsByDestinationNode nodeName

def getChildNodes : List String :=
  getConnectedNodes workflow.connectionsBySourceNode nodeName

def nodeType (node : INode) : INodeTypeDescription :=
  workflow.getByNameAndVersion node.type node.typeVersion

/-- The main inputs of a node: `connectionsByDestinationNode[node]?.main` -/
def mainInputs : Option NodeInputConnections :=
  workflow.connectionsByDestinationNode.at? nodeName .main

/-- `connectionsByDestinationNode[node]?.main?.length ?? 0` -/
def numberOfInputs : Nat :=
  ((workflow.mainInputs nodeName).map List.length).getD 0

/-- The main connections of a node in loop order, by output index. -/
def mainOutputs : NodeInputConnections :=
  (workflow.connectionsBySourceNode.at? nodeName .main).getD []

def isLegacyExecutionOrder : Bool :=
  workflow.executionOrder ≠ some .v1

/-- The recursion of `getHighestNode`, returning the nodes found and the
nodes checked so far.  Each level checks one more node. -/
def getHighestNodeFrom (workflow : Workflow) :
    Nat → String → Option Nat → List String → List String × List String
  | 0, _, _, checkedNodes => ([], checkedNodes)
  | fuel + 1, nodeName, nodeConnectionIndex, checkedNodes =>
    let currentHighest :=
      match workflow.getNode nodeName with
      | some node => if node.disabled = some false then [nodeName] else []
      | none => []
    match workflow.mainInputs nodeName with
    | none => (currentHighest, checkedNodes)
    | some inputs =>
      if nodeName ∈ checkedNodes then (currentHighest, checkedNodes)
      else
        let selected := inputs.zipIdx.filter fun (_, connectionIndex) =>
          nodeConnectionIndex.all (· = connectionIndex)
        (selected.flatMap (Option.getD ·.1 [])).foldl (fun (returnNodes, checkedNodes) connection =>
            if connection.node ∈ checkedNodes then
              (returnNodes, checkedNodes)
            else
              match workflow.getNode connection.node with
              | none => (returnNodes, checkedNodes)
              | some parent =>
                let (found, checkedNodes) :=
                  workflow.getHighestNodeFrom fuel connection.node none checkedNodes
                let addNodes :=
                  if found = [] ∧ parent.disabled ≠ some true then
                    [connection.node]
                  else found
                (addNodes.foldl (fun nodes name =>
                  if name ∈ nodes then nodes else nodes ++ [name])
                  returnNodes, checkedNodes))
          ([], checkedNodes ++ [nodeName])

def getHighestNode (nodeConnectionIndex : Option Nat := none) : List String :=
  (workflow.getHighestNodeFrom (workflow.nodes.size + 2) nodeName nodeConnectionIndex []).1

end

variable {workflow : Workflow}

theorem getNode_name {nodeName : String} {node : INode}
    (found : workflow.getNode nodeName = some node) : node.name = nodeName :=
  workflow.nodes_named _ (get?_eq_some_iff.mp found)

theorem getNode_of_mem {node : INode} (mem : node ∈ workflow.nodes.values) :
    workflow.getNode node.name = some node := by
  obtain ⟨entry, entryMem, rfl⟩ := List.mem_map.mp mem
  rw [workflow.nodes_named entry entryMem]
  exact get?_eq_some_iff.mpr entryMem

def setNodes (nodes : List INode) : OrderedMap String INode :=
  nodes.foldl (fun stored node => stored.set node.name node) .empty

theorem setNodes_named (nodes : List INode) :
    ∀ entry ∈ (setNodes nodes).entries, entry.2.name = entry.1 := by
  suffices named : ∀ stored : OrderedMap String INode,
      (∀ entry ∈ stored.entries, entry.2.name = entry.1) →
      ∀ entry ∈ (nodes.foldl (fun stored node => stored.set node.name node)
        stored).entries, entry.2.name = entry.1 from
    named .empty (by simp)
  induction nodes with
  | nil => exact fun _ named => named
  | cons node nodes ih =>
    intro stored named
    apply ih
    intro entry mem
    rcases mem_entries_set.mp mem with rfl | ⟨mem, _⟩
    · rfl
    · exact named entry mem

/-- The connection table names only nodes of the workflow. -/
def ConnectionsExist (workflow : Workflow) : Prop :=
  (∀ fromNode ∈ workflow.connectionsBySourceNode.keys, fromNode ∈ workflow.nodes.keys) ∧
  ∀ source ∈ workflow.connectionsBySourceNode.enumerate,
    source.connection.node ∈ workflow.nodes.keys

instance (workflow : Workflow) : Decidable workflow.ConnectionsExist :=
  inferInstanceAs (Decidable (_ ∧ _))

theorem ConnectionsExist.fromNode_mem
    (exist : workflow.ConnectionsExist) {source : SourceConnection}
    (mem : source ∈ workflow.connectionsBySourceNode.enumerate) :
    source.fromNode ∈ workflow.nodes.keys := by
  obtain ⟨inputs, conns, found, _⟩ := IConnections.mem_enumerate.mp mem
  obtain ⟨byType, byTypeFound, _⟩ := Option.bind_eq_some_iff.mp found
  have key := get?_eq_some_iff.mp byTypeFound
  exact exist.1 _ (List.mem_map.mpr ⟨_, key, rfl⟩)

theorem exists_getNode {nodeName : String} (mem : nodeName ∈ workflow.nodes.keys) :
    ∃ node, workflow.getNode nodeName = some node := by
  rw [← Option.isSome_iff_exists, getNode]
  exact has_iff.mpr mem

end Workflow

end N8n
