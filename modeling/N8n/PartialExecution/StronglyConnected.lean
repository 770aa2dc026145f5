import N8n.Library.LinkPath
import N8n.PartialExecution.DirectedGraph

/-!
# Strongly connected components

`getStronglyConnectedComponents` is a depth-first search with low-link
values.  At the root of a component it pops the nodes from the stack whose
low-link value is the id of the root, so a component is returned as a whole
only if the id of its root arrives at all its nodes.  Ids travel against the
connections in the order in which the search completes these, which
`dfsOrder` records.
-/

namespace N8n

/-- The local variables of `getStronglyConnectedComponents`.  The top of the
stack comes first. -/
structure SccState where
  id : Nat := 0
  visited : List INode := []
  ids : OrderedMap INode Nat := .empty
  lowLinkValues : OrderedMap INode Nat := .empty
  stack : List INode := []
  stronglyConnectedComponents : List (List INode) := []

namespace SccState

variable (state : SccState)

def visit (node : INode) : SccState :=
  { state with
    visited := OrderedSet.add state.visited node
    lowLinkValues := state.lowLinkValues.set node state.id
    ids := state.ids.set node state.id
    id := state.id + 1
    stack := node :: state.stack }

/-- If the child is on the stack, take over its low-link value. -/
def minLowLink (node child : INode) : Except ExecutionError SccState :=
  if child ∈ state.stack then do
    let childLowLinkValue ← assertDefined (state.lowLinkValues.get? child)
    let ownLowLinkValue ← assertDefined (state.lowLinkValues.get? node)
    let lowestLowLinkValue := min childLowLinkValue ownLowLinkValue
    return { state with
      lowLinkValues := state.lowLinkValues.set node lowestLowLinkValue }
  else return state

/-- Pop from the stack until it is empty or a node has a different low-link
value. -/
def popComponent (ownId : Nat) : SccState :=
  let hasOwnId := fun next => decide (state.lowLinkValues.get? next = some ownId)
  let scc := state.stack.takeWhile hasOwnId
  { state with
    stack := state.stack.dropWhile hasOwnId
    stronglyConnectedComponents :=
      if scc.isEmpty then state.stronglyConnectedComponents
      else state.stronglyConnectedComponents ++ [scc] }

def finish (node : INode) : Except ExecutionError SccState := do
  let ownId ← assertDefined (state.ids.get? node)
  let ownLowLinkValue ← assertDefined (state.lowLinkValues.get? node)
  if ownId = ownLowLinkValue then return state.popComponent ownId
  else return state

end SccState

namespace DirectedGraph

/-- Each level of the recursion visits another node, so fuel above the number
of nodes is never used up. -/
def followNode (graph : DirectedGraph) : Nat → INode → SccState → Except ExecutionError SccState
  | 0, _, state => .ok state
  | fuel + 1, node, state =>
    if node ∈ state.visited then .ok state
    else do
      let state := state.visit node
      let directChildren ← graph.getDirectChildConnections node
      let state ← directChildren.foldlM (fun state connection => do
          let state ← followNode graph fuel connection.toNode state
          state.minLowLink node connection.toNode)
        state
      state.finish node

section

variable (graph : DirectedGraph)

def getStronglyConnectedComponents : Except ExecutionError (List (List INode)) := do
  let state ← graph.getNodes.foldlM
    (fun state node => graph.followNode (graph.nodes.size + 1) node state) {}
  return state.stronglyConnectedComponents

/-- The nodes in the order in which a depth-first search visits them, and the
connections in the order in which it completes them. -/
structure DfsOrder where
  visited : List INode := []
  completed : List GraphConnection := []

def DfsOrder.visit (order : DfsOrder) (node : INode) : DfsOrder :=
  { order with visited := order.visited ++ [node] }

def DfsOrder.complete (order : DfsOrder) (connection : GraphConnection) : DfsOrder :=
  { order with completed := order.completed ++ [connection] }

def childConnections (node : INode) : List GraphConnection :=
  graph.getConnections.filter (·.fromNode = node)

/-- The depth-first search alone. -/
def traverse (graph : DirectedGraph) : Nat → INode → DfsOrder → DfsOrder
  | 0, _, order => order
  | fuel + 1, node, order =>
    if node ∈ order.visited then order
    else
      (graph.childConnections node).foldl (fun order connection =>
          (traverse graph fuel connection.toNode order).complete connection)
        (order.visit node)

def dfsOrder : DfsOrder :=
  graph.getNodes.foldl (fun order node => graph.traverse (graph.nodes.size + 1) node order) {}

def SameComponent (node other : INode) : Prop :=
  graph.Reachable node other ∧ graph.Reachable other node

end

/-- A path whose connections are completed from its end to its start. -/
abbrev Linked (order : DfsOrder) : INode → INode → Prop :=
  LinkPath GraphConnection.fromNode GraphConnection.toNode order.completed

/-- The position of a node among the visited ones. -/
def DfsOrder.number (order : DfsOrder) (node : INode) : Nat :=
  order.visited.idxOf node

section Order

variable {order : DfsOrder} {node other : INode}

@[simp] theorem DfsOrder.mem_visited_visit : other ∈ (order.visit node).visited ↔
      other ∈ order.visited ∨ other = node := by
  simp [DfsOrder.visit]

theorem DfsOrder.number_visit (mem : other ∈ order.visited) :
    (order.visit node).number other = order.number other :=
  List.idxOf_append_of_mem mem

theorem DfsOrder.number_visit_self (fresh : node ∉ order.visited) :
    (order.visit node).number node = order.visited.length := by
  rw [DfsOrder.number, DfsOrder.visit, List.idxOf_append_of_notMem fresh]
  simp

theorem DfsOrder.number_lt (mem : node ∈ order.visited) :
    order.number node < order.visited.length :=
  List.idxOf_lt_length_of_mem mem

theorem DfsOrder.number_inj (mem : node ∈ order.visited)
    (same : order.number node = order.number other) : node = other :=
  (List.idxOf_inj mem).mp same

end Order

namespace SameComponent

variable {graph : DirectedGraph} {first second third : INode}

theorem refl (node : INode) : graph.SameComponent node node := ⟨.refl, .refl⟩

theorem symm (same : graph.SameComponent first second) : graph.SameComponent second first :=
  ⟨same.2, same.1⟩

theorem trans (left : graph.SameComponent first second) (right : graph.SameComponent second third) :
    graph.SameComponent first third :=
  ⟨left.1.trans right.1, right.2.trans left.2⟩

end SameComponent

end DirectedGraph

end N8n
