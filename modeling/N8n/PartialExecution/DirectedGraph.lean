import N8n.Library.Collect
import N8n.Library.OrderedSet
import N8n.Workflow.Workflow

/-!
# Directed graphs

The `DirectedGraph` class: a map of nodes by name and a map of connections by
a string key.  Both maps are private and every method keys them in the same
way, so the keys are part of the structure.  Failed `a.ok` checks are
assertion errors.  A graph is well formed when its connections join nodes of
the graph; removing a node may break this.
-/

namespace N8n

open List OrderedMap

def assertDefined {α : Type} (value : Option α) : Except ExecutionError α :=
  match value with
  | some value => .ok value
  | none => .error (.assertion "")

structure GraphConnection where
  fromNode : INode
  toNode : INode
  type : NodeConnectionType := .main
  outputIndex : Nat := 0
  inputIndex : Int := 0
deriving DecidableEq

namespace GraphConnection

variable (connection : GraphConnection)

/-- `fromName-outputType-outputIndex-inputIndex-toName` -/
def makeKey : String :=
  connection.fromNode.name ++ "-" ++ connection.type.text ++ "-" ++
    toString connection.outputIndex ++ "-" ++
    toString connection.inputIndex ++ "-" ++ connection.toNode.name

abbrev IsMain : Prop := connection.type = .main

end GraphConnection

@[ext] structure DirectedGraph where
  nodes : OrderedMap String INode := .empty
  connections : OrderedMap String GraphConnection := .empty
  nodesNamed : ∀ entry ∈ nodes.entries, entry.2.name = entry.1 := by simp
  connectionsKeyed : ∀ entry ∈ connections.entries, entry.2.makeKey = entry.1 := by simp

namespace DirectedGraph

/-- `new DirectedGraph()` -/
abbrev empty : DirectedGraph := {}

section

variable (graph : DirectedGraph)

def hasNode (nodeName : String) : Bool :=
  graph.nodes.has nodeName

def getNodes : List INode := graph.nodes.values

def getNodesByNames (names : List String) : List INode :=
  (names.filterMap graph.nodes.get?).foldl OrderedSet.add []

def getConnections : List GraphConnection :=
  graph.connections.values

section

variable (node : INode)

def getConnectionsTo : List GraphConnection :=
  graph.getConnections.filter fun connection => connection.toNode = node

def addNode : DirectedGraph :=
  { graph with
    nodes := graph.nodes.set node.name node
    nodesNamed := by
      intro entry mem
      rcases mem_entries_set.mp mem with rfl | ⟨mem, _⟩
      · rfl
      · exact graph.nodesNamed entry mem }

def addNodes (nodes : List INode) : DirectedGraph :=
  nodes.foldl addNode graph

/-- `this.connections.set(this.makeKey(connection), connection)` -/
def setConnection (connection : GraphConnection) : DirectedGraph :=
  { graph with
    connections := graph.connections.set connection.makeKey connection
    connectionsKeyed := by
      intro entry mem
      rcases mem_entries_set.mp mem with rfl | ⟨mem, _⟩
      · rfl
      · exact graph.connectionsKeyed entry mem }

def holdsNode : Bool :=
  graph.nodes.get? node.name = some node

def assertNode : Except ExecutionError Unit :=
  if graph.holdsNode node then .ok () else .error (.assertion "")

def addConnection (connection : GraphConnection) : Except ExecutionError DirectedGraph := do
  graph.assertNode connection.fromNode
  graph.assertNode connection.toNode
  return graph.setConnection connection

def addConnections (connections : List GraphConnection) : Except ExecutionError DirectedGraph :=
  connections.foldlM addConnection graph

def getDirectChildConnections : Except ExecutionError (List GraphConnection) := do
  graph.assertNode node
  return graph.getConnections.filter fun connection =>
    connection.fromNode = node

def getDirectParentConnections : Except ExecutionError (List GraphConnection) := do
  graph.assertNode node
  return graph.getConnections.filter fun connection =>
    connection.toNode = node

/-- All nodes reachable over at least one connection.  Each level of the
recursion adds the end of another connection. -/
def getChildren : Except ExecutionError (List INode) :=
  Collect.collect (fun node => do
      return (← graph.getDirectChildConnections node).map (·.toNode))
    id (graph.connections.size + 1) node []

def getParentConnections : Except ExecutionError (List GraphConnection) :=
  Collect.collect graph.getDirectParentConnections (·.fromNode) (graph.connections.size + 1) node []

def deleteConnectionsOf : DirectedGraph :=
  { graph with
    connections := graph.connections.filter fun entry =>
      entry.2.toNode ≠ node ∧ entry.2.fromNode ≠ node
    connectionsKeyed := fun entry mem =>
      graph.connectionsKeyed entry (mem_entries_filter.mp mem).1 }

def deleteNode : DirectedGraph :=
  { graph with
    nodes := graph.nodes.delete node.name
    nodesNamed := fun entry mem =>
      graph.nodesNamed entry (mem_entries_delete.mp mem).1 }

def removeNode : DirectedGraph :=
  (graph.deleteConnectionsOf node).deleteNode node

/-- The connection that replaces an incoming and an outgoing one. -/
def bridge (incoming outgoing : GraphConnection) : GraphConnection :=
  { incoming with
    toNode := outgoing.toNode
    inputIndex := outgoing.inputIndex }

variable (skipConnectionFn : GraphConnection → Bool)

/-- The connections that replace those of a removed node. -/
def newConnections (incomingConnections outgoingConnections : List GraphConnection) :
    List GraphConnection :=
  (incomingConnections.filter (!skipConnectionFn ·)).flatMap fun incoming =>
    (outgoingConnections.filter (!skipConnectionFn ·)).map (bridge incoming)

/-- `removeNode` with `reconnectConnections: true` -/
def removeNodeReconnecting : Except ExecutionError (DirectedGraph × List GraphConnection) := do
  let incomingConnections ← graph.getDirectParentConnections node
  let outgoingConnections ← graph.getDirectChildConnections node
  let added := newConnections skipConnectionFn incomingConnections outgoingConnections
  return ((added.foldl setConnection (graph.deleteConnectionsOf node)).deleteNode node, added)

end

def clone : Except ExecutionError DirectedGraph :=
  (DirectedGraph.empty.addNodes graph.getNodes).addConnections graph.getConnections

end

structure WellFormed (graph : DirectedGraph) : Prop where
  fromMem : ∀ connection ∈ graph.getConnections, connection.fromNode ∈ graph.getNodes
  toMem : ∀ connection ∈ graph.getConnections, connection.toNode ∈ graph.getNodes

section Nodes

variable {graph : DirectedGraph} {node : INode}

theorem holdsNode_iff : graph.holdsNode node = true ↔ node ∈ graph.getNodes := by
  rw [holdsNode, decide_eq_true_eq, get?_eq_some_iff]
  constructor
  · exact mem_values_of_mem_entries
  · intro mem
    obtain ⟨entry, entryMem, rfl⟩ := mem_map.mp mem
    rw [graph.nodesNamed entry entryMem]
    exact entryMem

theorem eq_of_name_eq {other : INode} (left : node ∈ graph.getNodes)
    (right : other ∈ graph.getNodes) (same : node.name = other.name) :
    node = other := by
  have leftHolds := holdsNode_iff.mpr left
  have rightHolds := holdsNode_iff.mpr right
  rw [holdsNode, decide_eq_true_eq] at leftHolds rightHolds
  rw [same, rightHolds] at leftHolds
  exact (Option.some.inj leftHolds).symm

section

variable (graph : DirectedGraph)

theorem getNodes_nodup : graph.getNodes.Nodup := by
  have names : graph.getNodes.map INode.name = graph.nodes.keys := by
    rw [getNodes, OrderedMap.values, OrderedMap.keys, map_map]
    exact map_congr_left graph.nodesNamed
  exact List.Nodup.of_map INode.name (names ▸ graph.nodes.keys_nodup)

theorem getConnections_nodup : graph.getConnections.Nodup := by
  have keys : graph.getConnections.map GraphConnection.makeKey =
      graph.connections.keys := by
    rw [getConnections, OrderedMap.values, OrderedMap.keys, map_map]
    exact map_congr_left graph.connectionsKeyed
  exact List.Nodup.of_map GraphConnection.makeKey (keys ▸ graph.connections.keys_nodup)

theorem missing_le_size {seen : List INode} :
    Collect.missing graph.getNodes seen ≤ graph.nodes.size := by
  refine (length_filter_le _ _).trans_eq ?_
  simp [getNodes, OrderedMap.values, size]

end

theorem eq_of_makeKey_eq {left right : GraphConnection} (leftMem : left ∈ graph.getConnections)
    (rightMem : right ∈ graph.getConnections)
    (same : left.makeKey = right.makeKey) : left = right := by
  obtain ⟨leftEntry, leftIn, rfl⟩ := mem_map.mp leftMem
  obtain ⟨rightEntry, rightIn, rfl⟩ := mem_map.mp rightMem
  rw [graph.connectionsKeyed _ leftIn, graph.connectionsKeyed _ rightIn] at same
  have leftFound := get?_eq_some_iff.mpr leftIn
  have rightFound := get?_eq_some_iff.mpr rightIn
  change graph.connections.get? leftEntry.1 = some leftEntry.2 at leftFound
  change graph.connections.get? rightEntry.1 = some rightEntry.2 at rightFound
  rw [same, rightFound] at leftFound
  exact (Option.some.inj leftFound).symm

theorem assertNode_of_mem (mem : node ∈ graph.getNodes) : graph.assertNode node = .ok () := by
  simp [assertNode, holdsNode_iff.mpr mem]

theorem assertNode_of_not_mem (missing : node ∉ graph.getNodes) :
    graph.assertNode node = .error (.assertion "") := by
  rw [← holdsNode_iff] at missing
  simp [assertNode, missing]

theorem getDirectChildConnections_of_mem (mem : node ∈ graph.getNodes) :
    graph.getDirectChildConnections node =
      .ok (graph.getConnections.filter (·.fromNode = node)) := by
  rw [getDirectChildConnections, assertNode_of_mem mem]
  rfl

theorem getDirectParentConnections_of_mem (mem : node ∈ graph.getNodes) :
    graph.getDirectParentConnections node =
      .ok (graph.getConnections.filter (·.toNode = node)) := by
  rw [getDirectParentConnections, assertNode_of_mem mem]
  rfl

theorem getDirectParentConnections_of_not_mem (missing : node ∉ graph.getNodes) :
    graph.getDirectParentConnections node = .error (.assertion "") := by
  rw [getDirectParentConnections, assertNode_of_not_mem missing]
  rfl

end Nodes

section Updates

variable {graph : DirectedGraph}

theorem mem_getNodes_addNode {node other : INode} : other ∈ (graph.addNode node).getNodes ↔
      other = node ∨ (other ∈ graph.getNodes ∧ other.name ≠ node.name) := by
  simp only [getNodes, OrderedMap.values, addNode, mem_map, mem_entries_set]
  constructor
  · rintro ⟨entry, rfl | ⟨mem, ne⟩, rfl⟩
    · exact .inl rfl
    · rw [← graph.nodesNamed entry mem] at ne
      exact .inr ⟨⟨entry, mem, rfl⟩, ne⟩
  · rintro (rfl | ⟨⟨entry, mem, rfl⟩, ne⟩)
    · exact ⟨(other.name, other), .inl rfl, rfl⟩
    · rw [graph.nodesNamed entry mem] at ne
      exact ⟨entry, .inr ⟨mem, ne⟩, rfl⟩

theorem mem_getNodes_deleteNode {node other : INode} (mem : node ∈ graph.getNodes) :
    other ∈ (graph.deleteNode node).getNodes ↔ other ∈ graph.getNodes ∧ other ≠ node := by
  have named : other ∈ (graph.deleteNode node).getNodes ↔
      other ∈ graph.getNodes ∧ other.name ≠ node.name := by
    simp only [getNodes, OrderedMap.values, deleteNode, mem_map, mem_entries_delete]
    constructor
    · rintro ⟨entry, ⟨entryMem, ne⟩, rfl⟩
      rw [← graph.nodesNamed entry entryMem] at ne
      exact ⟨⟨entry, entryMem, rfl⟩, ne⟩
    · rintro ⟨⟨entry, entryMem, rfl⟩, ne⟩
      rw [graph.nodesNamed entry entryMem] at ne
      exact ⟨entry, ⟨entryMem, ne⟩, rfl⟩
  rw [named, and_congr_right_iff]
  intro otherMem
  exact not_congr ⟨eq_of_name_eq otherMem mem, congrArg INode.name⟩

theorem mem_getConnections_setConnection {edge other : GraphConnection} :
    other ∈ (graph.setConnection edge).getConnections ↔
      other = edge ∨ (other ∈ graph.getConnections ∧ other.makeKey ≠ edge.makeKey) := by
  simp only [getConnections, OrderedMap.values, setConnection, mem_map, mem_entries_set]
  constructor
  · rintro ⟨entry, rfl | ⟨mem, ne⟩, rfl⟩
    · exact .inl rfl
    · rw [← graph.connectionsKeyed entry mem] at ne
      exact .inr ⟨⟨entry, mem, rfl⟩, ne⟩
  · rintro (rfl | ⟨⟨entry, mem, rfl⟩, ne⟩)
    · exact ⟨(other.makeKey, other), .inl rfl, rfl⟩
    · rw [graph.connectionsKeyed entry mem] at ne
      exact ⟨entry, .inr ⟨mem, ne⟩, rfl⟩

variable {connections : List GraphConnection}

theorem mem_getConnections_foldl_setConnection (distinct : Set.InjOn GraphConnection.makeKey
      {connection | connection ∈ graph.getConnections ∨
        connection ∈ connections}) {other : GraphConnection} :
    other ∈ (connections.foldl setConnection graph).getConnections ↔
      other ∈ graph.getConnections ∨ other ∈ connections := by
  induction connections generalizing graph with
  | nil => simp
  | cons connection connections ih =>
    have step : ∀ other, other ∈ (graph.setConnection connection).getConnections ↔
          other ∈ graph.getConnections ∨ other = connection := by
      intro other
      rw [mem_getConnections_setConnection]
      constructor
      · rintro (same | ⟨mem, _⟩)
        · exact .inr same
        · exact .inl mem
      · rintro (mem | same)
        · by_cases key : other.makeKey = connection.makeKey
          · exact .inl (distinct (.inl mem) (.inr (by simp)) key)
          · exact .inr ⟨mem, key⟩
        · exact .inl same
    rw [foldl_cons, ih, step, or_assoc, mem_cons]
    apply distinct.mono
    rintro other (mem | mem)
    · rcases (step other).mp mem with mem | rfl
      · exact .inl mem
      · exact .inr (by simp)
    · exact .inr (by simp [mem])

theorem mem_getConnections_deleteConnectionsOf {node : INode} {edge : GraphConnection} :
    edge ∈ (graph.deleteConnectionsOf node).getConnections ↔
      edge ∈ graph.getConnections ∧ edge.toNode ≠ node ∧ edge.fromNode ≠ node := by
  simp only [getConnections, OrderedMap.values, deleteConnectionsOf,
    mem_map, mem_entries_filter, decide_eq_true_eq]
  constructor
  · rintro ⟨entry, ⟨mem, ne⟩, rfl⟩
    exact ⟨⟨entry, mem, rfl⟩, ne⟩
  · rintro ⟨⟨entry, mem, rfl⟩, ne⟩
    exact ⟨entry, ⟨mem, ne⟩, rfl⟩

@[simp] theorem nodes_foldl_setConnection (connections : List GraphConnection) :
    (connections.foldl setConnection graph).nodes = graph.nodes := by
  induction connections generalizing graph with
  | nil => rfl
  | cons edge connections ih => rw [foldl_cons, ih]; rfl

theorem addConnections_eq_ok (ends : ∀ edge ∈ connections,
      edge.fromNode ∈ graph.getNodes ∧ edge.toNode ∈ graph.getNodes) :
    graph.addConnections connections = .ok (connections.foldl setConnection graph) := by
  induction connections generalizing graph with
  | nil => rfl
  | cons edge connections ih =>
    obtain ⟨fromMem, toMem⟩ := ends edge (by simp)
    have first : graph.addConnection edge = .ok (graph.setConnection edge) := by
      rw [addConnection, assertNode_of_mem fromMem, assertNode_of_mem toMem]
      rfl
    rw [addConnections, foldlM_cons, first]
    exact ih (fun other mem => ends other (by simp [mem]))

theorem ends_of_addConnections_eq_ok
    {result : DirectedGraph} (ok : graph.addConnections connections = .ok result) :
    ∀ edge ∈ connections, edge.fromNode ∈ graph.getNodes ∧ edge.toNode ∈ graph.getNodes := by
  induction connections generalizing graph with
  | nil => simp
  | cons edge connections ih =>
    rw [addConnections, foldlM_cons, addConnection] at ok
    by_cases fromMem : edge.fromNode ∈ graph.getNodes
    · by_cases toMem : edge.toNode ∈ graph.getNodes
      · rw [assertNode_of_mem fromMem, assertNode_of_mem toMem] at ok
        intro other mem
        rcases mem_cons.mp mem with rfl | mem
        · exact ⟨fromMem, toMem⟩
        · exact @ih (graph.setConnection edge) ok other mem
      · rw [assertNode_of_mem fromMem, assertNode_of_not_mem toMem] at ok
        cases ok
    · rw [assertNode_of_not_mem fromMem] at ok
      cases ok

end Updates

section Clone

variable {graph : DirectedGraph}

theorem connections_addNodes (nodes : List INode) :
    (graph.addNodes nodes).connections = graph.connections := by
  rw [addNodes]
  induction nodes generalizing graph with
  | nil => rfl
  | cons node nodes ih => rw [foldl_cons, ih]; rfl

theorem nodes_addNodes (nodes : List INode) : (graph.addNodes nodes).nodes =
      nodes.foldl (fun built node => built.set node.name node)
        graph.nodes := by
  rw [addNodes]
  induction nodes generalizing graph with
  | nil => rfl
  | cons node nodes ih => rw [foldl_cons, ih]; rfl

theorem mem_getNodes_addNodes {nodes : List INode}
    (distinct : Set.InjOn INode.name {node | node ∈ nodes}) {other : INode} :
    other ∈ (graph.addNodes nodes).getNodes ↔ other ∈ nodes ∨
        (other ∈ graph.getNodes ∧ other.name ∉ nodes.map INode.name) := by
  rw [addNodes]
  induction nodes generalizing graph with
  | nil => simp
  | cons node nodes ih =>
    rw [foldl_cons, ih (distinct.mono fun _ => mem_cons_of_mem _),
      mem_getNodes_addNode, mem_cons, map_cons, mem_cons,
      not_or]
    constructor
    · rintro (mem | ⟨same | ⟨mem, ne⟩, absent⟩)
      · exact .inl (.inr mem)
      · exact .inl (.inl same)
      · exact .inr ⟨mem, ne, absent⟩
    · rintro ((same | mem) | ⟨mem, ne, absent⟩)
      · by_cases listed : other.name ∈ nodes.map INode.name
        · obtain ⟨later, laterMem, sameName⟩ := mem_map.mp listed
          have equal : later = other := distinct (mem_cons_of_mem _ laterMem)
              (same ▸ mem_cons_self) sameName
          exact .inl (equal ▸ laterMem)
        · exact .inr ⟨.inl same, listed⟩
      · exact .inl mem
      · exact .inr ⟨.inr ⟨mem, ne⟩, absent⟩

theorem connections_foldl_setConnection (connections : List GraphConnection) :
    (connections.foldl setConnection graph).connections = connections.foldl (fun built edge =>
        built.set edge.makeKey edge) graph.connections := by
  induction connections generalizing graph with
  | nil => rfl
  | cons edge connections ih => rw [foldl_cons, ih]; rfl

theorem nodes_addNodes_getNodes :
    (DirectedGraph.empty.addNodes graph.getNodes).nodes = graph.nodes := by
  rw [nodes_addNodes, getNodes, OrderedMap.values, foldl_map]
  refine Eq.trans ?_ (foldl_set_entries graph.nodes)
  apply foldl_ext
  intro built entry mem
  rw [graph.nodesNamed entry mem]

theorem getNodes_addNodes_getNodes : (DirectedGraph.empty.addNodes graph.getNodes).getNodes =
      graph.getNodes := by
  rw [getNodes, nodes_addNodes_getNodes, getNodes]

theorem clone_eq_ok (wellFormed : graph.WellFormed) : graph.clone = .ok graph := by
  rw [clone, addConnections_eq_ok]
  · congr 1
    ext1
    · rw [nodes_foldl_setConnection, nodes_addNodes_getNodes]
    · rw [connections_foldl_setConnection, connections_addNodes,
        getConnections, OrderedMap.values, foldl_map]
      refine Eq.trans ?_ (foldl_set_entries graph.connections)
      apply foldl_ext
      intro built entry mem
      rw [graph.connectionsKeyed entry mem]
  · intro edge mem
    rw [getNodes_addNodes_getNodes]
    exact ⟨wellFormed.fromMem edge mem, wellFormed.toMem edge mem⟩

theorem wellFormed_of_clone_eq_ok {result : DirectedGraph}
    (ok : graph.clone = .ok result) : graph.WellFormed := by
  have ends := ends_of_addConnections_eq_ok ok
  rw [getNodes_addNodes_getNodes] at ends
  exact ⟨fun edge mem => (ends edge mem).1, fun edge mem => (ends edge mem).2⟩

end Clone

section

variable (graph : DirectedGraph)

def Joined (node other : INode) : Prop :=
  ∃ connection ∈ graph.getConnections, connection.fromNode = node ∧ connection.toNode = other

def Reachable : INode → INode → Prop :=
  Relation.ReflTransGen graph.Joined

/-- The connections that lead to a node start at nodes of the graph. -/
def CompleteTo (node : INode) : Prop :=
  ∀ connection ∈ graph.getConnections,
    graph.Reachable connection.toNode node → connection.fromNode ∈ graph.getNodes

end

section Collecting

variable {graph : DirectedGraph} {node other : INode}

theorem WellFormed.completeTo (wellFormed : graph.WellFormed) (node : INode) :
    graph.CompleteTo node :=
  fun edge mem _ => wellFormed.fromMem edge mem

theorem CompleteTo.of_reachable (complete : graph.CompleteTo node)
    (reachable : graph.Reachable other node) : graph.CompleteTo other :=
  fun edge mem reached =>
    complete edge mem (reached.trans reachable)

theorem CompleteTo.mem (complete : graph.CompleteTo node)
    (mem : node ∈ graph.getNodes) (reachable : graph.Reachable other node) :
    other ∈ graph.getNodes := by
  rcases reachable.cases_head with rfl | ⟨_, joined, reached⟩
  · exact mem
  · obtain ⟨edge, connectionMem, rfl, rfl⟩ := joined
    exact complete edge connectionMem reached

theorem mem_getNodes_of_reachable (wellFormed : graph.WellFormed)
    (mem : node ∈ graph.getNodes) (reachable : graph.Reachable node other) :
    other ∈ graph.getNodes := by
  induction reachable with
  | refl => exact mem
  | tail _ joined _ =>
    obtain ⟨edge, connectionMem, _, rfl⟩ := joined
    exact wellFormed.toMem edge connectionMem

theorem getParentConnections_eq_ok (complete : graph.CompleteTo node)
    (mem : node ∈ graph.getNodes) :
    ∃ connections, graph.getParentConnections node = .ok connections ∧
      ∀ edge, edge ∈ connections ↔ edge ∈ graph.getConnections ∧
          graph.Reachable edge.toNode node := by
  have total : Collect.Total graph.getDirectParentConnections (·.fromNode) (graph.Reachable · node)
      (fun node => graph.getConnections.filter (·.toNode = node))
      graph.getConnections := by
    refine ⟨fun _ reaches => getDirectParentConnections_of_mem (complete.mem mem reaches), ?_, ?_⟩
    · intro vertex reaches edge listed
      obtain ⟨connectionMem, ends⟩ := mem_filter.mp listed
      exact .head ⟨edge, connectionMem, rfl, of_decide_eq_true ends⟩ reaches
    · intro vertex _ edge listed
      exact (mem_filter.mp listed).1
  have sizes : graph.getConnections.length = graph.connections.size := by
    simp [getConnections, OrderedMap.values, size]
  obtain ⟨connections, ok, _, exact⟩ :=
    Collect.collect_eq_ok total (graph.connections.size + 1) .refl (by omega)
  refine ⟨connections, ok, fun edge => ?_⟩
  have backwards : ∀ last, Relation.ReflTransGen (Collect.Step (·.fromNode)
      fun node => graph.getConnections.filter (·.toNode = node)) node last ↔
      graph.Reachable last node := by
    intro last
    rw [Reachable, ← Relation.reflTransGen_swap]
    apply iff_of_eq
    congr 1
    funext vertex other
    apply propext
    simp only [Collect.Step, mem_filter, decide_eq_true_eq, Function.swap, Joined]
    constructor
    · rintro ⟨edge, ⟨connectionMem, ends⟩, starts⟩
      exact ⟨edge, connectionMem, starts, ends⟩
    · rintro ⟨edge, connectionMem, starts, ends⟩
      exact ⟨edge, ⟨connectionMem, ends⟩, starts⟩
  rw [exact]
  constructor
  · rintro ⟨last, reached, listed⟩
    obtain ⟨connectionMem, ends⟩ := mem_filter.mp listed
    rw [decide_eq_true_eq] at ends
    exact ⟨connectionMem, ends ▸ (backwards last).mp reached⟩
  · rintro ⟨connectionMem, reached⟩
    exact ⟨edge.toNode, (backwards _).mpr reached, mem_filter.mpr ⟨connectionMem, by simp⟩⟩

theorem getChildren_eq_ok (wellFormed : graph.WellFormed) (mem : node ∈ graph.getNodes) :
    ∃ children, graph.getChildren node = .ok children ∧ ∀ child, child ∈ children ↔
        Relation.TransGen graph.Joined node child := by
  have total : Collect.Total (fun node => do
        return (← graph.getDirectChildConnections node).map (·.toNode))
      id (· ∈ graph.getNodes)
      (fun node => (graph.getConnections.filter (·.fromNode = node)).map (·.toNode))
      (graph.getConnections.map (·.toNode)) := by
    refine ⟨?_, ?_, ?_⟩
    · intro vertex vertexMem
      rw [getDirectChildConnections_of_mem vertexMem]
      rfl
    · intro vertex _ child listed
      obtain ⟨edge, connectionMem, rfl⟩ := mem_map.mp listed
      exact wellFormed.toMem edge (mem_filter.mp connectionMem).1
    · intro vertex _ child listed
      obtain ⟨edge, connectionMem, rfl⟩ := mem_map.mp listed
      exact mem_map_of_mem (mem_filter.mp connectionMem).1
  have sizes : (graph.getConnections.map (·.toNode)).length =
      graph.connections.size := by
    simp [getConnections, OrderedMap.values, size]
  obtain ⟨children, ok, _, exact⟩ :=
    Collect.collect_eq_ok total (graph.connections.size + 1) mem (by omega)
  refine ⟨children, ok, fun child => ?_⟩
  have listedIff : ∀ vertex other, other ∈
      (graph.getConnections.filter (·.fromNode = vertex)).map (·.toNode) ↔
      graph.Joined vertex other := by
    intro vertex other
    simp only [mem_map, mem_filter, decide_eq_true_eq, Joined, and_assoc]
  have stepEq : Collect.Step id (fun vertex =>
      (graph.getConnections.filter (·.fromNode = vertex)).map (·.toNode)) =
      graph.Joined := by
    funext vertex other
    apply propext
    simp [Collect.Step, listedIff]
  rw [exact, stepEq]
  simp only [listedIff]
  exact Relation.TransGen.tail'_iff.symm

end Collecting

end DirectedGraph

end N8n
