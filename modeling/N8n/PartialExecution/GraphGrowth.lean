import N8n.PartialExecution.DirectedGraph

/-!
# Growing a part of a graph

A graph is often built by adding nodes and connections of another graph.
Names and keys of the whole graph are distinct, so nothing is overwritten: a
step is described by the connections and nodes it adds, and steps compose.
-/

namespace N8n

namespace DirectedGraph

structure Within (part whole : DirectedGraph) : Prop where
  nodes : ∀ node ∈ part.getNodes, node ∈ whole.getNodes
  connections : ∀ connection ∈ part.getConnections, connection ∈ whole.getConnections

theorem within_empty (whole : DirectedGraph) : Within .empty whole :=
  ⟨fun _ mem => (List.not_mem_nil mem).elim, fun _ mem => (List.not_mem_nil mem).elim⟩

/-- A step succeeds on every part of the whole graph and adds exactly the
given connections and nodes. -/
def Grows (whole : DirectedGraph) (step : DirectedGraph → Except ExecutionError DirectedGraph)
    (added : GraphConnection → Prop) (addedNodes : INode → Prop) : Prop :=
  ∀ part, Within part whole → ∃ result, step part = .ok result ∧ Within result whole ∧
    (∀ connection, connection ∈ result.getConnections ↔
      connection ∈ part.getConnections ∨ added connection) ∧
    ∀ node, node ∈ result.getNodes ↔ node ∈ part.getNodes ∨ addedNodes node

variable {whole : DirectedGraph}

namespace Grows

variable {step : DirectedGraph → Except ExecutionError DirectedGraph}
  {added : GraphConnection → Prop} {addedNodes : INode → Prop}

theorem pure : Grows whole .ok (fun _ => False) (fun _ => False) :=
  fun part within => ⟨part, rfl, within, by simp, by simp⟩

theorem bind {next : DirectedGraph → Except ExecutionError DirectedGraph}
    {addedNext : GraphConnection → Prop} {addedNodesNext : INode → Prop}
    (first : Grows whole step added addedNodes)
    (second : Grows whole next addedNext addedNodesNext) :
    Grows whole (fun part => step part >>= next) (fun edge => added edge ∨ addedNext edge)
      (fun node => addedNodes node ∨ addedNodesNext node) := by
  intro part within
  obtain ⟨middle, ok, middleWithin, connections, nodes⟩ := first part within
  obtain ⟨result, nextSuccess, resultWithin, resultConnections, resultNodes⟩ :=
    second middle middleWithin
  refine ⟨result, ?_, resultWithin, ?_, ?_⟩
  · simp only [ok]
    exact nextSuccess
  · intro edge
    rw [resultConnections, connections, or_assoc]
  · intro node
    rw [resultNodes, nodes, or_assoc]

theorem congr {other : DirectedGraph → Except ExecutionError DirectedGraph}
    {addedOther : GraphConnection → Prop} {addedNodesOther : INode → Prop}
    (grows : Grows whole step added addedNodes)
    (sameStep : ∀ part, other part = step part)
    (sameAdded : ∀ edge, added edge ↔ addedOther edge)
    (sameNodes : ∀ node, addedNodes node ↔ addedNodesOther node) :
    Grows whole other addedOther addedNodesOther := by
  intro part within
  obtain ⟨result, ok, resultWithin, connections, nodes⟩ := grows part within
  refine ⟨result, (sameStep part).trans ok, resultWithin, ?_, ?_⟩
  · intro edge
    rw [connections, sameAdded]
  · intro node
    rw [nodes, sameNodes]

theorem foldlM {α : Type} {items : List α}
    {step : DirectedGraph → α → Except ExecutionError DirectedGraph}
    {added : α → GraphConnection → Prop} {addedNodes : α → INode → Prop}
    (steps : ∀ item ∈ items, Grows whole (step · item) (added item) (addedNodes item)) :
    Grows whole (fun part => items.foldlM step part) (fun edge => ∃ item ∈ items, added item edge)
      (fun node => ∃ item ∈ items, addedNodes item node) := by
  induction items with
  | nil => exact pure.congr (fun _ => rfl) (by simp) (by simp)
  | cons item items ih =>
    exact ((steps item (by simp)).bind (ih fun other mem => steps other (by simp [mem]))).congr
        (fun _ => List.foldlM_cons) (by simp) (by simp)

theorem from_empty (grows : Grows whole step added addedNodes) :
    ∃ result, step .empty = .ok result ∧ Within result whole ∧
      (∀ edge, edge ∈ result.getConnections ↔ added edge) ∧
      ∀ node, node ∈ result.getNodes ↔ addedNodes node := by
  obtain ⟨result, ok, within, connections, nodes⟩ := grows .empty (within_empty whole)
  refine ⟨result, ok, within, ?_, ?_⟩
  · intro edge
    rw [connections]
    exact or_iff_right (List.not_mem_nil (a := edge))
  · intro node
    rw [nodes]
    exact or_iff_right (List.not_mem_nil (a := node))

end Grows

theorem mem_getNodes_addNode_of_within {part : DirectedGraph}
    (within : Within part whole) {node other : INode}
    (mem : node ∈ whole.getNodes) :
    other ∈ (part.addNode node).getNodes ↔ other ∈ part.getNodes ∨ other = node := by
  rw [mem_getNodes_addNode]
  constructor
  · rintro (same | ⟨otherMem, _⟩)
    · exact .inr same
    · exact .inl otherMem
  · rintro (otherMem | same)
    · by_cases sameName : other.name = node.name
      · exact .inl (eq_of_name_eq (within.nodes other otherMem) mem sameName)
      · exact .inr ⟨otherMem, sameName⟩
    · exact .inl same

theorem grows_addNode {node : INode} (mem : node ∈ whole.getNodes) :
    Grows whole (fun part => .ok (part.addNode node)) (fun _ => False) (· = node) := by
  intro part within
  refine ⟨part.addNode node, rfl, ⟨?_, within.connections⟩, ?_, ?_⟩
  · intro other otherMem
    rcases (mem_getNodes_addNode_of_within within mem).mp otherMem with otherMem | rfl
    · exact within.nodes other otherMem
    · exact mem
  · exact fun edge => (or_iff_left id).symm
  · exact fun other => mem_getNodes_addNode_of_within within mem

theorem grows_addEnds {edge : GraphConnection} (mem : edge ∈ whole.getConnections)
    (fromMem : edge.fromNode ∈ whole.getNodes)
    (toMem : edge.toNode ∈ whole.getNodes) :
    Grows whole (fun part =>
        (part.addNodes [edge.fromNode, edge.toNode]).addConnection edge)
      (· = edge) (fun node =>
        node = edge.fromNode ∨ node = edge.toNode) := by
  intro part within
  obtain ⟨extended, ok, extendedWithin, connections, nodes⟩ :=
    ((grows_addNode fromMem).bind (grows_addNode toMem)) part within
  obtain rfl : part.addNodes [edge.fromNode, edge.toNode] =
      extended := Except.ok.inj ok
  simp only [or_self, or_false] at connections
  refine ⟨(part.addNodes [edge.fromNode, edge.toNode]).setConnection edge, ?_,
    ⟨extendedWithin.nodes, ?_⟩, ?_, nodes⟩
  · change addConnection _ edge = _
    rw [addConnection, assertNode_of_mem ((nodes _).mpr (.inr (.inl rfl))),
      assertNode_of_mem ((nodes _).mpr (.inr (.inr rfl)))]
    rfl
  · intro other otherMem
    rcases mem_getConnections_setConnection.mp otherMem with rfl | ⟨otherMem, _⟩
    · exact mem
    · exact extendedWithin.connections other otherMem
  · intro other
    rw [mem_getConnections_setConnection, connections]
    constructor
    · rintro (same | ⟨otherMem, _⟩)
      · exact .inr same
      · exact .inl otherMem
    · rintro (otherMem | same)
      · by_cases sameKey : other.makeKey = edge.makeKey
        · exact .inl (eq_of_makeKey_eq (within.connections other otherMem) mem sameKey)
        · exact .inr ⟨otherMem, sameKey⟩
      · exact .inl same

end DirectedGraph

end N8n
