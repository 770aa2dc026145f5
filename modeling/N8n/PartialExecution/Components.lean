import Mathlib.Data.List.Pairwise
import N8n.PartialExecution.LowLinkFinish

/-!
# When the components are correct

The search keeps its state intact or spoils it, whatever the graph.  At the
end an intact state holds the strongly connected components, a spoiled one
does not, and which of the two it is can be read off the order of the
depth-first search.
-/

namespace N8n

open List Collect

namespace DirectedGraph

variable {graph : DirectedGraph}

section Run

structure SearchInvariant (graph : DirectedGraph)
    (property : List INode → DfsOrder → SccState → Prop) : Prop where
  recorded : ∀ {open' order state}, property open' order state → Recorded graph open' order state
  visit : ∀ {open' order state node}, property open' order state →
    node ∉ order.visited → node ∈ graph.getNodes →
    (∀ other ∈ open', graph.Reachable other node) →
    property (node :: open') (order.visit node) (state.visit node)
  complete : ∀ {open' order state connection}, property open' order state →
    connection ∈ graph.getConnections → connection.fromNode ∈ open' →
    connection.toNode ∈ order.visited →
    property open' (order.complete connection) (lowered state connection.fromNode connection.toNode)
  finish : ∀ {node rest order state next}, property (node :: rest) order state →
    (∀ child, graph.Joined node child → child ∈ order.visited) →
    state.finish node = .ok next → property rest order next

/-- What following some nodes makes of a state with the property. -/
def Follows (property : List INode → DfsOrder → SccState → Prop)
    (open' : List INode) (order : DfsOrder)
    (result : Except ExecutionError SccState) (reached : DfsOrder) : Prop :=
  ∃ next, result = .ok next ∧ property open' reached next ∧
    ∀ node ∈ order.visited, node ∈ reached.visited

def followChild (graph : DirectedGraph) (fuel : Nat) (node : INode)
    (state : SccState) (connection : GraphConnection) :
    Except ExecutionError SccState := do
  let state ← followNode graph fuel connection.toNode state
  state.minLowLink node connection.toNode

def traverseChild (graph : DirectedGraph) (fuel : Nat) (order : DfsOrder)
    (connection : GraphConnection) : DfsOrder :=
  (traverse graph fuel connection.toNode order).complete connection

variable {property : List INode → DfsOrder → SccState → Prop}

theorem SearchInvariant.follows (inv : SearchInvariant graph property)
    (wellFormed : graph.WellFormed) (fuel : Nat) {open' : List INode}
    {order : DfsOrder} {state : SccState} {node : INode}
    (holds : property open' order state) (mem : node ∈ graph.getNodes)
    (reaches : ∀ other ∈ open', graph.Reachable other node)
    (enough : missing graph.getNodes order.visited < fuel) :
    Follows property open' order (graph.followNode fuel node state)
        (graph.traverse fuel node order) ∧
      node ∈ (graph.traverse fuel node order).visited := by
  induction fuel generalizing open' order state node with
  | zero => exact (Nat.not_lt_zero _ enough).elim
  | succ fuel ih =>
    by_cases seen : node ∈ order.visited
    · rw [followNode, traverse, (inv.recorded holds).visited, if_pos seen, if_pos seen]
      exact ⟨⟨state, rfl, holds, fun _ old => old⟩, seen⟩
    have visitedHolds := inv.visit holds seen mem reaches
    have smaller : missing graph.getNodes (order.visit node).visited < fuel :=
      (missing_append mem seen).trans_le (Nat.le_of_lt_succ enough)
    -- the loop follows the children one after the other
    have loop : ∀ (connections : List GraphConnection) (order : DfsOrder)
        (state : SccState), property (node :: open') order state →
        missing graph.getNodes order.visited < fuel →
        (∀ edge ∈ connections, edge ∈ graph.getConnections ∧ edge.fromNode = node) →
        Follows property (node :: open') order
            (connections.foldlM (followChild graph fuel node) state)
            (connections.foldl (traverseChild graph fuel) order) ∧
          ∀ edge ∈ connections, edge.toNode ∈
            (connections.foldl (traverseChild graph fuel) order).visited := by
      intro connections
      induction connections with
      | nil =>
        intro order state holds _ _
        exact ⟨⟨state, rfl, holds, fun _ old => old⟩, by simp⟩
      | cons edge connections loop =>
        intro order state holds bound listed
        obtain ⟨connectionMem, starts⟩ := listed edge (by simp)
        have joined : graph.Joined node edge.toNode := ⟨edge, connectionMem, starts, rfl⟩
        obtain ⟨⟨followed, ok, followedHolds, kept⟩, childSeen⟩ :=
          ih holds (wellFormed.toMem edge connectionMem) (by
              intro other opened
              rcases mem_cons.mp opened with rfl | opened
              · exact .single joined
              · exact (reaches other opened).tail joined) bound
        have fromOpen : edge.fromNode ∈ node :: open' := starts ▸ mem_cons_self
        have recorded := inv.recorded followedHolds
        have lowers : followed.minLowLink edge.fromNode edge.toNode = .ok _ :=
          minLowLink_eq_ok recorded (recorded.opened _ fromOpen)
        obtain ⟨⟨last, rest, lastHolds, keptRest⟩, childrenSeen⟩ :=
          loop _ _ (inv.complete followedHolds connectionMem fromOpen childSeen)
            ((missing_le_of_subset kept).trans_lt bound)
            (fun other otherMem => listed other (by simp [otherMem]))
        refine ⟨⟨last, ?_, lastHolds, fun other old =>
          keptRest other (kept other old)⟩, ?_⟩
        · rw [foldlM_cons, followChild, ok]
          change ((followed.minLowLink node edge.toNode) >>= _) = _
          rw [starts] at lowers
          rw [lowers]
          exact starts ▸ rest
        · intro other otherMem
          rcases mem_cons.mp otherMem with rfl | otherMem
          · exact keptRest _ childSeen
          · exact childrenSeen other otherMem
    obtain ⟨⟨next, ok, nextHolds, kept⟩, childrenSeen⟩ :=
      loop (graph.childConnections node) _ _ visitedHolds smaller (fun edge listed => by
          obtain ⟨connectionMem, starts⟩ := mem_filter.mp listed
          exact ⟨connectionMem, of_decide_eq_true starts⟩)
    have children : ∀ child, graph.Joined node child → child ∈
        ((graph.childConnections node).foldl (traverseChild graph fuel)
          (order.visit node)).visited := by
      rintro child ⟨edge, connectionMem, starts, rfl⟩
      exact childrenSeen edge (mem_filter.mpr ⟨connectionMem, decide_eq_true starts⟩)
    have recorded := inv.recorded nextHolds
    have finished := finish_eq_ok recorded (recorded.opened node mem_cons_self)
    have lastHolds := inv.finish nextHolds children finished
    have traversed : graph.traverse (fuel + 1) node order =
        (graph.childConnections node).foldl (traverseChild graph fuel) (order.visit node) := by
      rw [traverse, if_neg seen]
      rfl
    rw [traversed]
    refine ⟨⟨_, ?_, lastHolds, fun other old => kept other
      (DfsOrder.mem_visited_visit.mpr (.inl old))⟩,
      kept node (DfsOrder.mem_visited_visit.mpr (.inr rfl))⟩
    rw [followNode, (inv.recorded holds).visited, if_neg seen, getDirectChildConnections_of_mem mem]
    change ((graph.childConnections node).foldlM (followChild graph fuel node)
      (state.visit node) >>= _) = _
    rw [ok]
    exact finished

theorem SearchInvariant.atEnd (inv : SearchInvariant graph property)
    (holds : property [] {} {}) (wellFormed : graph.WellFormed) :
    ∃ state, graph.getStronglyConnectedComponents = .ok state.stronglyConnectedComponents ∧
      property [] graph.dfsOrder state ∧
      ∀ node ∈ graph.getNodes, node ∈ graph.dfsOrder.visited := by
  have loop : ∀ (nodes : List INode) (order : DfsOrder) (state : SccState),
      property [] order state →
      (∀ node ∈ nodes, node ∈ graph.getNodes) →
      Follows property [] order (nodes.foldlM (fun state node =>
            graph.followNode (graph.nodes.size + 1) node state) state)
          (nodes.foldl (fun order node =>
            graph.traverse (graph.nodes.size + 1) node order) order) ∧
        ∀ node ∈ nodes, node ∈ (nodes.foldl (fun order node =>
          graph.traverse (graph.nodes.size + 1) node order) order).visited := by
    intro nodes
    induction nodes with
    | nil =>
      intro order state holds _
      exact ⟨⟨state, rfl, holds, fun _ old => old⟩, by simp⟩
    | cons node nodes loop =>
      intro order state holds members
      obtain ⟨⟨next, ok, nextHolds, kept⟩, seen⟩ :=
        inv.follows wellFormed (graph.nodes.size + 1) holds (members node (by simp)) (by simp)
          (Nat.lt_succ_of_le graph.missing_le_size)
      obtain ⟨⟨last, rest, lastHolds, keptRest⟩, allSeen⟩ := loop _ next nextHolds
          (fun other mem => members other (by simp [mem]))
      refine ⟨⟨last, ?_, lastHolds, fun other old =>
        keptRest other (kept other old)⟩, ?_⟩
      · rw [foldlM_cons, ok]
        exact rest
      · intro other mem
        rcases mem_cons.mp mem with rfl | mem
        · exact keptRest other seen
        · exact allSeen other mem
  obtain ⟨⟨state, ok, lastHolds, _⟩, seen⟩ := loop graph.getNodes {} {} holds fun _ mem => mem
  refine ⟨state, ?_, lastHolds, seen⟩
  rw [getStronglyConnectedComponents, ok]
  rfl

theorem outcome_empty : Outcome graph [] {} {} := by
  refine ⟨⟨rfl, rfl, ?_, ?_, ?_, ?_, ?_, ?_⟩, .inl ?_⟩
  · simp
  · simp
  · simp
  · simp
  · simp
  · simp
  · constructor <;> simp

theorem searchInvariant_outcome : SearchInvariant graph (Outcome graph) where
  recorded outcome := outcome.1
  visit outcome fresh mem reaches := outcome.visit fresh mem reaches
  complete outcome mem opened toMem := by
    obtain ⟨next, lowers, kept⟩ := outcome.complete mem opened toMem
    rw [minLowLink_eq_ok outcome.1 (outcome.1.opened _ opened)] at lowers
    exact Except.ok.inj lowers ▸ kept
  finish outcome children finished := by
    obtain ⟨next, ok, kept⟩ := outcome.finish children
    rw [finished] at ok
    exact Except.ok.inj ok ▸ kept

theorem getStronglyConnectedComponents_outcome (wellFormed : graph.WellFormed) :
    ∃ state, graph.getStronglyConnectedComponents = .ok state.stronglyConnectedComponents ∧
      Outcome graph [] graph.dfsOrder state ∧
      ∀ node ∈ graph.getNodes, node ∈ graph.dfsOrder.visited :=
  searchInvariant_outcome.atEnd outcome_empty wellFormed

end Run

section Correctness

/-- The sets are the strongly connected components of the graph. -/
structure IsComponentPartition (graph : DirectedGraph)
    (components : List (List INode)) : Prop where
  covers : ∀ node, node ∈ graph.getNodes ↔ ∃ scc ∈ components, node ∈ scc
  disjoint : components.Pairwise List.Disjoint
  nonempty : [] ∉ components
  same : ∀ node ∈ graph.getNodes, ∀ other ∈ graph.getNodes,
    (∃ scc ∈ components, node ∈ scc ∧ other ∈ scc) ↔ graph.SameComponent node other

/-- From each node the first visited node of its component is reached by a
path whose connections are completed from its end to its start. -/
def FirstIdsArrive (graph : DirectedGraph) : Prop :=
  ∀ node ∈ graph.getNodes, ∀ first,
    FirstOf graph graph.dfsOrder node first → Linked graph.dfsOrder node first

variable {order : DfsOrder}

theorem IsComponentPartition.not_spoiled {components : List (List INode)}
    {state : SccState} (wellFormed : graph.WellFormed)
    (returned : state.stronglyConnectedComponents = components)
    (partition : graph.IsComponentPartition components)
    (recorded : Recorded graph [] order state) :
    ¬ Spoiled graph [] order state := by
  intro spoiled
  subst returned
  rcases spoiled.wrong with ⟨scc, sccMem, node, inside, other, same,
    outside⟩ | ⟨node, mem, _, absent, _⟩
  · have nodeMem := (partition.covers node).mpr ⟨scc, sccMem, inside⟩
    have otherMem := mem_getNodes_of_reachable wellFormed nodeMem same.1
    obtain ⟨whole, wholeMem, nodeIn, otherIn⟩ :=
      (partition.same node nodeMem other otherMem).mpr same
    have ne : scc ≠ whole := fun equal => outside (equal ▸ otherIn)
    have symmetric : Std.Symm (@List.Disjoint INode) := { symm := fun _ _ => disjoint_symm }
    exact partition.disjoint.forall sccMem wholeMem ne inside nodeIn
  · obtain ⟨scc, sccMem, inside⟩ := (partition.covers node).mp (recorded.members node mem)
    exact absent scc sccMem inside

theorem Intact.isComponentPartition {state : SccState} (recorded : Recorded graph [] order state)
    (intact : Intact graph [] order state)
    (allVisited : ∀ node ∈ graph.getNodes, node ∈ order.visited) :
    (∀ node, node ∉ state.stack) ∧
      graph.IsComponentPartition state.stronglyConnectedComponents := by
  have empty : ∀ node, node ∉ state.stack := by
    intro node mem
    obtain ⟨root, rootMem, _⟩ := intact.rooted node mem
    exact not_mem_nil rootMem
  refine ⟨empty, ?_, intact.disjoint, intact.nonempty, ?_⟩
  · intro node
    rw [intact.returned]
    exact ⟨fun mem => ⟨allVisited node mem, empty node⟩,
      fun visited => recorded.members node visited.1⟩
  · intro node mem other _
    constructor
    · rintro ⟨scc, sccMem, nodeIn, otherIn⟩
      exact (intact.components scc sccMem node nodeIn other).mp otherIn
    · intro same
      obtain ⟨scc, sccMem, nodeIn⟩ := (intact.returned node).mpr ⟨allVisited node mem, empty node⟩
      exact ⟨scc, sccMem, nodeIn, (intact.components scc sccMem node nodeIn other).mpr same⟩

/-- The components are correct exactly when the id of the first node of each
component arrives at all its nodes. -/
theorem getStronglyConnectedComponents_correct_iff (wellFormed : graph.WellFormed) :
    (∃ components, graph.getStronglyConnectedComponents = .ok components ∧
      graph.IsComponentPartition components) ↔ graph.FirstIdsArrive := by
  obtain ⟨state, success, ⟨recorded, result⟩, allVisited⟩ :=
    getStronglyConnectedComponents_outcome wellFormed
  constructor
  · rintro ⟨components, returned, partition⟩
    have same : state.stronglyConnectedComponents = components :=
      Except.ok.inj (success.symm.trans returned)
    have intact := result.resolve_right (partition.not_spoiled wellFormed same recorded)
    intro node mem first isFirst
    exact intact.linked node (allVisited node mem)
      ((intact.isComponentPartition recorded allVisited).1 node) first isFirst
  · intro arrive
    have intact := result.resolve_right fun spoiled => by
      obtain ⟨node, mem, _, first, isFirst, unlinked⟩ := spoiled.unlinked
      exact unlinked (arrive node (recorded.members node mem) first isFirst)
    exact ⟨_, success, (intact.isComponentPartition recorded allVisited).2⟩

section Example

def outerNode : INode := { name := "outer" }

def innerNode : INode := { name := "inner" }

def lastInnerNode : INode := { name := "lastInner" }

def twoCycle : DirectedGraph :=
  [{ fromNode := outerNode
     toNode := innerNode },
    { fromNode := innerNode
      toNode := outerNode : GraphConnection }].foldl setConnection
    (DirectedGraph.empty.addNodes [outerNode, innerNode])

theorem firstIdsArrive_twoCycle : twoCycle.FirstIdsArrive := by
  let forth : GraphConnection :=
    { fromNode := outerNode
      toNode := innerNode }
  let back : GraphConnection :=
    { fromNode := innerNode
      toNode := outerNode }
  have visited : twoCycle.dfsOrder.visited = [outerNode, innerNode] := by
    decide
  have completed : twoCycle.dfsOrder.completed = [back, forth] := by
    decide
  have inward : Linked twoCycle.dfsOrder outerNode innerNode := by
    exact @LinkPath.cons _ _ _ _ [back] [] forth innerNode (.nil _ _)
  have outward : Linked twoCycle.dfsOrder innerNode outerNode := by
    exact @LinkPath.cons _ _ _ _ [] [forth] back outerNode (.nil _ _)
  intro node mem first isFirst
  have nodes : node ∈ [outerNode, innerNode] := mem
  have firsts : first ∈ [outerNode, innerNode] := visited ▸ isFirst.1
  simp only [mem_cons, not_mem_nil, or_false] at nodes firsts
  rcases nodes with rfl | rfl <;> rcases firsts with rfl | rfl
  · exact .nil _ _
  · exact inward
  · exact outward
  · exact .nil _ _

theorem getStronglyConnectedComponents_twoCycle :
    ∃ components, twoCycle.getStronglyConnectedComponents = .ok components ∧
      twoCycle.IsComponentPartition components :=
  (getStronglyConnectedComponents_correct_iff ⟨by decide, by decide⟩).mpr firstIdsArrive_twoCycle

def nestedCycles : DirectedGraph :=
  [{ fromNode := outerNode
     toNode := innerNode },
    { fromNode := innerNode
      toNode := lastInnerNode },
    { fromNode := innerNode
      toNode := outerNode },
    { fromNode := lastInnerNode
      toNode := innerNode : GraphConnection }].foldl setConnection
    (DirectedGraph.empty.addNodes [outerNode, innerNode, lastInnerNode])

/-- The three nodes reach each other, but no component is returned. -/
theorem getStronglyConnectedComponents_nestedCycles : nestedCycles.WellFormed ∧
      ¬ ∃ components, nestedCycles.getStronglyConnectedComponents = .ok components ∧
          nestedCycles.IsComponentPartition components := by
  refine ⟨⟨by decide, by decide⟩, ?_⟩
  rintro ⟨components, returned, partition⟩
  have computed : nestedCycles.getStronglyConnectedComponents.toOption = some [] := by
    decide
  rw [returned] at computed
  obtain rfl : components = [] := Option.some.inj computed
  obtain ⟨scc, mem, _⟩ := (partition.covers outerNode).mp (by decide)
  exact not_mem_nil mem

end Example

end Correctness

end DirectedGraph

end N8n
