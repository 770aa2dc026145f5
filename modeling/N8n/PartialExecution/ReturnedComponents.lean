import N8n.PartialExecution.Components

/-!
# The sets that the low-link search returns

Also a spoiled search returns only sets of nodes that reach each other, and
the id of the first of them has arrived at all the others.  So a component is
missed, or split, and never mixed with another one.
-/

namespace N8n

namespace DirectedGraph

open SccState (popComponent)

variable {graph : DirectedGraph} {open' : List INode} {order : DfsOrder}
  {state : SccState} {node root : INode}

/-- The node and the root reach each other, and the id of the root has arrived
at the node. -/
structure Arrived (graph : DirectedGraph) (order : DfsOrder)
    (root node : INode) : Prop where
  visited : root ∈ order.visited
  member : node ∈ order.visited
  linked : Linked order node root
  reachable : graph.Reachable root node
  later : order.number root ≤ order.number node

/-- What holds of a returned set. -/
structure PartOfComponent (graph : DirectedGraph) (order : DfsOrder)
    (state : SccState) (scc : List INode) : Prop where
  rooted : ∃ root, ∀ node ∈ scc, Arrived graph order root node
  popped : ∀ node ∈ scc, node ∉ state.stack
  nonempty : scc ≠ []

/-- The part of the invariant that a spoiled search keeps. -/
structure ReturnsParts (graph : DirectedGraph) (open' : List INode)
    (order : DfsOrder) (state : SccState) : Prop where
  recorded : Recorded graph open' order state
  stackNodup : state.stack.Nodup
  lowLinked : ∀ node ∈ order.visited, ∃ target ∈ order.visited,
    lowOf state node = order.number target ∧ Linked order node target ∧
      order.number target ≤ order.number node
  opened : ∀ node ∈ open', ∀ other ∈ order.visited,
    order.number node ≤ order.number other → graph.Reachable node other
  returned : ∀ scc ∈ state.stronglyConnectedComponents, PartOfComponent graph order state scc
  disjoint : state.stronglyConnectedComponents.Pairwise List.Disjoint

section Steps

theorem Arrived.visit (arrived : Arrived graph order root node)
    (other : INode) : Arrived graph (order.visit other) root node where
  visited := DfsOrder.mem_visited_visit.mpr (.inl arrived.visited)
  member := DfsOrder.mem_visited_visit.mpr (.inl arrived.member)
  linked := arrived.linked
  reachable := arrived.reachable
  later := by
    rw [DfsOrder.number_visit arrived.visited, DfsOrder.number_visit arrived.member]
    exact arrived.later

theorem Linked.complete {start finish : INode}
    (linked : Linked order start finish) (edge : GraphConnection) :
    Linked (order.complete edge) start finish :=
  LinkPath.append_singleton_iff.mpr (.inl linked)

theorem Arrived.complete (arrived : Arrived graph order root node) (connection : GraphConnection) :
    Arrived graph (order.complete connection) root node :=
  { arrived with linked := arrived.linked.complete connection }

theorem returnsParts_empty : ReturnsParts graph [] {} {} where
  recorded := outcome_empty.1
  stackNodup := List.nodup_nil
  lowLinked := by simp
  opened := by simp
  returned := by simp
  disjoint := .nil

theorem ReturnsParts.visit (parts : ReturnsParts graph open' order state)
    (fresh : node ∉ order.visited) (member : node ∈ graph.getNodes)
    (reaches : ∀ other ∈ open', graph.Reachable other node) :
    ReturnsParts graph (node :: open') (order.visit node) (state.visit node) := by
  have recorded := parts.recorded
  have freshStack : node ∉ state.stack := fun stacked =>
    fresh (recorded.stacked node stacked)
  have ne : ∀ other ∈ order.visited, other ≠ node :=
    fun other visited same => fresh (same ▸ visited)
  refine ⟨recorded.visit fresh member,
    List.nodup_cons.mpr ⟨freshStack, parts.stackNodup⟩, ?_, ?_, ?_,
    parts.disjoint⟩
  · intro other visited
    rcases DfsOrder.mem_visited_visit.mp visited with old | rfl
    · obtain ⟨target, targetVisited, low, linked, less⟩ := parts.lowLinked other old
      refine ⟨target, DfsOrder.mem_visited_visit.mpr (.inl targetVisited), ?_, linked, ?_⟩
      · rw [lowOf_visit (ne other old), low, DfsOrder.number_visit targetVisited]
      · rw [DfsOrder.number_visit targetVisited, DfsOrder.number_visit old]
        exact less
    · refine ⟨other, visited, ?_, .nil _ _, le_rfl⟩
      rw [lowOf_visit_self, DfsOrder.number_visit_self fresh, recorded.id]
  · intro first opened other visited less
    rcases DfsOrder.mem_visited_visit.mp visited with old | rfl
    · rcases List.mem_cons.mp opened with rfl | opened
      · rw [DfsOrder.number_visit_self fresh, DfsOrder.number_visit old] at less
        exact absurd (DfsOrder.number_lt old) (Nat.not_lt.mpr less)
      · rw [DfsOrder.number_visit (recorded.opened first opened), DfsOrder.number_visit old] at less
        exact parts.opened first opened other old less
    · rcases List.mem_cons.mp opened with rfl | opened
      · exact .refl
      · exact reaches first opened
  · intro scc listed
    obtain ⟨⟨root, arrived⟩, popped, nonempty⟩ := parts.returned scc listed
    refine ⟨⟨root, fun other inside => (arrived other inside).visit node⟩, ?_, nonempty⟩
    intro other inside stacked
    rcases List.mem_cons.mp stacked with same | stacked
    · exact ne other (arrived other inside).member same
    · exact popped other inside stacked

theorem ReturnsParts.complete {edge : GraphConnection}
    (parts : ReturnsParts graph open' order state)
    (member : edge ∈ graph.getConnections) (opened : edge.fromNode ∈ open')
    (toMem : edge.toNode ∈ order.visited) :
    ReturnsParts graph open' (order.complete edge) (lowered state edge.fromNode edge.toNode) := by
  have recorded := parts.recorded
  have fromMem := recorded.opened _ opened
  refine ⟨recorded.complete member fromMem toMem, ?_, ?_, parts.opened, ?_, ?_⟩
  · rw [lowered_stack]
    exact parts.stackNodup
  · intro other visited
    obtain ⟨target, targetVisited, low, linked, less⟩ := parts.lowLinked other visited
    by_cases lowers : other = edge.fromNode ∧ lowOf state edge.toNode ≤ lowOf state other ∧
        edge.toNode ∈ state.stack
    · obtain ⟨rfl, smaller, stacked⟩ := lowers
      obtain ⟨childTarget, childVisited, childLow, childLinked, _⟩ :=
        parts.lowLinked edge.toNode toMem
      refine ⟨childTarget, childVisited, ?_,
        LinkPath.append_singleton_iff.mpr (.inr ⟨rfl, childLinked⟩), ?_⟩
      · rw [lowOf_lowered_self stacked, Nat.min_eq_left smaller]
        exact childLow
      · rw [childLow, low] at smaller
        exact smaller.trans less
    · refine ⟨target, targetVisited, ?_, linked.complete edge, less⟩
      refine Eq.trans ?_ low
      by_cases same : other = edge.fromNode
      · subst same
        by_cases stacked : edge.toNode ∈ state.stack
        · rw [lowOf_lowered_self stacked, Nat.min_eq_right]
          by_contra more
          exact lowers ⟨rfl, by omega, stacked⟩
        · rw [lowered, if_neg stacked]
      · rw [lowOf_lowered_ne same]
  · intro scc listed
    rw [lowered_components] at listed
    obtain ⟨⟨root, arrived⟩, popped, nonempty⟩ := parts.returned scc listed
    refine ⟨⟨root, fun other inside => (arrived other inside).complete _⟩, ?_, nonempty⟩
    rw [lowered_stack]
    exact popped
  · rw [lowered_components]
    exact parts.disjoint

variable {rest : List INode}

theorem ReturnsParts.close (parts : ReturnsParts graph (node :: rest) order state) :
    ReturnsParts graph rest order state :=
  { parts with
    recorded := parts.recorded.close
    opened := fun other member =>
      parts.opened other (List.mem_cons_of_mem _ member) }

/-- The low-link values of the popped nodes are the id of the node. -/
theorem ReturnsParts.arrived_of_mem_popped {other : INode}
    (parts : ReturnsParts graph (node :: rest) order state)
    (inside : other ∈ popped state (order.number node)) :
    Arrived graph order node other := by
  have recorded := parts.recorded
  have visited : other ∈ order.visited := recorded.stacked other (List.takeWhile_subset _ inside)
  have nodeVisited := recorded.opened node List.mem_cons_self
  obtain ⟨target, targetVisited, low, linked, less⟩ := parts.lowLinked other visited
  have same : target = node := DfsOrder.number_inj targetVisited
    (low.symm.trans (low_of_mem_popped inside))
  subst same
  exact ⟨nodeVisited, visited, linked,
    parts.opened target List.mem_cons_self other visited less, less⟩

theorem ReturnsParts.popComponent (parts : ReturnsParts graph (node :: rest) order state) :
    ReturnsParts graph (node :: rest) order (state.popComponent (order.number node)) := by
  have stack : popped state (order.number node) ++
      (state.popComponent (order.number node)).stack = state.stack :=
    List.takeWhile_append_dropWhile
  have nodup := parts.stackNodup
  rw [← stack, List.nodup_append] at nodup
  have fewer : ∀ other ∈ (state.popComponent (order.number node)).stack, other ∈ state.stack := by
    intro other stacked
    rw [← stack]
    exact List.mem_append_right _ stacked
  refine ⟨parts.recorded.popComponent _, nodup.2.1, parts.lowLinked, parts.opened, ?_, ?_⟩
  · intro scc listed
    rcases mem_components_popComponent.mp listed with old | ⟨rfl, nonempty⟩
    · obtain ⟨rooted, popped, nonempty⟩ := parts.returned scc old
      exact ⟨rooted, fun other inside stacked =>
        popped other inside (fewer other stacked), nonempty⟩
    · exact ⟨⟨node, fun other inside => parts.arrived_of_mem_popped inside⟩,
        fun other inside stacked =>
          nodup.2.2 other inside other stacked rfl, nonempty⟩
  · rw [SccState.popComponent]
    split
    · exact parts.disjoint
    · refine List.pairwise_append.mpr ⟨parts.disjoint, List.pairwise_singleton _ _, ?_⟩
      intro scc old other isPopped
      rw [List.mem_singleton.mp isPopped]
      intro inside inOld isNew
      exact (parts.returned scc old).popped inside inOld (List.takeWhile_subset _ isNew)

theorem searchInvariant_returnsParts : SearchInvariant graph (ReturnsParts graph) where
  recorded parts := parts.recorded
  visit parts fresh member reaches := parts.visit fresh member reaches
  complete parts member opened toMem := parts.complete member opened toMem
  finish := by
    intro node rest order state next parts _ finished
    rw [finish_eq_ok parts.recorded (parts.recorded.opened node List.mem_cons_self)] at finished
    cases finished
    split
    · exact parts.popComponent.close
    · exact parts.close

end Steps

theorem PartOfComponent.linked {scc : List INode} {first : INode}
    (part : PartOfComponent graph order state scc)
    (inside : node ∈ scc) (firstInside : first ∈ scc)
    (isFirst : FirstOf graph order node first)
    (recorded : Recorded graph [] order state) : Linked order node first := by
  obtain ⟨root, arrived⟩ := part.rooted
  have ofNode := arrived node inside
  have ofFirst := arrived first firstInside
  have same : graph.SameComponent node root :=
    ⟨Linked.reachable recorded ofNode.linked, ofNode.reachable⟩
  have least := isFirst.2.2 root ofNode.visited same
  have isRoot : root = first := DfsOrder.number_inj ofNode.visited (ofFirst.later.antisymm least)
  exact isRoot ▸ ofNode.linked

end DirectedGraph

end N8n
