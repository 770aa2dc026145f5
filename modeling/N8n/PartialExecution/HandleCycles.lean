import N8n.PartialExecution.ReturnedComponents

/-!
# Restarting whole cycles

`handleCycles` replaces a start node on a cycle by the first node of the cycle
that a depth-first search from the trigger meets.  It relies on the components
of the graph: it is right for every trigger and all start nodes exactly if the
low-link search returns the components of the graph as a whole.
-/

namespace N8n

open List Option

namespace DirectedGraph

/-- The nodes seen so far, and the node found. -/
abbrev SearchResult := List INode × Option INode

/-- Each level of the recursion sees another node. -/
def depthFirstSearchRecursive (graph : DirectedGraph) (fn : INode → Bool) :
    Nat → INode → List INode → Except ExecutionError SearchResult
  | 0, _, seen => .ok (seen, none)
  | fuel + 1, node, seen =>
    if node ∈ seen then .ok (seen, none)
    else if fn node then .ok (seen ++ [node], some node)
    else do
      let childConnections ← graph.getDirectChildConnections node
      childConnections.foldlM (fun result childConnection =>
          if result.2.isSome then .ok result
          else depthFirstSearchRecursive graph fn fuel childConnection.toNode result.1)
        (seen ++ [node], none)

def depthFirstSearch (graph : DirectedGraph) (node : INode)
    (fn : INode → Bool) : Except ExecutionError (Option INode) := do
  let result ← graph.depthFirstSearchRecursive fn (graph.nodes.size + 1) node []
  return result.2

end DirectedGraph

open DirectedGraph

section Code

variable (graph : DirectedGraph) (trigger : INode)

def handleCycle (startNode : INode) (newStartNodes cycle : List INode) :
    Except ExecutionError (List INode) :=
  if startNode ∈ cycle then do
    let firstNode ← graph.depthFirstSearch trigger (· ∈ cycle)
    let firstNode ← assertDefined firstNode
    return OrderedSet.add (newStartNodes.filter (· ≠ startNode)) firstNode
  else return newStartNodes

def handleCycles (startNodes : List INode) : Except ExecutionError (List INode) := do
  let components ← graph.getStronglyConnectedComponents
  let cycles := components.filter (1 ≤ ·.length)
  if cycles.isEmpty then return startNodes
  startNodes.foldlM (fun newStartNodes startNode =>
      cycles.foldlM (handleCycle graph trigger startNode) newStartNodes)
    startNodes

end Code

/-! ## Whole cycles -/

section Spec

variable (graph : DirectedGraph) (trigger : INode)

/-- All nodes that a depth-first search meets, in its order. -/
def DirectedGraph.depthFirstOrder (node : INode) : List INode :=
  (graph.traverse (graph.nodes.size + 1) node {}).visited

/-- The node is the first one of the component of the start node that the
search from the trigger meets. -/
def FirstMet (startNode node : INode) : Prop :=
  ∃ before after, graph.depthFirstOrder trigger = before ++ node :: after ∧
    graph.SameComponent startNode node ∧
    ∀ earlier ∈ before, ¬ graph.SameComponent startNode earlier

structure RestartsCycles (startNodes newStartNodes : List INode) : Prop where
  replaced : ∀ startNode ∈ startNodes, ∃ node ∈ newStartNodes, FirstMet graph trigger startNode node
  kept : ∀ startNode ∈ startNodes,
    (∀ other, graph.SameComponent startNode other → other = startNode) → startNode ∈ newStartNodes
  nothingElse : ∀ node ∈ newStartNodes, ∃ startNode ∈ startNodes,
    FirstMet graph trigger startNode node
  distinct : ∀ node ∈ newStartNodes, ∀ other ∈ newStartNodes,
    graph.SameComponent node other → node = other

end Spec

/-! ## The search -/

section Search

variable {graph : DirectedGraph} {node : INode}

/-- What the search makes of the nodes seen before: it looks through the nodes
that a whole traversal would add. -/
def SearchesNew (fn : INode → Bool) (order reached : DfsOrder)
    (result : Except ExecutionError SearchResult) : Prop :=
  ∃ new seen, reached.visited = order.visited ++ new ∧ result = .ok (seen, new.find? fn) ∧
    (new.find? fn = none → seen = reached.visited)

theorem SearchesNew.nothing (fn : INode → Bool) (order : DfsOrder) :
    SearchesNew fn order order (.ok (order.visited, none)) :=
  ⟨[], order.visited, by simp, rfl, fun _ => rfl⟩

theorem searchesNew_foldlM {fn : INode → Bool} {fuel : Nat}
    (each : ∀ node ∈ graph.getNodes, ∀ order : DfsOrder,
      SearchesNew fn order (graph.traverse fuel node order)
        (graph.depthFirstSearchRecursive fn fuel node order.visited))
    {connections : List GraphConnection}
    (inGraph : ∀ edge ∈ connections, edge.toNode ∈ graph.getNodes)
    (order : DfsOrder) :
    SearchesNew fn order (connections.foldl (traverseChild graph fuel) order)
      (connections.foldlM (fun result childConnection =>
          if result.2.isSome then .ok result
          else graph.depthFirstSearchRecursive fn fuel childConnection.toNode result.1)
        (order.visited, none)) := by
  induction connections generalizing order with
  | nil => exact .nothing fn order
  | cons edge connections ih =>
    obtain ⟨new, seen, added, searched, unfound⟩ :=
      each edge.toNode (inGraph edge mem_cons_self) order
    obtain ⟨later, laterSeen, laterAdded, laterSearched, laterUnfound⟩ :=
      ih (fun other listed =>
        inGraph other (mem_cons_of_mem _ listed))
        (traverseChild graph fuel order edge)
    have visited : (traverseChild graph fuel order edge).visited = order.visited ++ new := added
    rw [SearchesNew, foldl_cons, foldlM_cons]
    rw [searched, laterAdded, visited]
    cases found : new.find? fn with
    | none =>
      have isSeen : seen = order.visited ++ new := (unfound found).trans added
      refine ⟨new ++ later, laterSeen, by rw [append_assoc], ?_, ?_⟩
      · rw [find?_append, found, none_or, isSeen, ← visited]
        exact laterSearched
      · rw [find?_append, found, none_or]
        intro nothing
        rw [laterUnfound nothing, laterAdded, visited]
    | some first =>
      refine ⟨new ++ later, seen, by rw [append_assoc], ?_, ?_⟩
      · rw [find?_append, found, some_or]
        exact foldlM_eq_self fun _ _ => rfl
      · rw [find?_append, found, some_or]
        intro nothing
        cases nothing

theorem searchesNew (wellFormed : graph.WellFormed) (fn : INode → Bool)
    (fuel : Nat) {node : INode} (mem : node ∈ graph.getNodes) (order : DfsOrder) :
    SearchesNew fn order (graph.traverse fuel node order)
      (graph.depthFirstSearchRecursive fn fuel node order.visited) := by
  induction fuel generalizing node order with
  | zero => exact .nothing fn order
  | succ fuel ih =>
    rw [DirectedGraph.traverse, depthFirstSearchRecursive]
    by_cases seen : node ∈ order.visited
    · rw [if_pos seen, if_pos seen]
      exact .nothing fn order
    · rw [if_neg seen, if_neg seen]
      have inGraph : ∀ edge ∈ graph.childConnections node,
          edge.toNode ∈ graph.getNodes := fun edge listed =>
        wellFormed.toMem edge (mem_filter.mp listed).1
      obtain ⟨later, laterSeen, added, searched, unfound⟩ :=
        searchesNew_foldlM (fun node mem => ih mem) inGraph (order.visit node)
      have visited : (order.visit node).visited = order.visited ++ [node] := rfl
      rw [visited, append_assoc, singleton_append] at added
      cases found : fn node with
      | true =>
        refine ⟨node :: later, order.visited ++ [node], added, ?_, ?_⟩
        · rw [find?_cons_of_pos found]
          rfl
        · rw [find?_cons_of_pos found]
          intro nothing
          cases nothing
      | false =>
        have passed : ¬ fn node = true := by simp [found]
        refine ⟨node :: later, laterSeen, added, ?_, ?_⟩
        · rw [find?_cons_of_neg passed, getDirectChildConnections_of_mem mem]
          exact searched
        · rw [find?_cons_of_neg passed]
          exact unfound

theorem depthFirstSearch_eq_ok (wellFormed : graph.WellFormed)
    (mem : node ∈ graph.getNodes) (fn : INode → Bool) :
    graph.depthFirstSearch node fn = .ok ((graph.depthFirstOrder node).find? fn) := by
  obtain ⟨new, seen, added, searched, _⟩ := searchesNew wellFormed fn (graph.nodes.size + 1) mem {}
  have all : graph.depthFirstOrder node = new := by
    simpa [depthFirstOrder] using added
  rw [depthFirstSearch, all]
  rw [searched]
  rfl

/-- All children of a node that is no longer followed are visited. -/
structure ClosesNodes (graph : DirectedGraph) (open' : List INode)
    (order : DfsOrder) (state : SccState) : Prop where
  recorded : Recorded graph open' order state
  children : ∀ node ∈ order.visited, node ∉ open' →
    ∀ child, graph.Joined node child → child ∈ order.visited

theorem searchInvariant_closesNodes : SearchInvariant graph (ClosesNodes graph) where
  recorded closes := closes.recorded
  visit := by
    intro open' order state node closes fresh mem _
    refine ⟨closes.recorded.visit fresh mem, ?_⟩
    intro other visited notOpen child joined
    rw [mem_cons, not_or] at notOpen
    rcases DfsOrder.mem_visited_visit.mp visited with old | same
    · exact DfsOrder.mem_visited_visit.mpr (.inl (closes.children other old notOpen.2 child joined))
    · exact absurd same notOpen.1
  complete := by
    intro open' order state edge closes mem opened toMem
    exact ⟨closes.recorded.complete mem (closes.recorded.opened _ opened) toMem, closes.children⟩
  finish := by
    intro node rest order state next closes children finished
    have recorded := closes.recorded
    rw [finish_eq_ok recorded (recorded.opened node mem_cons_self)] at finished
    cases finished
    refine ⟨?_, ?_⟩
    · split
      · exact (recorded.popComponent _).close
      · exact recorded.close
    · intro other visited notOpen child joined
      by_cases same : other = node
      · exact children child (same ▸ joined)
      · refine closes.children other visited (fun opened => ?_) child joined
        exact (mem_cons.mp opened).elim same notOpen

theorem mem_depthFirstOrder_of_reachable (wellFormed : graph.WellFormed)
    (mem : node ∈ graph.getNodes) {other : INode}
    (reached : graph.Reachable node other) :
    other ∈ graph.depthFirstOrder node := by
  have start : ClosesNodes graph [] {} {} := ⟨outcome_empty.1, by simp⟩
  obtain ⟨⟨_, _, closes, _⟩, visited⟩ := searchInvariant_closesNodes.follows
    wellFormed (graph.nodes.size + 1) start mem (by simp)
    (Nat.lt_succ_of_le graph.missing_le_size)
  induction reached with
  | refl => exact visited
  | tail _ joined ih =>
    exact closes.children _ ih not_mem_nil _ joined

end Search

/-! ## What the code returns -/

section Replacing

variable {graph : DirectedGraph} {trigger startNode node : INode} {components : List (List INode)}

/-- The start node is replaced by the first met node of its set, or kept if it
is in none. -/
def Replaces (graph : DirectedGraph) (trigger : INode)
    (components : List (List INode)) (startNode node : INode) : Prop :=
  (∃ cycle ∈ components, startNode ∈ cycle ∧
      (graph.depthFirstOrder trigger).find? (· ∈ cycle) = some node) ∨
    (∀ cycle ∈ components, startNode ∉ cycle) ∧ node = startNode

theorem eq_of_mem_of_mem {first second : List INode} (disjoint : components.Pairwise List.Disjoint)
    (listed : first ∈ components) (otherListed : second ∈ components)
    (inside : node ∈ first) (otherInside : node ∈ second) :
    first = second := by
  have symmetric : Std.Symm (@List.Disjoint INode) := { symm := fun _ _ => disjoint_symm }
  by_contra ne
  exact disjoint.forall listed otherListed ne inside otherInside

theorem Replaces.unique (disjoint : components.Pairwise List.Disjoint)
    (replaces : Replaces graph trigger components startNode node) {other : INode}
    (otherReplaces : Replaces graph trigger components startNode other) :
    other = node := by
  rcases replaces with ⟨cycle, listed, inside, first⟩ | ⟨outside, rfl⟩
  · rcases otherReplaces with ⟨second, otherListed, otherInside, otherFirst⟩ | ⟨outside, _⟩
    · cases eq_of_mem_of_mem disjoint listed otherListed inside otherInside
      exact Option.some.inj (otherFirst.symm.trans first)
    · exact absurd inside (outside cycle listed)
  · rcases otherReplaces with ⟨second, listed, inside, _⟩ | ⟨_, same⟩
    · exact absurd inside (outside second listed)
    · exact same

theorem Replaces.idempotent (disjoint : components.Pairwise List.Disjoint)
    (replaces : Replaces graph trigger components startNode node)
    {other : INode} (again : Replaces graph trigger components node other) :
    other = node := by
  rcases replaces with ⟨cycle, listed, _, first⟩ | ⟨outside, rfl⟩
  · have nodeInside : node ∈ cycle := by
      simpa using find?_some first
    exact Replaces.unique disjoint (.inl ⟨cycle, listed, nodeInside, first⟩) again
  · exact Replaces.unique disjoint (.inr ⟨outside, rfl⟩) again

variable {newStartNodes cycle : List INode}

theorem handleCycle_of_not_mem (outside : startNode ∉ cycle) :
    handleCycle graph trigger startNode newStartNodes cycle = .ok newStartNodes :=
  if_neg outside

theorem handleCycle_of_mem (wellFormed : graph.WellFormed) (mem : trigger ∈ graph.getNodes)
    (reached : graph.Reachable trigger startNode) (inside : startNode ∈ cycle) :
    ∃ firstNode, (graph.depthFirstOrder trigger).find? (· ∈ cycle) = some firstNode ∧
      handleCycle graph trigger startNode newStartNodes cycle =
        .ok (OrderedSet.add (newStartNodes.filter (· ≠ startNode)) firstNode) := by
  have met : ((graph.depthFirstOrder trigger).find? (· ∈ cycle)).isSome = true := by
    rw [find?_isSome]
    exact ⟨startNode, mem_depthFirstOrder_of_reachable wellFormed mem reached,
      decide_eq_true inside⟩
  obtain ⟨firstNode, found⟩ := Option.isSome_iff_exists.mp met
  refine ⟨firstNode, found, ?_⟩
  rw [handleCycle, if_pos inside, depthFirstSearch_eq_ok wellFormed mem, found]
  rfl

theorem handleStartNode_eq_ok (wellFormed : graph.WellFormed)
    (disjoint : components.Pairwise List.Disjoint) (mem : trigger ∈ graph.getNodes)
    (reached : graph.Reachable trigger startNode) (newStartNodes : List INode) :
    ∃ result first, components.foldlM (handleCycle graph trigger startNode) newStartNodes =
        .ok result ∧
      Replaces graph trigger components startNode first ∧
      ((∀ cycle ∈ components, startNode ∉ cycle) ∧ result = newStartNodes ∨
        (∃ cycle ∈ components, startNode ∈ cycle) ∧ ∀ node, node ∈ result ↔
          node ∈ newStartNodes ∧ node ≠ startNode ∨ node = first) := by
  by_cases onCycle : ∃ cycle ∈ components, startNode ∈ cycle
  · obtain ⟨cycle, listed, inside⟩ := onCycle
    obtain ⟨before, after, split⟩ := append_of_mem listed
    obtain ⟨first, found, handled⟩ :=
      @handleCycle_of_mem graph trigger startNode newStartNodes cycle wellFormed mem reached inside
    have apart := disjoint
    rw [split, pairwise_append, pairwise_cons] at apart
    have outsideBefore : ∀ other ∈ before, startNode ∉ other :=
      fun other otherListed otherInside =>
        apart.2.2 other otherListed cycle mem_cons_self otherInside inside
    have outsideAfter : ∀ other ∈ after, startNode ∉ other :=
      fun other otherListed otherInside =>
        apart.2.1.1 other otherListed inside otherInside
    refine ⟨OrderedSet.add (newStartNodes.filter (· ≠ startNode)) first,
      first, ?_, .inl ⟨cycle, listed, inside, found⟩,
      .inr ⟨⟨cycle, listed, inside⟩, fun node => by simp⟩⟩
    rw [split, foldlM_append, foldlM_eq_self fun other listed =>
      handleCycle_of_not_mem (outsideBefore other listed)]
    change (cycle :: after).foldlM (handleCycle graph trigger startNode) newStartNodes = _
    rw [foldlM_cons, handled]
    exact foldlM_eq_self fun other listed =>
      handleCycle_of_not_mem (outsideAfter other listed)
  · push Not at onCycle
    exact ⟨newStartNodes, startNode, foldlM_eq_self fun cycle listed =>
        handleCycle_of_not_mem (onCycle cycle listed),
      .inr ⟨onCycle, rfl⟩, .inl ⟨onCycle, rfl⟩⟩

/-- The start nodes handled so far are replaced, the others are still there. -/
def HandledUpTo (graph : DirectedGraph) (trigger : INode)
    (components : List (List INode)) (startNodes handled current : List INode) : Prop :=
  ∀ node, node ∈ current ↔
    (∃ startNode ∈ handled, Replaces graph trigger components startNode node) ∨
      node ∈ startNodes ∧ node ∉ handled

theorem HandledUpTo.step {startNodes handled current result : List INode}
    {first : INode} (disjoint : components.Pairwise List.Disjoint)
    (upTo : HandledUpTo graph trigger components startNodes handled current)
    (listed : startNode ∈ startNodes)
    (replaces : Replaces graph trigger components startNode first)
    (changed : (∀ cycle ∈ components, startNode ∉ cycle) ∧ result = current ∨
      (∃ cycle ∈ components, startNode ∈ cycle) ∧ ∀ node, node ∈ result ↔
        node ∈ current ∧ node ≠ startNode ∨ node = first) :
    HandledUpTo graph trigger components startNodes (handled ++ [startNode])
      result := by
  have handledIff : ∀ node, (∃ other ∈ handled ++ [startNode],
      Replaces graph trigger components other node) ↔
      (∃ other ∈ handled, Replaces graph trigger components other node) ∨ node = first := by
    intro node
    constructor
    · rintro ⟨other, mem, otherReplaces⟩
      rcases mem_append.mp mem with old | new
      · exact .inl ⟨other, old, otherReplaces⟩
      · rw [mem_singleton.mp new] at otherReplaces
        exact .inr (replaces.unique disjoint otherReplaces)
    · rintro (⟨other, mem, otherReplaces⟩ | rfl)
      · exact ⟨other, mem_append_left _ mem, otherReplaces⟩
      · exact ⟨startNode, by simp, replaces⟩
  intro node
  rw [handledIff, mem_append, mem_singleton, not_or]
  rcases changed with ⟨outside, rfl⟩ | ⟨_, exactly⟩
  · have isStart : first = startNode := Replaces.unique disjoint (.inr ⟨outside, rfl⟩) replaces
    rw [upTo node, isStart]
    by_cases same : node = startNode
    · subst same
      refine iff_of_true ?_ (.inl (.inr rfl))
      by_cases before : node ∈ handled
      · exact .inl ⟨node, before, .inr ⟨outside, rfl⟩⟩
      · exact .inr ⟨listed, before⟩
    · simp [same]
  · rw [exactly, upTo node]
    constructor
    · rintro (⟨old | ⟨isStart, notHandled⟩, ne⟩ | isFirst)
      · exact .inl (.inl old)
      · exact .inr ⟨isStart, notHandled, ne⟩
      · exact .inl (.inr isFirst)
    · rintro ((old | isFirst) | ⟨isStart, notHandled, ne⟩)
      · by_cases same : node = startNode
        · obtain ⟨other, _, otherReplaces⟩ := old
          subst same
          exact .inr (otherReplaces.idempotent disjoint replaces).symm
        · exact .inl ⟨.inl old, same⟩
      · exact .inr isFirst
      · exact .inl ⟨.inr ⟨isStart, notHandled⟩, ne⟩

theorem handleCycles_eq_foldlM (nonempty : [] ∉ components)
    (returned : graph.getStronglyConnectedComponents = .ok components)
    (startNodes : List INode) :
    handleCycles graph trigger startNodes = startNodes.foldlM (fun newStartNodes startNode =>
        components.foldlM (handleCycle graph trigger startNode) newStartNodes)
      startNodes := by
  have all : components.filter (1 ≤ ·.length) = components := by
    rw [filter_eq_self]
    intro cycle listed
    have some : cycle ≠ [] := fun none => nonempty (none ▸ listed)
    exact decide_eq_true (length_pos_iff.mpr some)
  rw [handleCycles, returned]
  change (if (components.filter (1 ≤ ·.length)).isEmpty then
    Except.ok startNodes else _) = _
  rw [all]
  cases components with
  | nil => exact (foldlM_eq_self fun _ _ => rfl).symm
  | cons cycle later => rfl

theorem handleCycles_eq_ok (wellFormed : graph.WellFormed)
    (disjoint : components.Pairwise List.Disjoint) (nonempty : [] ∉ components)
    (returned : graph.getStronglyConnectedComponents = .ok components)
    (mem : trigger ∈ graph.getNodes) {startNodes : List INode}
    (reached : ∀ startNode ∈ startNodes, graph.Reachable trigger startNode) :
    ∃ newStartNodes, handleCycles graph trigger startNodes = .ok newStartNodes ∧
      ∀ node, node ∈ newStartNodes ↔ ∃ startNode ∈ startNodes,
        Replaces graph trigger components startNode node := by
  rw [handleCycles_eq_foldlM nonempty returned]
  -- the loop, started behind some of the start nodes
  have loop : ∀ (later handled current : List INode),
      HandledUpTo graph trigger components startNodes handled current →
      (∀ startNode ∈ later, startNode ∈ startNodes) →
      ∃ result, later.foldlM (fun newStartNodes startNode =>
          components.foldlM (handleCycle graph trigger startNode)
            newStartNodes) current = .ok result ∧
        HandledUpTo graph trigger components startNodes (handled ++ later) result := by
    intro later
    induction later with
    | nil =>
      intro handled current upTo _
      exact ⟨current, rfl, by rwa [append_nil]⟩
    | cons startNode later ih =>
      intro handled current upTo listed
      have isStart := listed startNode mem_cons_self
      obtain ⟨result, first, ok, replaces, changed⟩ :=
        handleStartNode_eq_ok wellFormed disjoint mem (reached startNode isStart) current
      obtain ⟨last, rest, done⟩ := ih _ result (upTo.step disjoint isStart replaces changed)
        fun other otherListed =>
          listed other (mem_cons_of_mem _ otherListed)
      refine ⟨last, ?_, by rwa [append_cons]⟩
      rw [foldlM_cons, ok]
      exact rest
  obtain ⟨result, ok, done⟩ := loop startNodes [] startNodes
    (by simp [HandledUpTo]) fun _ listed => listed
  refine ⟨result, ok, fun node => ?_⟩
  rw [done node, nil_append]
  simp

end Replacing

/-! ## When whole cycles are restarted -/

section Exactness

variable {graph : DirectedGraph} {trigger startNode node : INode}

open Classical in
theorem firstMet_iff : FirstMet graph trigger startNode node ↔ (graph.depthFirstOrder trigger).find?
        (fun other => decide (graph.SameComponent startNode other)) = some node := by
  rw [find?_eq_some_iff_append, FirstMet, decide_eq_true_eq]
  simp only [Bool.not_eq_true', decide_eq_false_iff_not]
  constructor
  · rintro ⟨before, after, split, same, earlier⟩
    exact ⟨same, before, after, split, earlier⟩
  · rintro ⟨same, before, after, split, earlier⟩
    exact ⟨before, after, split, same, earlier⟩

theorem FirstMet.unique {other : INode} (first : FirstMet graph trigger startNode node)
    (second : FirstMet graph trigger startNode other) : node = other := by
  rw [firstMet_iff] at first second
  exact Option.some.inj (first.symm.trans second)

theorem FirstMet.of_sameComponent {other : INode} (same : graph.SameComponent other startNode)
    (first : FirstMet graph trigger startNode node) :
    FirstMet graph trigger other node := by
  obtain ⟨before, after, split, isSame, earlier⟩ := first
  exact ⟨before, after, split, same.trans isSame, fun third mem isSame =>
    earlier third mem (same.symm.trans isSame)⟩

theorem exists_firstMet (wellFormed : graph.WellFormed)
    (mem : trigger ∈ graph.getNodes) (reached : graph.Reachable trigger startNode) :
    ∃ node, FirstMet graph trigger startNode node := by
  classical
  have met : ((graph.depthFirstOrder trigger).find? (fun other =>
      decide (graph.SameComponent startNode other))).isSome = true := by
    rw [find?_isSome]
    exact ⟨startNode, mem_depthFirstOrder_of_reachable wellFormed mem reached,
      decide_eq_true (.refl startNode)⟩
  obtain ⟨node, found⟩ := Option.isSome_iff_exists.mp met
  exact ⟨node, firstMet_iff.mpr found⟩

variable {components : List (List INode)}

theorem replaces_iff_firstMet (wellFormed : graph.WellFormed)
    (partition : graph.IsComponentPartition components)
    (mem : startNode ∈ graph.getNodes) :
    Replaces graph trigger components startNode node ↔ FirstMet graph trigger startNode node := by
  classical
  obtain ⟨cycle, listed, inside⟩ := (partition.covers startNode).mp mem
  have whole : ∀ other, other ∈ cycle ↔ graph.SameComponent startNode other := by
    intro other
    constructor
    · intro otherInside
      have otherMem := (partition.covers other).mpr ⟨cycle, listed, otherInside⟩
      exact (partition.same startNode mem other otherMem).mp ⟨cycle, listed, inside, otherInside⟩
    · intro same
      obtain ⟨second, otherListed, again, otherInside⟩ := (partition.same startNode mem other
          (mem_getNodes_of_reachable wellFormed mem same.1)).mpr same
      cases eq_of_mem_of_mem partition.disjoint listed otherListed inside again
      exact otherInside
  have sameSearch : (graph.depthFirstOrder trigger).find? (· ∈ cycle) =
      (graph.depthFirstOrder trigger).find? (fun other =>
        decide (graph.SameComponent startNode other)) := by
    congr 1
    funext other
    exact decide_eq_decide.mpr (whole other)
  rw [firstMet_iff, ← sameSearch]
  constructor
  · rintro (⟨second, otherListed, otherInside, first⟩ | ⟨outside, _⟩)
    · cases eq_of_mem_of_mem partition.disjoint listed otherListed inside otherInside
      exact first
    · exact absurd inside (outside cycle listed)
  · intro first
    exact .inl ⟨cycle, listed, inside, first⟩

variable {newStartNodes : List INode}

theorem restartsCycles_of_firstMet {startNodes : List INode}
    (exactly : ∀ node, node ∈ newStartNodes ↔
      ∃ startNode ∈ startNodes, FirstMet graph trigger startNode node)
    (met : ∀ startNode ∈ startNodes, ∃ node, FirstMet graph trigger startNode node) :
    RestartsCycles graph trigger startNodes newStartNodes where
  replaced := by
    intro startNode listed
    obtain ⟨node, first⟩ := met startNode listed
    exact ⟨node, (exactly node).mpr ⟨startNode, listed, first⟩, first⟩
  kept := by
    intro startNode listed alone
    obtain ⟨node, first⟩ := met startNode listed
    obtain ⟨_, _, _, same, _⟩ := id first
    have here : node = startNode := alone node same
    exact (exactly startNode).mpr ⟨startNode, listed, here ▸ first⟩
  nothingElse node mem := (exactly node).mp mem
  distinct := by
    intro node mem other otherMem same
    obtain ⟨startNode, _, first⟩ := (exactly node).mp mem
    obtain ⟨otherStart, _, otherFirst⟩ := (exactly other).mp otherMem
    obtain ⟨_, _, _, ofNode, _⟩ := id first
    obtain ⟨_, _, _, ofOther, _⟩ := id otherFirst
    exact first.unique (otherFirst.of_sameComponent (ofNode.trans (same.trans ofOther.symm)))

/-- A start node that is not the first met node of its component shares a
returned set with it. -/
theorem exists_cycle_of_restartsCycles
    (exactly : ∀ other, other ∈ newStartNodes ↔ ∃ listed ∈ [startNode],
      Replaces graph trigger components listed other)
    (restarts : RestartsCycles graph trigger [startNode] newStartNodes)
    (first : FirstMet graph trigger startNode node) (ne : startNode ≠ node) :
    ∃ cycle ∈ components, startNode ∈ cycle ∧ node ∈ cycle := by
  obtain ⟨other, mem, otherFirst⟩ := restarts.replaced startNode (mem_singleton_self startNode)
  cases first.unique otherFirst
  obtain ⟨listed, isStart, replaces⟩ := (exactly node).mp mem
  rw [mem_singleton.mp isStart] at replaces
  rcases replaces with ⟨cycle, isCycle, inside, found⟩ | ⟨_, same⟩
  · exact ⟨cycle, isCycle, inside, by simpa using find?_some found⟩
  · exact absurd same.symm ne

/-- Where `handleCycles` is right for all start nodes, the ids of the first
nodes arrive at all nodes behind the trigger. -/
theorem linked_of_restartsCycles (wellFormed : graph.WellFormed)
    (mem : trigger ∈ graph.getNodes) (restarts : ∀ startNodes : List INode,
      (∀ startNode ∈ startNodes, graph.Reachable trigger startNode) →
      ∃ newStartNodes, handleCycles graph trigger startNodes = .ok newStartNodes ∧
        RestartsCycles graph trigger startNodes newStartNodes)
    (reached : graph.Reachable trigger node) {first : INode}
    (isFirst : FirstOf graph graph.dfsOrder node first) :
    DirectedGraph.Linked graph.dfsOrder node first := by
  obtain ⟨state, returned, parts, _⟩ :=
    searchInvariant_returnsParts.atEnd returnsParts_empty wellFormed
  have nonempty : [] ∉ state.stronglyConnectedComponents := fun listed =>
    (parts.returned [] listed).nonempty rfl
  obtain ⟨met, isMet⟩ := exists_firstMet wellFormed mem reached
  -- each other node of the component shares a set with the first met node
  have shares : ∀ other, graph.SameComponent node other → other ≠ met →
      ∃ cycle ∈ state.stronglyConnectedComponents, other ∈ cycle ∧ met ∈ cycle := by
    intro other same ne
    have otherReached : ∀ startNode ∈ [other], graph.Reachable trigger startNode := by
      intro startNode listed
      rw [mem_singleton.mp listed]
      exact reached.trans same.1
    obtain ⟨result, ok, exactly⟩ := handleCycles_eq_ok wellFormed
      parts.disjoint nonempty returned mem otherReached
    obtain ⟨newStartNodes, sameSuccess, restarted⟩ := restarts [other] otherReached
    cases ok.symm.trans sameSuccess
    exact exists_cycle_of_restartsCycles exactly restarted (isMet.of_sameComponent same.symm) ne
  by_cases alone : node = first
  · subst alone
    exact .nil _ _
  have together : ∃ cycle ∈ state.stronglyConnectedComponents, node ∈ cycle ∧ first ∈ cycle := by
    by_cases nodeMet : node = met
    · obtain ⟨cycle, listed, inside, metInside⟩ :=
        shares first isFirst.2.1 (nodeMet ▸ Ne.symm alone)
      exact ⟨cycle, listed, nodeMet ▸ metInside, inside⟩
    · obtain ⟨cycle, listed, inside, metInside⟩ := shares node (.refl node) nodeMet
      by_cases firstMet : first = met
      · exact ⟨cycle, listed, inside, firstMet ▸ metInside⟩
      · obtain ⟨second, otherListed, firstInside, again⟩ := shares first isFirst.2.1 firstMet
        cases eq_of_mem_of_mem parts.disjoint listed otherListed metInside again
        exact ⟨cycle, listed, inside, firstInside⟩
  obtain ⟨cycle, listed, inside, firstInside⟩ := together
  exact (parts.returned cycle listed).linked inside firstInside isFirst parts.recorded

/-- Whole cycles are restarted, for every trigger and all start nodes behind
it, exactly when the id of the first node of each component arrives at all its
nodes. -/
theorem handleCycles_restartsCycles_iff (wellFormed : graph.WellFormed) :
    (∀ trigger ∈ graph.getNodes, ∀ startNodes : List INode,
      (∀ startNode ∈ startNodes, graph.Reachable trigger startNode) →
      ∃ newStartNodes, handleCycles graph trigger startNodes = .ok newStartNodes ∧
        RestartsCycles graph trigger startNodes newStartNodes) ↔
      graph.FirstIdsArrive := by
  constructor
  · intro restarts node mem first isFirst
    exact linked_of_restartsCycles wellFormed mem (restarts node mem) .refl isFirst
  · intro arrive trigger mem startNodes reached
    obtain ⟨state, returned, ⟨recorded, result⟩, allVisited⟩ :=
      getStronglyConnectedComponents_outcome wellFormed
    have intact := result.resolve_right fun spoiled => by
      obtain ⟨node, visited, _, first, isFirst, unlinked⟩ := spoiled.unlinked
      exact unlinked (arrive node (recorded.members node visited) first isFirst)
    have partition := (intact.isComponentPartition recorded allVisited).2
    obtain ⟨newStartNodes, success, exactly⟩ := handleCycles_eq_ok wellFormed
      partition.disjoint partition.nonempty returned mem reached
    have inGraph : ∀ startNode ∈ startNodes, startNode ∈ graph.getNodes :=
      fun startNode listed => mem_getNodes_of_reachable wellFormed mem (reached startNode listed)
    refine ⟨newStartNodes, success, restartsCycles_of_firstMet ?_ ?_⟩
    · intro node
      rw [exactly]
      exact exists_congr fun startNode => and_congr_right fun listed =>
        replaces_iff_firstMet wellFormed partition (inGraph startNode listed)
    · intro startNode listed
      exact exists_firstMet wellFormed mem (reached startNode listed)

end Exactness

namespace CyclesExample

/-- With the first node of a cycle as the trigger, the second one is replaced
by it. -/
theorem restartsCycles_twoCycle : ∃ newStartNodes,
      handleCycles twoCycle outerNode [innerNode] = .ok newStartNodes ∧
      RestartsCycles twoCycle outerNode [innerNode] newStartNodes := by
  have restarts := (handleCycles_restartsCycles_iff
    ⟨by decide, by decide⟩).mpr firstIdsArrive_twoCycle
  refine restarts outerNode (by decide) [innerNode] ?_
  intro startNode listed
  rw [mem_singleton.mp listed]
  exact .single ⟨{ fromNode := outerNode, toNode := innerNode }, by decide, rfl, rfl⟩

def trigger : INode := { name := "Trigger" }

def triggeredCycles : DirectedGraph :=
  [{ fromNode := trigger
     toNode := outerNode },
    { fromNode := outerNode
      toNode := innerNode },
    { fromNode := innerNode
      toNode := lastInnerNode },
    { fromNode := innerNode
      toNode := outerNode },
    { fromNode := lastInnerNode
      toNode := innerNode : GraphConnection }].foldl setConnection
    (empty.addNodes [trigger, outerNode, innerNode, lastInnerNode])

theorem not_reachable_trigger {node : INode} (other : node ≠ trigger) :
    ¬ triggeredCycles.Reachable node trigger := by
  intro reached
  have noInput : ∀ edge ∈ triggeredCycles.getConnections, edge.toNode ≠ trigger := by
    decide
  rcases reached.cases_tail with same | ⟨_, _, edge, listed, _, ends⟩
  · exact other same.symm
  · exact noInput edge listed ends

/-- The node `inner` is kept as a start node, though the cycles start with
`outer`. -/
theorem not_restartsCycles_triggeredCycles :
    triggeredCycles.WellFormed ∧ trigger ∈ triggeredCycles.getNodes ∧
      triggeredCycles.Reachable trigger innerNode ∧
      ¬ ∃ newStartNodes, handleCycles triggeredCycles trigger [innerNode] = .ok newStartNodes ∧
        RestartsCycles triggeredCycles trigger [innerNode] newStartNodes := by
  have forth : triggeredCycles.Joined outerNode innerNode :=
    ⟨{ fromNode := outerNode, toNode := innerNode }, by decide, rfl, rfl⟩
  have back : triggeredCycles.Joined innerNode outerNode :=
    ⟨{ fromNode := innerNode, toNode := outerNode }, by decide, rfl, rfl⟩
  have begins : triggeredCycles.Joined trigger outerNode :=
    ⟨{ fromNode := trigger, toNode := outerNode }, by decide, rfl, rfl⟩
  refine ⟨⟨by decide, by decide⟩, by decide, .tail (.single begins) forth, ?_⟩
  rintro ⟨newStartNodes, success, restarts⟩
  have computed : (handleCycles triggeredCycles trigger [innerNode]).toOption =
      some [innerNode] := by
    decide +kernel
  rw [success] at computed
  obtain rfl : newStartNodes = [innerNode] := Option.some.inj computed
  obtain ⟨node, mem, isFirst⟩ := restarts.replaced innerNode (mem_singleton_self innerNode)
  have outerFirst : FirstMet triggeredCycles trigger innerNode outerNode := by
    refine ⟨[trigger], [innerNode, lastInnerNode], by decide +kernel,
      ⟨.single back, .single forth⟩, ?_⟩
    intro earlier listed same
    cases mem_singleton.mp listed
    exact not_reachable_trigger (by decide) same.1
  rw [mem_singleton.mp mem] at isFirst
  exact absurd (isFirst.unique outerFirst) (by decide)

end CyclesExample

end N8n
