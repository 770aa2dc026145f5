import N8n.PartialExecution.StronglyConnected

/-!
# The invariant of the low-link search

A state of the search is either intact or spoiled.  In an intact state the
stack holds exactly the visited nodes whose component has a node that is
still being followed, the other visited nodes form the components returned so
far, and the low-link values are the least ids that arrived.  A state is
spoiled when a node never got the id of its component's first node: then a
part of a component was returned, or the node stays on the stack for good.
The nodes being followed are `open'`, the innermost first.
-/

namespace N8n

open List OrderedMap Nat

namespace DirectedGraph

open SccState (visit minLowLink popComponent)

section Invariant

variable (graph : DirectedGraph) (open' : List INode) (order : DfsOrder) (state : SccState)

def lowOf (state : SccState) (node : INode) : Nat :=
  (state.lowLinkValues.get? node).getD 0

def FirstOf (node first : INode) : Prop :=
  first ∈ order.visited ∧ graph.SameComponent node first ∧
    ∀ other ∈ order.visited, graph.SameComponent node other →
      order.number first ≤ order.number other

structure Recorded : Prop where
  visited : state.visited = order.visited
  id : state.id = order.visited.length
  ids : ∀ node ∈ order.visited, state.ids.get? node = some (order.number node)
  low : ∀ node ∈ order.visited, state.lowLinkValues.get? node = some (lowOf state node) ∧
      lowOf state node < order.visited.length
  members : ∀ node ∈ order.visited, node ∈ graph.getNodes
  stacked : ∀ node ∈ state.stack, node ∈ order.visited
  opened : ∀ node ∈ open', node ∈ order.visited
  completed : ∀ connection ∈ order.completed,
    connection ∈ graph.getConnections ∧ connection.fromNode ∈ order.visited ∧
      connection.toNode ∈ order.visited

structure Intact : Prop where
  stackOrder : state.stack.Pairwise fun newer older =>
    order.number older < order.number newer
  openStacked : open'.Sublist state.stack
  rooted : ∀ node ∈ state.stack, ∃ root ∈ open',
    graph.SameComponent node root ∧ order.number root ≤ order.number node
  forward : ∀ older ∈ state.stack, ∀ newer ∈ state.stack,
    order.number older ≤ order.number newer → graph.Reachable older newer
  children : ∀ node ∈ order.visited, node ∉ open' →
    ∀ child, graph.Joined node child → child ∈ order.visited
  closed : ∀ node ∈ order.visited, node ∉ state.stack →
    ∀ child, graph.Joined node child → child ∉ state.stack
  returned : ∀ node, (∃ scc ∈ state.stronglyConnectedComponents, node ∈ scc) ↔
    node ∈ order.visited ∧ node ∉ state.stack
  components : ∀ scc ∈ state.stronglyConnectedComponents, ∀ node ∈ scc,
    ∀ other, other ∈ scc ↔ graph.SameComponent node other
  disjoint : state.stronglyConnectedComponents.Pairwise List.Disjoint
  nonempty : [] ∉ state.stronglyConnectedComponents
  lowSound : ∀ node ∈ state.stack, ∃ target ∈ state.stack,
    lowOf state node = order.number target ∧ Linked order node target
  lowLeast : ∀ node ∈ state.stack, ∀ target ∈ state.stack,
    Linked order node target → lowOf state node ≤ order.number target
  linked : ∀ node ∈ order.visited, node ∉ state.stack →
    ∀ first, FirstOf graph order node first → Linked order node first

/-- A part of a component was returned without the rest. -/
def PartReturned : Prop :=
  ∃ scc ∈ state.stronglyConnectedComponents, ∃ node ∈ scc, ∃ other,
    graph.SameComponent node other ∧ other ∉ scc

/-- No node that is still open has the id for which a node waits. -/
def Stuck : Prop :=
  ∃ node ∈ order.visited, node ∉ open' ∧ (∀ scc ∈ state.stronglyConnectedComponents, node ∉ scc) ∧
    ∀ other ∈ open', order.number other ≠ lowOf state node

structure Spoiled : Prop where
  wrong : PartReturned graph state ∨ Stuck open' order state
  unlinked : ∃ node ∈ order.visited, node ∉ open' ∧ ∃ first,
    FirstOf graph order node first ∧ ¬ Linked order node first

def Outcome : Prop :=
  Recorded graph open' order state ∧
    (Intact graph open' order state ∨ Spoiled graph open' order state)

end Invariant

section Visit

variable {graph : DirectedGraph} {open' : List INode} {order : DfsOrder}
  {state : SccState} {node : INode}

theorem lowOf_visit_self : lowOf (state.visit node) node = state.id := by
  simp [lowOf, visit]

theorem lowOf_visit {other : INode} (ne : other ≠ node) :
    lowOf (state.visit node) other = lowOf state other := by
  simp [lowOf, visit, get?_set_ne _ _ ne.symm]

theorem Recorded.visit (recorded : Recorded graph open' order state)
    (fresh : node ∉ order.visited) (mem : node ∈ graph.getNodes) :
    Recorded graph (node :: open') (order.visit node) (state.visit node) := by
  have ne : ∀ other ∈ order.visited, other ≠ node :=
    fun other otherMem same => fresh (same ▸ otherMem)
  constructor
  · simp [SccState.visit, DfsOrder.visit, OrderedSet.add, recorded.visited, fresh]
  · simp [SccState.visit, DfsOrder.visit, recorded.id]
  · intro other otherMem
    rcases DfsOrder.mem_visited_visit.mp otherMem with otherMem | rfl
    · rw [DfsOrder.number_visit otherMem]
      simp only [SccState.visit]
      rw [get?_set_ne _ _ (ne other otherMem).symm]
      exact recorded.ids other otherMem
    · rw [DfsOrder.number_visit_self fresh]
      simp [SccState.visit, recorded.id]
  · intro other otherMem
    have grown : (order.visit node).visited.length = order.visited.length + 1 := by
      simp [DfsOrder.visit]
    rw [grown]
    rcases DfsOrder.mem_visited_visit.mp otherMem with otherMem | rfl
    · obtain ⟨found, bound⟩ := recorded.low other otherMem
      rw [lowOf_visit (ne other otherMem)]
      refine ⟨?_, lt_succ_of_lt bound⟩
      simp only [SccState.visit]
      rw [get?_set_ne _ _ (ne other otherMem).symm]
      exact found
    · rw [lowOf_visit_self]
      exact ⟨by simp [SccState.visit], by rw [recorded.id]; omega⟩
  · intro other otherMem
    rcases DfsOrder.mem_visited_visit.mp otherMem with otherMem | rfl
    · exact recorded.members other otherMem
    · exact mem
  · intro other otherMem
    rw [DfsOrder.mem_visited_visit]
    rcases mem_cons.mp otherMem with same | stacked
    · exact .inr same
    · exact .inl (recorded.stacked other stacked)
  · intro other otherMem
    rw [DfsOrder.mem_visited_visit]
    rcases mem_cons.mp otherMem with same | opened
    · exact .inr same
    · exact .inl (recorded.opened other opened)
  · intro connection listed
    obtain ⟨connectionMem, fromMem, toMem⟩ := recorded.completed connection listed
    exact ⟨connectionMem, DfsOrder.mem_visited_visit.mpr (.inl fromMem),
      DfsOrder.mem_visited_visit.mpr (.inl toMem)⟩

theorem eq_of_linked_fresh (recorded : Recorded graph open' order state)
    (fresh : node ∉ order.visited) {other : INode} :
    (Linked order node other → node = other) ∧ (Linked order other node → other = node) := by
  constructor
  · intro linked
    exact linked.eq_of_no_source fun connection listed same =>
      fresh (same ▸ (recorded.completed connection listed).2.1)
  · intro linked
    exact linked.eq_of_no_target fun connection listed same =>
      fresh (same ▸ (recorded.completed connection listed).2.2)

theorem FirstOf.of_visit (fresh : node ∉ order.visited) {other first : INode}
    (otherMem : other ∈ order.visited)
    (isFirst : FirstOf graph (order.visit node) other first) :
    FirstOf graph order other first := by
  obtain ⟨mem, same, least⟩ := isFirst
  have firstMem : first ∈ order.visited := by
    rcases DfsOrder.mem_visited_visit.mp mem with old | rfl
    · exact old
    · -- the node itself comes before a node that is visited only now
      have bound := least other (DfsOrder.mem_visited_visit.mpr (.inl otherMem)) (.refl other)
      rw [DfsOrder.number_visit_self fresh, DfsOrder.number_visit otherMem] at bound
      exact absurd (DfsOrder.number_lt otherMem) (not_lt.mpr bound)
  refine ⟨firstMem, same, fun third thirdMem thirdSame => ?_⟩
  have bound := least third (DfsOrder.mem_visited_visit.mpr (.inl thirdMem)) thirdSame
  rwa [DfsOrder.number_visit firstMem, DfsOrder.number_visit thirdMem] at bound

theorem FirstOf.visit (fresh : node ∉ order.visited) {other first : INode}
    (isFirst : FirstOf graph order other first) :
    FirstOf graph (order.visit node) other first := by
  obtain ⟨mem, same, least⟩ := isFirst
  refine ⟨DfsOrder.mem_visited_visit.mpr (.inl mem), same, fun third thirdMem thirdSame => ?_⟩
  rw [DfsOrder.number_visit mem]
  rcases DfsOrder.mem_visited_visit.mp thirdMem with old | rfl
  · rw [DfsOrder.number_visit old]
    exact least third old thirdSame
  · rw [DfsOrder.number_visit_self fresh]
    exact le_of_lt (DfsOrder.number_lt mem)

theorem Intact.visit (recorded : Recorded graph open' order state)
    (intact : Intact graph open' order state) (fresh : node ∉ order.visited)
    (reaches : ∀ other ∈ open', graph.Reachable other node) :
    Intact graph (node :: open') (order.visit node) (state.visit node) := by
  have stackedOld : ∀ other ∈ state.stack, (order.visit node).number other = order.number other :=
    fun other mem => DfsOrder.number_visit (recorded.stacked other mem)
  have newest : ∀ other ∈ state.stack, order.number other < (order.visit node).number node := by
    intro other mem
    rw [DfsOrder.number_visit_self fresh]
    exact DfsOrder.number_lt (recorded.stacked other mem)
  have freshStack : node ∉ state.stack := fun mem =>
    fresh (recorded.stacked node mem)
  have stack : (state.visit node).stack = node :: state.stack := rfl
  constructor
  · refine pairwise_cons.mpr ⟨?_, ?_⟩
    · intro other mem
      rw [stackedOld other mem]
      exact newest other mem
    · refine intact.stackOrder.imp_of_mem ?_
      intro newer older newerMem olderMem less
      rw [stackedOld newer newerMem, stackedOld older olderMem]
      exact less
  · exact intact.openStacked.cons_cons node
  · intro other mem
    rcases mem_cons.mp mem with rfl | mem
    · exact ⟨other, mem_cons_self, .refl other, le_rfl⟩
    · obtain ⟨root, rootMem, same, bound⟩ := intact.rooted other mem
      refine ⟨root, mem_cons_of_mem _ rootMem, same, ?_⟩
      rw [stackedOld other mem, stackedOld root (intact.openStacked.subset rootMem)]
      exact bound
  · intro older olderMem newer newerMem bound
    rcases mem_cons.mp newerMem with rfl | newerOld
    · rcases mem_cons.mp olderMem with rfl | olderOld
      · exact .refl
      · obtain ⟨root, rootMem, same, _⟩ := intact.rooted older olderOld
        exact same.1.trans (reaches root rootMem)
    · rcases mem_cons.mp olderMem with rfl | olderOld
      · rw [stackedOld newer newerOld] at bound
        exact absurd (newest newer newerOld) (not_lt.mpr bound)
      · rw [stackedOld newer newerOld, stackedOld older olderOld] at bound
        exact intact.forward older olderOld newer newerOld bound
  · intro other mem notOpen child joined
    rcases DfsOrder.mem_visited_visit.mp mem with mem | rfl
    · exact DfsOrder.mem_visited_visit.mpr (.inl (intact.children other
        mem (fun opened => notOpen (mem_cons_of_mem _ opened)) child
        joined))
    · exact (notOpen mem_cons_self).elim
  · intro other mem notStacked child joined stacked
    rcases DfsOrder.mem_visited_visit.mp mem with old | rfl
    · have off : other ∉ state.stack := fun stacked =>
        notStacked (mem_cons_of_mem _ stacked)
      rcases mem_cons.mp stacked with rfl | childStacked
      · exact fresh (intact.children other old (fun opened =>
          off (intact.openStacked.subset opened)) child joined)
      · exact intact.closed other old off child joined childStacked
    · exact notStacked mem_cons_self
  · intro other
    refine (intact.returned other).trans ?_
    rw [stack, mem_cons, not_or, DfsOrder.mem_visited_visit]
    constructor
    · rintro ⟨mem, off⟩
      exact ⟨.inl mem, fun same => fresh (same ▸ mem), off⟩
    · rintro ⟨mem | same, ne, off⟩
      · exact ⟨mem, off⟩
      · exact (ne same).elim
  · exact intact.components
  · exact intact.disjoint
  · exact intact.nonempty
  · intro other mem
    rcases mem_cons.mp mem with rfl | mem
    · refine ⟨other, mem_cons_self, ?_, .nil _ _⟩
      rw [lowOf_visit_self, DfsOrder.number_visit_self fresh, recorded.id]
    · obtain ⟨target, targetMem, low, linked⟩ := intact.lowSound other mem
      refine ⟨target, mem_cons_of_mem _ targetMem, ?_, linked⟩
      have ne : other ≠ node := fun same =>
        freshStack (same ▸ mem)
      rw [lowOf_visit ne, low, stackedOld target targetMem]
  · intro other mem target targetMem linked
    rcases mem_cons.mp mem with rfl | mem
    · rw [← (eq_of_linked_fresh recorded fresh).1 linked, lowOf_visit_self,
        DfsOrder.number_visit_self fresh, recorded.id]
    · have ne : other ≠ node := fun same =>
        freshStack (same ▸ mem)
      rcases mem_cons.mp targetMem with rfl | targetMem
      · exact (ne ((eq_of_linked_fresh recorded fresh).2 linked)).elim
      · rw [lowOf_visit ne, stackedOld target targetMem]
        exact intact.lowLeast other mem target targetMem linked
  · intro other mem notStacked first isFirst
    rcases DfsOrder.mem_visited_visit.mp mem with mem | rfl
    · exact intact.linked other mem (fun stacked => notStacked (mem_cons_of_mem _ stacked)) first
        (isFirst.of_visit fresh mem)
    · exact (notStacked mem_cons_self).elim

theorem Spoiled.visit (recorded : Recorded graph open' order state)
    (spoiled : Spoiled graph open' order state) (fresh : node ∉ order.visited) :
    Spoiled graph (node :: open') (order.visit node) (state.visit node) := by
  have notNode : ∀ other ∈ order.visited, other ∉ open' → other ∉ node :: open' := by
    intro other mem notOpen opened
    rcases mem_cons.mp opened with rfl | opened
    · exact fresh mem
    · exact notOpen opened
  constructor
  · rcases spoiled.wrong with part | ⟨other, mem, notOpen, absent, waits⟩
    · exact .inl part
    · refine .inr ⟨other, DfsOrder.mem_visited_visit.mpr (.inl mem),
        notNode other mem notOpen, absent, ?_⟩
      intro third opened
      have ne : other ≠ node := fun same => fresh (same ▸ mem)
      rw [lowOf_visit ne]
      rcases mem_cons.mp opened with rfl | opened
      · rw [DfsOrder.number_visit_self fresh]
        exact ne_of_gt (recorded.low other mem).2
      · rw [DfsOrder.number_visit (recorded.opened third opened)]
        exact waits third opened
  · obtain ⟨other, mem, notOpen, first, isFirst, unlinked⟩ := spoiled.unlinked
    exact ⟨other, DfsOrder.mem_visited_visit.mpr (.inl mem),
      notNode other mem notOpen, first, isFirst.visit fresh, unlinked⟩

theorem Outcome.visit (outcome : Outcome graph open' order state)
    (fresh : node ∉ order.visited) (mem : node ∈ graph.getNodes)
    (reaches : ∀ other ∈ open', graph.Reachable other node) :
    Outcome graph (node :: open') (order.visit node) (state.visit node) :=
  ⟨outcome.1.visit fresh mem, outcome.2.imp (fun intact => intact.visit outcome.1 fresh reaches)
      (fun spoiled => spoiled.visit outcome.1 fresh)⟩

end Visit

section MinLowLink

variable {graph : DirectedGraph} {open' : List INode} {order : DfsOrder}
  {state : SccState} {node : INode} {connection : GraphConnection}

/-- The state after completing a connection to a child. -/
def lowered (state : SccState) (node child : INode) : SccState :=
  if child ∈ state.stack then
    { state with
      lowLinkValues := state.lowLinkValues.set node (min (lowOf state child) (lowOf state node)) }
  else state

variable {child : INode}

theorem lowered_stack : (lowered state node child).stack = state.stack := by
  unfold lowered
  split <;> rfl

theorem lowered_components : (lowered state node child).stronglyConnectedComponents =
      state.stronglyConnectedComponents := by
  unfold lowered
  split <;> rfl

theorem lowOf_lowered_ne {child other : INode} (ne : other ≠ node) :
    lowOf (lowered state node child) other = lowOf state other := by
  unfold lowered
  split
  · simp [lowOf, get?_set_ne _ _ ne.symm]
  · rfl

theorem lowOf_lowered_self (stacked : child ∈ state.stack) :
    lowOf (lowered state node child) node = min (lowOf state child) (lowOf state node) := by
  rw [lowered, if_pos stacked]
  simp [lowOf]

theorem lowOf_lowered_le {child other : INode} :
    lowOf (lowered state node child) other ≤ lowOf state other := by
  by_cases same : other = node
  · subst same
    by_cases stacked : child ∈ state.stack
    · rw [lowOf_lowered_self stacked]
      exact min_le_right _ _
    · rw [lowered, if_neg stacked]
  · rw [lowOf_lowered_ne same]

theorem minLowLink_eq_ok (recorded : Recorded graph open' order state)
    (mem : node ∈ order.visited) :
    state.minLowLink node child = .ok (lowered state node child) := by
  unfold minLowLink lowered
  split
  next stacked =>
    rw [(recorded.low child (recorded.stacked child stacked)).1, (recorded.low node mem).1]
    rfl
  · rfl

theorem Recorded.complete (recorded : Recorded graph open' order state)
    (mem : connection ∈ graph.getConnections)
    (fromMem : connection.fromNode ∈ order.visited)
    (toMem : connection.toNode ∈ order.visited) :
    Recorded graph open' (order.complete connection)
      (lowered state connection.fromNode connection.toNode) := by
  have kept : (lowered state connection.fromNode connection.toNode).visited = state.visited ∧
      (lowered state connection.fromNode connection.toNode).id = state.id ∧
      (lowered state connection.fromNode connection.toNode).ids =
        state.ids := by
    unfold lowered
    split <;> simp
  constructor
  · rw [kept.1]
    exact recorded.visited
  · rw [kept.2.1]
    exact recorded.id
  · rw [kept.2.2]
    exact recorded.ids
  · intro other otherMem
    obtain ⟨found, bound⟩ := recorded.low other otherMem
    refine ⟨?_, lowOf_lowered_le.trans_lt bound⟩
    by_cases same : other = connection.fromNode
    · subst same
      unfold lowered
      split
      · simp [lowOf]
      · exact found
    · rw [lowOf_lowered_ne same]
      unfold lowered
      split
      · rw [get?_set_ne _ _ (Ne.symm same)]
        exact found
      · exact found
  · exact recorded.members
  · rw [lowered_stack]
    exact recorded.stacked
  · exact recorded.opened
  · intro other listed
    rcases mem_append.mp listed with old | new
    · exact recorded.completed other old
    · obtain rfl := mem_singleton.mp new
      exact ⟨mem, fromMem, toMem⟩

theorem Intact.closed_reachable (intact : Intact graph open' order state)
    {other : INode} (mem : node ∈ order.visited)
    (off : node ∉ state.stack) (reaches : graph.Reachable node other) :
    other ∈ order.visited ∧ other ∉ state.stack := by
  induction reaches with
  | refl => exact ⟨mem, off⟩
  | tail _ joined ih =>
    exact ⟨intact.children _ ih.1 (fun opened => ih.2 (intact.openStacked.subset opened)) _ joined,
      intact.closed _ ih.1 ih.2 _ joined⟩

theorem Linked.reachable (recorded : Recorded graph open' order state)
    {other : INode} (linked : Linked order node other) :
    graph.Reachable node other :=
  LinkPath.reachable (fun connection listed =>
      ⟨connection, (recorded.completed connection listed).1, rfl, rfl⟩)
    linked

theorem Intact.complete (recorded : Recorded graph open' order state)
    (intact : Intact graph open' order state)
    (toMem : connection.toNode ∈ order.visited) :
    Intact graph open' (order.complete connection)
      (lowered state connection.fromNode connection.toNode) := by
  have step : ∀ {start finish}, Linked (order.complete connection) start
      finish ↔ Linked order start finish ∨
        (connection.fromNode = start ∧ Linked order connection.toNode finish) :=
    LinkPath.append_singleton_iff
  constructor
  · rw [lowered_stack]
    exact intact.stackOrder
  · rw [lowered_stack]
    exact intact.openStacked
  · rw [lowered_stack]
    exact intact.rooted
  · rw [lowered_stack]
    exact intact.forward
  · exact intact.children
  · rw [lowered_stack]
    exact intact.closed
  · rw [lowered_stack, lowered_components]
    exact intact.returned
  · rw [lowered_components]
    exact intact.components
  · rw [lowered_components]
    exact intact.disjoint
  · rw [lowered_components]
    exact intact.nonempty
  · intro other mem
    rw [lowered_stack] at mem ⊢
    obtain ⟨target, targetMem, low, linked⟩ := intact.lowSound other mem
    by_cases lowers : other = connection.fromNode ∧ connection.toNode ∈ state.stack ∧
        lowOf state connection.toNode ≤ lowOf state other
    · obtain ⟨rfl, stacked, less⟩ := lowers
      obtain ⟨target, targetMem, low, linked⟩ := intact.lowSound connection.toNode stacked
      refine ⟨target, targetMem, ?_, step.mpr (.inr ⟨rfl, linked⟩)⟩
      rw [lowOf_lowered_self stacked, min_eq_left less]
      exact low
    · refine ⟨target, targetMem, ?_, step.mpr (.inl linked)⟩
      by_cases same : other = connection.fromNode
      · subst same
        by_cases stacked : connection.toNode ∈ state.stack
        · have more : lowOf state connection.fromNode ≤ lowOf state connection.toNode := by
            by_contra less
            exact lowers ⟨rfl, stacked, by omega⟩
          rw [lowOf_lowered_self stacked, min_eq_right more]
          exact low
        · rw [lowered, if_neg stacked]
          exact low
      · rw [lowOf_lowered_ne same]
        exact low
  · intro other mem target targetMem linked
    rw [lowered_stack] at mem targetMem
    rcases step.mp linked with old | ⟨rfl, rest⟩
    · exact lowOf_lowered_le.trans (intact.lowLeast other mem target targetMem old)
    · by_cases stacked : connection.toNode ∈ state.stack
      · rw [lowOf_lowered_self stacked]
        exact (min_le_left _ _).trans (intact.lowLeast _ stacked target targetMem rest)
      · -- a child that left the stack leads to no node on it
        exact ((intact.closed_reachable toMem stacked
          (Linked.reachable recorded rest)).2 targetMem).elim
  · intro other mem notStacked first isFirst
    rw [lowered_stack] at notStacked
    exact step.mpr (.inl (intact.linked other mem notStacked first isFirst))

theorem Spoiled.complete (spoiled : Spoiled graph open' order state)
    (opened : connection.fromNode ∈ open') :
    Spoiled graph open' (order.complete connection)
      (lowered state connection.fromNode connection.toNode) := by
  constructor
  · rcases spoiled.wrong with part | ⟨other, mem, notOpen, absent, waits⟩
    · refine .inl ?_
      rw [PartReturned, lowered_components]
      exact part
    · refine .inr ⟨other, mem, notOpen, ?_, ?_⟩
      · rw [lowered_components]
        exact absent
      · have ne : other ≠ connection.fromNode := fun same =>
          notOpen (same ▸ opened)
        intro third thirdOpened
        rw [lowOf_lowered_ne ne]
        exact waits third thirdOpened
  · obtain ⟨other, mem, notOpen, first, isFirst, unlinked⟩ := spoiled.unlinked
    refine ⟨other, mem, notOpen, first, isFirst, fun linked => ?_⟩
    rcases LinkPath.append_singleton_iff.mp linked with old | ⟨same, _⟩
    · exact unlinked old
    · exact notOpen (same ▸ opened)

theorem Outcome.complete (outcome : Outcome graph open' order state)
    (mem : connection ∈ graph.getConnections) (opened : connection.fromNode ∈ open')
    (toMem : connection.toNode ∈ order.visited) :
    ∃ next, state.minLowLink connection.fromNode connection.toNode = .ok next ∧
      Outcome graph open' (order.complete connection) next := by
  obtain ⟨recorded, result⟩ := outcome
  have fromMem := recorded.opened _ opened
  refine ⟨_, minLowLink_eq_ok recorded fromMem, recorded.complete mem fromMem toMem, ?_⟩
  exact result.imp (fun intact => intact.complete recorded toMem)
    (fun spoiled => spoiled.complete opened)

end MinLowLink

end DirectedGraph

end N8n
