import Mathlib.Data.List.TakeWhile
import Mathlib.Order.WellFounded
import N8n.PartialExecution.LowLinkInvariant

/-!
# Finishing a node of the low-link search

When all children of a node are visited, the nodes above it on the stack are
the ones visited since.  If the node is the first of its component they are
its component, and popping returns all of them or spoils the search.
Otherwise popping anything returns a part of a component.
-/

namespace N8n

open List Nat

namespace DirectedGraph

open SccState (finish popComponent)

variable {graph : DirectedGraph} {rest : List INode} {order : DfsOrder}
  {state : SccState} {node : INode}

section Pop

variable {open' : List INode}

theorem finish_eq_ok (recorded : Recorded graph open' order state) (mem : node ∈ order.visited) :
    state.finish node = .ok (if order.number node = lowOf state node then
        state.popComponent (order.number node) else state) := by
  rw [finish, recorded.ids node mem, (recorded.low node mem).1]
  simp only [assertDefined, bind, Except.bind]
  split <;> rfl

theorem lowOf_popComponent (ownId : Nat) (other : INode) :
    lowOf (state.popComponent ownId) other = lowOf state other := rfl

def popped (state : SccState) (ownId : Nat) : List INode :=
  state.stack.takeWhile fun next =>
    decide (state.lowLinkValues.get? next = some ownId)

variable {ownId : Nat}

theorem mem_components_popComponent {scc : List INode} :
    scc ∈ (state.popComponent ownId).stronglyConnectedComponents ↔
      scc ∈ state.stronglyConnectedComponents ∨
        (scc = popped state ownId ∧ popped state ownId ≠ []) := by
  simp only [popComponent, popped]
  split
  next empty =>
    simp [List.isEmpty_iff.mp empty]
  next nonempty =>
    rw [List.isEmpty_iff] at nonempty
    simp [nonempty]

theorem low_of_mem_popped {other : INode}
    (mem : other ∈ popped state ownId) : lowOf state other = ownId := by
  have found := mem_takeWhile_imp mem
  rw [decide_eq_true_eq] at found
  rw [lowOf, found, Option.getD_some]

theorem Recorded.close (recorded : Recorded graph (node :: rest) order state) :
    Recorded graph rest order state :=
  { recorded with
    opened := fun other mem =>
      recorded.opened other (mem_cons_of_mem _ mem) }

theorem Recorded.popComponent (recorded : Recorded graph open' order state) (ownId : Nat) :
    Recorded graph open' order (state.popComponent ownId) :=
  { recorded with
    stacked := fun other mem =>
      recorded.stacked other (dropWhile_subset _ mem) }

theorem Spoiled.close (spoiled : Spoiled graph (node :: rest) order state) :
    Spoiled graph rest order state := by
  have outside : ∀ other, other ∉ node :: rest → other ∉ rest :=
    fun other absent mem => absent (mem_cons_of_mem _ mem)
  refine ⟨spoiled.wrong.imp_right ?_, ?_⟩
  · rintro ⟨other, mem, notOpen, absent, waits⟩
    exact ⟨other, mem, outside other notOpen, absent, fun third opened =>
      waits third (mem_cons_of_mem _ opened)⟩
  · obtain ⟨other, mem, notOpen, unlinked⟩ := spoiled.unlinked
    exact ⟨other, mem, outside other notOpen, unlinked⟩

theorem Spoiled.popComponent (spoiled : Spoiled graph open' order state) (opened : node ∈ open') :
    Spoiled graph open' order (state.popComponent (order.number node)) := by
  refine ⟨?_, spoiled.unlinked⟩
  rcases spoiled.wrong with ⟨scc, returned, part⟩ | ⟨other, mem, notOpen, absent, waits⟩
  · exact .inl ⟨scc, mem_components_popComponent.mpr (.inl returned), part⟩
  · refine .inr ⟨other, mem, notOpen, ?_, waits⟩
    intro scc returned inside
    rcases mem_components_popComponent.mp returned with old | ⟨rfl, _⟩
    · exact absent scc old inside
    · exact waits node opened (low_of_mem_popped inside).symm

end Pop

theorem exists_firstOf {other : INode} (mem : other ∈ order.visited) :
    ∃ first, FirstOf graph order other first := by
  obtain ⟨first, ⟨firstMem, same⟩, least⟩ := (measure order.number).wf.has_min
      {first | first ∈ order.visited ∧ graph.SameComponent other first}
      ⟨other, mem, .refl other⟩
  exact ⟨first, firstMem, same, fun third thirdMem thirdSame =>
    Nat.le_of_not_lt (least third ⟨thirdMem, thirdSame⟩)⟩

/-- An intact state whose innermost open node has all children visited.  The
nodes `top` were visited after it and `older` before it. -/
structure Finishing (graph : DirectedGraph) (node : INode) (rest : List INode)
    (order : DfsOrder) (state : SccState) (top older : List INode) :
    Prop where
  recorded : Recorded graph (node :: rest) order state
  intact : Intact graph (node :: rest) order state
  split : state.stack = top ++ [node] ++ older
  openOlder : rest.Sublist older
  childrenVisited : ∀ child, graph.Joined node child → child ∈ order.visited

theorem exists_finishing (recorded : Recorded graph (node :: rest) order state)
    (intact : Intact graph (node :: rest) order state)
    (childrenVisited : ∀ child, graph.Joined node child → child ∈ order.visited) :
    ∃ top older, Finishing graph node rest order state top older := by
  obtain ⟨before, after, whole, mem, openAfter⟩ := cons_sublist_iff.mp intact.openStacked
  obtain ⟨top, between, rfl⟩ := append_of_mem mem
  exact ⟨top, between ++ after, recorded, intact, by simp [whole],
    openAfter.trans (sublist_append_right _ _), childrenVisited⟩

namespace Finishing

variable {top older : List INode} (finishing : Finishing graph node rest order state top older)

include finishing

variable {other : INode}

theorem mem_stack_iff : other ∈ state.stack ↔ other ∈ top ++ [node] ∨ other ∈ older := by
  rw [finishing.split, mem_append]

theorem node_mem_stack : node ∈ state.stack := finishing.mem_stack_iff.mpr (.inl (by simp))

theorem number_lt_of_mem_older (mem : other ∈ older) : order.number other < order.number node := by
  have sorted := finishing.intact.stackOrder
  rw [finishing.split, pairwise_append] at sorted
  exact sorted.2.2 node (by simp) other mem

theorem number_le_of_mem_top (mem : other ∈ top ++ [node]) :
    order.number node ≤ order.number other := by
  have sorted := finishing.intact.stackOrder
  rw [finishing.split, pairwise_append, pairwise_append] at sorted
  rcases mem_append.mp mem with above | self
  · exact le_of_lt (sorted.1.2.2 other above node (by simp))
  · rw [mem_singleton.mp self]

theorem not_mem_older (mem : other ∈ top ++ [node]) : other ∉ older := fun absurd =>
  lt_irrefl _ ((finishing.number_lt_of_mem_older absurd).trans_le
    (finishing.number_le_of_mem_top mem))

theorem not_mem_rest (mem : other ∈ top ++ [node]) : other ∉ rest := fun opened =>
  finishing.not_mem_older mem (finishing.openOlder.subset opened)

theorem reachable_of_mem_top (mem : other ∈ top ++ [node]) : graph.Reachable node other :=
  finishing.intact.forward node finishing.node_mem_stack other
    (finishing.mem_stack_iff.mpr (.inl mem))
    (finishing.number_le_of_mem_top mem)

theorem low_lt_of_mem_older (mem : other ∈ older) : lowOf state other < order.number node := by
  have stacked := finishing.mem_stack_iff.mpr (.inr mem)
  exact (finishing.intact.lowLeast other stacked other stacked
    (.nil _ _)).trans_lt (finishing.number_lt_of_mem_older mem)

theorem mem_top_of_mem_popped (mem : other ∈ popped state (order.number node)) :
    other ∈ top ++ [node] := by
  have stacked : other ∈ state.stack := takeWhile_subset _ mem
  rcases finishing.mem_stack_iff.mp stacked with newer | old
  · exact newer
  · exact absurd (low_of_mem_popped mem) (Nat.ne_of_lt (finishing.low_lt_of_mem_older old))

theorem children : ∀ other ∈ order.visited, other ∉ rest →
    ∀ child, graph.Joined other child → child ∈ order.visited := by
  intro other mem notOpen child joined
  by_cases same : other = node
  · exact finishing.childrenVisited child (same ▸ joined)
  · refine finishing.intact.children other mem (fun opened => ?_) child joined
    exact (mem_cons.mp opened).elim same notOpen

theorem close {first : INode} (firstOlder : first ∈ older) (same : graph.SameComponent node first) :
    Intact graph rest order state := by
  obtain ⟨root, rootOpen, rootSame, rootBound⟩ :=
    finishing.intact.rooted first (finishing.mem_stack_iff.mpr (.inr firstOlder))
  have rootLess : order.number root < order.number node :=
    rootBound.trans_lt (finishing.number_lt_of_mem_older firstOlder)
  have rootRest : root ∈ rest := by
    rcases mem_cons.mp rootOpen with rfl | inRest
    · exact absurd rootLess (lt_irrefl _)
    · exact inRest
  refine { finishing.intact with
    openStacked := (sublist_cons_self _ _).trans finishing.intact.openStacked
    rooted := ?_
    children := finishing.children }
  intro other mem
  obtain ⟨otherRoot, otherOpen, otherSame, otherBound⟩ := finishing.intact.rooted other mem
  rcases mem_cons.mp otherOpen with rfl | inRest
  · exact ⟨root, rootRest, otherSame.trans (same.trans rootSame),
      le_of_lt (rootLess.trans_le otherBound)⟩
  · exact ⟨otherRoot, inRest, otherSame, otherBound⟩

theorem spoiled_of_older {first : INode} (firstOlder : first ∈ older)
    (same : graph.SameComponent node first)
    (low : lowOf state node = order.number node)
    (pops : popped state (order.number node) ≠ []) :
    Spoiled graph rest order (state.popComponent (order.number node)) := by
  have visited := finishing.recorded.stacked node finishing.node_mem_stack
  constructor
  · obtain ⟨other, inside⟩ := exists_mem_of_ne_nil _ pops
    have above := finishing.mem_top_of_mem_popped inside
    obtain ⟨target, targetMem, otherLow, linked⟩ := finishing.intact.lowSound other
        (finishing.mem_stack_iff.mpr (.inl above))
    have atNode : target = node := DfsOrder.number_inj (finishing.recorded.stacked target targetMem)
        (otherLow.symm.trans (low_of_mem_popped inside))
    have back : graph.Reachable other node := Linked.reachable finishing.recorded (atNode ▸ linked)
    exact .inl ⟨_, mem_components_popComponent.mpr (.inr ⟨rfl, pops⟩), other, inside, first,
      .trans ⟨back, finishing.reachable_of_mem_top above⟩ same,
      fun popped => finishing.not_mem_older (finishing.mem_top_of_mem_popped popped) firstOlder⟩
  · obtain ⟨root, isFirst⟩ := exists_firstOf visited
    obtain ⟨rootMem, rootSame, least⟩ := isFirst
    refine ⟨node, visited, finishing.not_mem_rest (by simp), root,
      ⟨rootMem, rootSame, least⟩, fun linked => ?_⟩
    have rootLess : order.number root < order.number node :=
      (least first (finishing.recorded.stacked first
        (finishing.mem_stack_iff.mpr (.inr firstOlder))) same).trans_lt
          (finishing.number_lt_of_mem_older firstOlder)
    have rootStacked : root ∈ state.stack := by
      by_contra off
      exact (finishing.intact.closed_reachable rootMem off rootSame.2).2 finishing.node_mem_stack
    have bound := finishing.intact.lowLeast node finishing.node_mem_stack root rootStacked linked
    omega

section Root

variable (root : ∀ other ∈ older, ¬ graph.SameComponent node other)

include root

variable {other : INode}

theorem sameComponent_of_mem_stack
    (mem : other ∈ state.stack) (reaches : graph.Reachable node other) :
    graph.SameComponent node other := by
  obtain ⟨opener, opened, same, _⟩ := finishing.intact.rooted other mem
  rcases mem_cons.mp opened with rfl | inRest
  · exact same.symm
  · -- a component with an older open node is the component of the node
    have openerOlder := finishing.openOlder.subset inRest
    have back : graph.Reachable opener node := finishing.intact.forward opener
        (finishing.mem_stack_iff.mpr (.inr openerOlder)) node
        finishing.node_mem_stack
        (le_of_lt (finishing.number_lt_of_mem_older openerOlder))
    exact (root opener openerOlder ⟨reaches.trans same.1, back⟩).elim

theorem joined_of_mem_top {other child : INode}
    (mem : other ∈ top ++ [node]) (joined : graph.Joined other child) :
    child ∈ top ++ [node] ∨ (child ∈ order.visited ∧ child ∉ state.stack) := by
  have stacked := finishing.mem_stack_iff.mpr (.inl mem)
  have visited : child ∈ order.visited :=
    finishing.children other (finishing.recorded.stacked other stacked)
      (finishing.not_mem_rest mem) child joined
  by_cases childStacked : child ∈ state.stack
  · rcases finishing.mem_stack_iff.mp childStacked with newer | old
    · exact .inl newer
    · exact (root child old (finishing.sameComponent_of_mem_stack root
        childStacked ((finishing.reachable_of_mem_top mem).tail joined))).elim
  · exact .inr ⟨visited, childStacked⟩

theorem reachable_cases (reaches : graph.Reachable node other) :
    other ∈ top ++ [node] ∨ (other ∈ order.visited ∧ other ∉ state.stack) := by
  induction reaches with
  | refl => exact .inl (by simp)
  | tail _ joined ih =>
    rcases ih with above | ⟨mem, off⟩
    · exact finishing.joined_of_mem_top root above joined
    · exact .inr (finishing.intact.closed_reachable mem off (.single joined))

theorem mem_top_iff : other ∈ top ++ [node] ↔ graph.SameComponent node other := by
  constructor
  · intro mem
    exact finishing.sameComponent_of_mem_stack root (finishing.mem_stack_iff.mpr (.inl mem))
      (finishing.reachable_of_mem_top mem)
  · rintro ⟨reaches, back⟩
    rcases finishing.reachable_cases root reaches with above | ⟨mem, off⟩
    · exact above
    · exact ((finishing.intact.closed_reachable mem off back).2 finishing.node_mem_stack).elim

theorem firstOf_of_mem_top (mem : other ∈ top ++ [node]) : FirstOf graph order other node := by
  have same := (finishing.mem_top_iff root).mp mem
  refine ⟨finishing.recorded.stacked node finishing.node_mem_stack, same.symm,
    fun third _ thirdSame => ?_⟩
  exact finishing.number_le_of_mem_top ((finishing.mem_top_iff root).mpr (same.trans thirdSame))

theorem number_le_low (mem : other ∈ top ++ [node]) : order.number node ≤ lowOf state other := by
  obtain ⟨target, targetMem, low, linked⟩ := finishing.intact.lowSound other
      (finishing.mem_stack_iff.mpr (.inl mem))
  have reaches : graph.Reachable node target := (finishing.reachable_of_mem_top mem).trans
      (Linked.reachable finishing.recorded linked)
  rw [low]
  rcases finishing.reachable_cases root reaches with above | ⟨_, off⟩
  · exact finishing.number_le_of_mem_top above
  · exact (off targetMem).elim

theorem linked_iff_low (mem : other ∈ top ++ [node]) :
    Linked order other node ↔ lowOf state other = order.number node := by
  have stacked := finishing.mem_stack_iff.mpr (.inl mem)
  constructor
  · intro linked
    exact le_antisymm (finishing.intact.lowLeast other stacked node finishing.node_mem_stack
        linked) (finishing.number_le_low root mem)
  · intro low
    obtain ⟨target, targetMem, targetLow, linked⟩ := finishing.intact.lowSound other stacked
    have atNode : target = node := DfsOrder.number_inj (finishing.recorded.stacked target targetMem)
        (targetLow.symm.trans low)
    exact atNode ▸ linked

theorem low_node : order.number node = lowOf state node :=
  ((finishing.linked_iff_low root (by simp)).mp (.nil _ _)).symm

theorem popComponent_whole
    (arrived : ∀ other ∈ top ++ [node], lowOf state other = order.number node) :
    (state.popComponent (order.number node)).stack = older ∧ (state.popComponent
        (order.number node)).stronglyConnectedComponents =
          state.stronglyConnectedComponents ++ [top ++ [node]] := by
  have accepted : ∀ other ∈ top ++ [node],
      decide (state.lowLinkValues.get? other = some (order.number node)) =
        true := by
    intro other mem
    rw [decide_eq_true_eq, ← arrived other mem]
    exact (finishing.recorded.low other (finishing.recorded.stacked other
      (finishing.mem_stack_iff.mpr (.inl mem)))).1
  have refused : ∀ other ∈ older,
      ¬ decide (state.lowLinkValues.get? other = some (order.number node)) =
        true := by
    intro other mem found
    rw [decide_eq_true_eq] at found
    have less := finishing.low_lt_of_mem_older mem
    rw [lowOf, found] at less
    exact lt_irrefl _ less
  have nothing : older.takeWhile (fun next =>
      decide (state.lowLinkValues.get? next = some (order.number node))) = []
      := by
    cases older with
    | nil => rfl
    | cons first _ =>
      exact takeWhile_cons_of_neg (refused first mem_cons_self)
  have everything : older.dropWhile (fun next =>
      decide (state.lowLinkValues.get? next = some (order.number node))) =
        older := by
    cases older with
    | nil => rfl
    | cons first _ =>
      exact dropWhile_cons_of_neg (refused first mem_cons_self)
  have whole : popped state (order.number node) = top ++ [node] := by
    rw [popped, finishing.split, takeWhile_append_of_pos accepted, nothing, append_nil]
  constructor
  · change state.stack.dropWhile _ = older
    rw [finishing.split, dropWhile_append_of_pos accepted, everything]
  · change (if (popped state (order.number node)).isEmpty then _
      else _ ++ [popped state (order.number node)]) = _
    rw [whole, if_neg (by simp)]

theorem intact_of_arrived
    (arrived : ∀ other ∈ top ++ [node], lowOf state other = order.number node) :
    Intact graph rest order (state.popComponent (order.number node)) := by
  obtain ⟨left, returned⟩ := finishing.popComponent_whole root arrived
  have stackedOld : ∀ other ∈ older, other ∈ state.stack :=
    fun other mem => finishing.mem_stack_iff.mpr (.inr mem)
  have offStack : ∀ other, other ∉ state.stack → other ∉ older :=
    fun other off mem => off (stackedOld other mem)
  have sublist : older.Sublist state.stack := by
    rw [finishing.split]
    exact sublist_append_right _ _
  have split : ∀ other ∈ order.visited, other ∉ older →
      other ∈ top ++ [node] ∨ other ∉ state.stack := by
    intro other _ off
    by_cases stacked : other ∈ state.stack
    · exact .inl ((finishing.mem_stack_iff.mp stacked).resolve_right off)
    · exact .inr stacked
  constructor
  · rw [left]
    exact finishing.intact.stackOrder.sublist sublist
  · rw [left]
    exact finishing.openOlder
  · rw [left]
    intro other mem
    obtain ⟨opener, opened, same, bound⟩ := finishing.intact.rooted other (stackedOld other mem)
    rcases mem_cons.mp opened with rfl | inRest
    · exact (root other mem same.symm).elim
    · exact ⟨opener, inRest, same, bound⟩
  · rw [left]
    exact fun first firstMem second secondMem =>
      finishing.intact.forward first (stackedOld first firstMem) second
        (stackedOld second secondMem)
  · exact finishing.children
  · rw [left]
    intro other mem off child joined
    rcases split other mem off with above | offAll
    · rcases finishing.joined_of_mem_top root above joined with newer | ⟨_, childOff⟩
      · exact finishing.not_mem_older newer
      · exact offStack child childOff
    · exact offStack child (finishing.intact.closed other mem offAll child joined)
  · intro other
    rw [left, returned]
    simp only [mem_append (s := state.stronglyConnectedComponents),
      mem_singleton, or_and_right, exists_or, exists_eq_left]
    rw [finishing.intact.returned]
    constructor
    · rintro (⟨mem, off⟩ | above)
      · exact ⟨mem, offStack other off⟩
      · exact ⟨finishing.recorded.stacked other (finishing.mem_stack_iff.mpr (.inl above)),
          finishing.not_mem_older above⟩
    · rintro ⟨mem, off⟩
      exact (split other mem off).symm.imp_left fun offAll =>
        ⟨mem, offAll⟩
  · rw [returned]
    intro scc mem first firstMem second
    rcases mem_append.mp mem with old | new
    · exact finishing.intact.components scc old first firstMem second
    · obtain rfl := mem_singleton.mp new
      have firstSame := (finishing.mem_top_iff root).mp firstMem
      rw [finishing.mem_top_iff root]
      exact ⟨fun same => firstSame.symm.trans same, fun same => firstSame.trans same⟩
  · rw [returned, pairwise_append]
    refine ⟨finishing.intact.disjoint, pairwise_singleton _ _, ?_⟩
    intro scc old component new other inside above
    obtain rfl := mem_singleton.mp new
    exact ((finishing.intact.returned other).mp ⟨scc, old, inside⟩).2
      (finishing.mem_stack_iff.mpr (.inl above))
  · rw [returned, mem_append, mem_singleton, not_or]
    exact ⟨finishing.intact.nonempty, by simp⟩
  · rw [left]
    intro other mem
    obtain ⟨target, targetMem, low, linked⟩ :=
      finishing.intact.lowSound other (stackedOld other mem)
    refine ⟨target, ?_, low, linked⟩
    rcases finishing.mem_stack_iff.mp targetMem with newer | old
    · have bound := finishing.number_le_of_mem_top newer
      have less := finishing.low_lt_of_mem_older mem
      omega
    · exact old
  · rw [left]
    exact fun first firstMem second secondMem =>
      finishing.intact.lowLeast first (stackedOld first firstMem) second
        (stackedOld second secondMem)
  · rw [left]
    intro other mem off first isFirst
    rcases split other mem off with above | offAll
    · have sameFirst : first = node := by
        refine DfsOrder.number_inj isFirst.1 (le_antisymm ?_ ?_)
        · exact isFirst.2.2 node (finishing.recorded.stacked node finishing.node_mem_stack)
            ((finishing.mem_top_iff root).mp above).symm
        · exact (finishing.firstOf_of_mem_top root above).2.2 first isFirst.1 isFirst.2.1
      rw [sameFirst]
      exact (finishing.linked_iff_low root above).mpr (arrived other above)
    · exact finishing.intact.linked other mem offAll first isFirst

theorem spoiled_of_not_arrived (mem : other ∈ top ++ [node])
    (missing : lowOf state other ≠ order.number node) :
    Spoiled graph rest order (state.popComponent (order.number node)) := by
  have stacked := finishing.mem_stack_iff.mpr (.inl mem)
  have visited := finishing.recorded.stacked other stacked
  have unpopped : other ∉ popped state (order.number node) := fun inside =>
    missing (low_of_mem_popped inside)
  constructor
  · by_cases pops : popped state (order.number node) = []
    · refine .inr ⟨other, visited, finishing.not_mem_rest mem, ?_, ?_⟩
      · intro scc returned inside
        rcases mem_components_popComponent.mp returned with old | ⟨rfl, _⟩
        · exact ((finishing.intact.returned other).mp ⟨scc, old, inside⟩).2 stacked
        · exact unpopped inside
      · intro opener opened
        have less := finishing.number_lt_of_mem_older (finishing.openOlder.subset opened)
        have bound := finishing.number_le_low root mem
        rw [lowOf_popComponent]
        omega
    · obtain ⟨first, inside⟩ := exists_mem_of_ne_nil _ pops
      have firstSame := (finishing.mem_top_iff root).mp (finishing.mem_top_of_mem_popped inside)
      exact .inl ⟨_, mem_components_popComponent.mpr (.inr ⟨rfl, pops⟩), first, inside, other,
        firstSame.symm.trans ((finishing.mem_top_iff root).mp mem),
        unpopped⟩
  · refine ⟨other, visited, finishing.not_mem_rest mem, node,
      finishing.firstOf_of_mem_top root mem, fun linked => ?_⟩
    exact missing ((finishing.linked_iff_low root mem).mp linked)

end Root

end Finishing

theorem popComponent_of_nil {ownId : Nat} (empty : popped state ownId = []) :
    state.popComponent ownId = state := by
  have whole : popped state ownId ++ (state.popComponent ownId).stack =
      state.stack := takeWhile_append_dropWhile
  rw [empty, nil_append] at whole
  have same : (state.popComponent ownId).stronglyConnectedComponents =
      state.stronglyConnectedComponents := by
    change (if (popped state ownId).isEmpty then _ else _) = _
    rw [empty]
    rfl
  rw [popComponent] at whole same ⊢
  simp only at whole same
  rw [whole, same]

theorem Outcome.finish (outcome : Outcome graph (node :: rest) order state)
    (childrenVisited : ∀ child, graph.Joined node child → child ∈ order.visited) :
    ∃ next, state.finish node = .ok next ∧ Outcome graph rest order next := by
  obtain ⟨recorded, result⟩ := outcome
  refine ⟨_, finish_eq_ok recorded (recorded.opened node mem_cons_self), ?_, ?_⟩
  · split
    · exact recorded.close.popComponent _
    · exact recorded.close
  rcases result with intact | spoiled
  · obtain ⟨top, older, finishing⟩ := exists_finishing recorded intact childrenVisited
    by_cases root : ∀ other ∈ older, ¬ graph.SameComponent node other
    · rw [if_pos (finishing.low_node root)]
      by_cases arrived : ∀ other ∈ top ++ [node], lowOf state other = order.number node
      · exact .inl (finishing.intact_of_arrived root arrived)
      · simp only [not_forall] at arrived
        obtain ⟨other, mem, missing⟩ := arrived
        exact .inr (finishing.spoiled_of_not_arrived root mem missing)
    · simp only [not_forall, not_not] at root
      obtain ⟨first, firstOlder, same⟩ := root
      split
      next low =>
        by_cases pops : popped state (order.number node) = []
        · rw [popComponent_of_nil pops]
          exact .inl (finishing.close firstOlder same)
        · exact .inr (finishing.spoiled_of_older firstOlder same low.symm pops)
      · exact .inl (finishing.close firstOlder same)
  · right
    split
    · exact (spoiled.popComponent mem_cons_self).close
    · exact spoiled.close

end DirectedGraph

end N8n
