import N8n.Library.VertexElimination
import N8n.PartialExecution.DirectedGraph

/-!
# Bypassing disabled nodes

`filterDisabledNodes` removes the disabled nodes one at a time and reconnects
their Main connections.  On sets of connections this is vertex elimination;
the connection map follows it as long as no two different connections that
are there at the same time have one key.
-/

namespace N8n

open GraphConnection List Relation

/-- Non-Main connections of disabled nodes are not reconnected. -/
def skipConnectionFn (connection : GraphConnection) : Bool :=
  connection.type ≠ .main

def removeIfDisabled (filteredGraph : DirectedGraph) (node : INode) :
    Except ExecutionError DirectedGraph := do
  if node.IsDisabled then
    let (filteredGraph, _) ← filteredGraph.removeNodeReconnecting node skipConnectionFn
    return filteredGraph
  else return filteredGraph

def filterDisabledNodes (graph : DirectedGraph) : Except ExecutionError DirectedGraph := do
  let filteredGraph ← graph.clone
  filteredGraph.getNodes.foldlM removeIfDisabled filteredGraph

namespace DirectedGraph

section

variable (graph : DirectedGraph)

def disabledNodes : List INode :=
  graph.getNodes.filter fun node => node.IsDisabled

def connectionSet : Set GraphConnection :=
  {connection | connection ∈ graph.getConnections}

/-- Main connections which meet at a node are joined by `bridge`. -/
def bridging : EdgeJoin INode GraphConnection :=
  { source := fromNode
    target := toNode
    through := GraphConnection.IsMain
    join := bridge
    source_join := fun _ _ => rfl
    target_join := fun _ _ => rfl
    through_join := fun first _ => first
    join_join_left := fun _ _ _ => rfl
    join_join_right := fun _ _ _ => rfl }

/-- While the disabled nodes are removed, connections which are there at the
same time have different keys. -/
def KeysDistinct : Prop :=
  ∀ removed, removed <+: graph.disabledNodes → Set.InjOn makeKey
      (bridging.eliminateAll graph.connectionSet removed)

end

theorem keysDistinct_of_injOn_via {graph : DirectedGraph} (distinct : Set.InjOn makeKey
      {connection | bridging.Via graph.connectionSet
        {node | node ∈ graph.disabledNodes} connection}) :
    graph.KeysDistinct := by
  intro removed isPrefix
  apply distinct.mono
  intro connection mem
  exact (EdgeJoin.via_of_mem_eliminateAll mem).mono
    fun node removedMem => isPrefix.subset removedMem

section Removal

variable {graph : DirectedGraph} {node : INode}

theorem mem_newConnections_iff {connection : GraphConnection} :
    connection ∈ newConnections skipConnectionFn (graph.getConnections.filter (·.toNode = node))
        (graph.getConnections.filter (·.fromNode = node)) ↔
      bridging.Meet graph.connectionSet node connection := by
  simp only [newConnections, mem_flatMap, mem_filter, mem_map,
    skipConnectionFn, decide_eq_true_eq, Bool.not_eq_eq_eq_not,
    Bool.not_true, decide_eq_false_iff_not, not_not]
  constructor
  · rintro ⟨first, ⟨⟨firstMem, enters⟩, firstMain⟩, second, ⟨⟨secondMem, leaves⟩, secondMain⟩, rfl⟩
    exact ⟨first, firstMem, second, secondMem, firstMain, secondMain, enters, leaves, rfl⟩
  · rintro ⟨first, firstMem, second, secondMem, firstMain, secondMain, enters, leaves, rfl⟩
    exact ⟨first, ⟨⟨firstMem, enters⟩, firstMain⟩, second, ⟨⟨secondMem, leaves⟩, secondMain⟩, rfl⟩

theorem removeNodeReconnecting_eq_ok (mem : node ∈ graph.getNodes)
    (distinct : Set.InjOn makeKey (bridging.eliminate graph.connectionSet node)) :
    ∃ result added, graph.removeNodeReconnecting node skipConnectionFn = .ok (result, added) ∧
      (∀ other, other ∈ result.getNodes ↔ other ∈ graph.getNodes ∧ other ≠ node) ∧
      result.connectionSet = bridging.eliminate graph.connectionSet node := by
  rw [removeNodeReconnecting, getDirectParentConnections_of_mem mem,
    getDirectChildConnections_of_mem mem]
  refine ⟨_, _, rfl, ?_, ?_⟩
  · intro other
    have kept : ∀ connections : List GraphConnection, (connections.foldl setConnection
          (graph.deleteConnectionsOf node)).getNodes = graph.getNodes := by
      intro connections
      rw [getNodes, nodes_foldl_setConnection]
      rfl
    rw [mem_getNodes_deleteNode (by rw [kept]; exact mem), kept]
  · have contained : ∀ connection, connection ∈ (graph.deleteConnectionsOf node).getConnections ∨
          connection ∈ newConnections skipConnectionFn
            (graph.getConnections.filter (·.toNode = node))
            (graph.getConnections.filter (·.fromNode = node)) ↔
        connection ∈ bridging.eliminate graph.connectionSet node := by
      intro connection
      rw [mem_newConnections_iff, mem_getConnections_deleteConnectionsOf]
      exact or_congr_left (and_congr_right fun _ => and_comm)
    ext connection
    rw [← contained]
    apply mem_getConnections_foldl_setConnection
    exact distinct.mono fun other => (contained other).mp

theorem foldlM_removeIfDisabled_eq_ok {nodes : List INode}
    (members : ∀ node ∈ nodes, node ∈ graph.getNodes) (nodup : nodes.Nodup)
    (distinct : ∀ removed, removed <+: nodes.filter (·.IsDisabled) → Set.InjOn makeKey
        (bridging.eliminateAll graph.connectionSet removed)) :
    ∃ result, nodes.foldlM removeIfDisabled graph = .ok result ∧ (∀ node, node ∈ result.getNodes ↔
        node ∈ graph.getNodes ∧ node ∉ nodes.filter (·.IsDisabled)) ∧
      result.connectionSet = bridging.eliminateAll graph.connectionSet
          (nodes.filter (·.IsDisabled)) := by
  induction nodes generalizing graph with
  | nil => exact ⟨graph, rfl, by simp, rfl⟩
  | cons node nodes ih =>
    obtain ⟨absent, restNodup⟩ := nodup_cons.mp nodup
    by_cases disabled : node.IsDisabled
    · have filtered : (node :: nodes).filter (·.IsDisabled) = node :: nodes.filter (·.IsDisabled) :=
        filter_cons_of_pos (decide_eq_true disabled)
      rw [filtered] at distinct ⊢
      obtain ⟨next, added, removal, nodesLeft, connectionsLeft⟩ :=
        removeNodeReconnecting_eq_ok (members node (by simp)) (distinct [node] (by simp))
      obtain ⟨result, ok, resultNodes, resultConnections⟩ := @ih next
          (fun other mem => (nodesLeft other).mpr ⟨members other (by simp [mem]), fun same =>
              absent (same ▸ mem)⟩)
          restNodup
          (fun removed isPrefix => by
            rw [connectionsLeft]
            exact distinct (node :: removed) (cons_prefix_cons.mpr ⟨rfl, isPrefix⟩))
      refine ⟨result, ?_, ?_, ?_⟩
      · rw [foldlM_cons, removeIfDisabled, if_pos disabled, removal]
        exact ok
      · intro other
        rw [resultNodes, nodesLeft, mem_cons, not_or, and_assoc]
      · rw [resultConnections, connectionsLeft]
        rfl
    · have filtered : (node :: nodes).filter (·.IsDisabled) = nodes.filter (·.IsDisabled) :=
        filter_cons_of_neg (by simpa using disabled)
      rw [filtered] at distinct ⊢
      obtain ⟨result, ok, rest⟩ :=
        ih (fun other mem => members other (by simp [mem])) restNodup distinct
      refine ⟨result, ?_, rest⟩
      rw [foldlM_cons, removeIfDisabled, if_neg disabled]
      exact ok

end Removal

theorem filterDisabledNodes_eq_ok {graph : DirectedGraph}
    (wellFormed : graph.WellFormed) (distinct : graph.KeysDistinct) :
    ∃ filtered, filterDisabledNodes graph = .ok filtered ∧
      (∀ node, node ∈ filtered.getNodes ↔ node ∈ graph.getNodes ∧ ¬ node.IsDisabled) ∧
      filtered.connectionSet = bridging.eliminateAll graph.connectionSet graph.disabledNodes := by
  obtain ⟨filtered, ok, nodesLeft, connectionsLeft⟩ :=
    foldlM_removeIfDisabled_eq_ok (fun _ mem => mem) graph.getNodes_nodup distinct
  refine ⟨filtered, ?_, ?_, connectionsLeft⟩
  · rw [filterDisabledNodes, clone_eq_ok wellFormed]
    exact ok
  · intro node
    rw [nodesLeft, mem_filter, decide_eq_true_eq, not_and]
    exact and_congr_right fun mem => ⟨fun absent => absent mem, fun enabled _ => enabled⟩

section Paths

variable (graph : DirectedGraph)

def ContinuesAt (first second : GraphConnection) : Prop :=
  second ∈ graph.getConnections ∧ second.IsMain ∧
    first.toNode = second.fromNode ∧ first.toNode.IsDisabled

/-- A path of Main connections with only disabled nodes in between, given by
its first and its last connection. -/
def DisabledPath (first last : GraphConnection) : Prop :=
  first ∈ graph.getConnections ∧ first.IsMain ∧ ReflTransGen graph.ContinuesAt first last

/-- A path over disabled nodes leaves the start of the connection at its
output and enters the end of the connection at its input. -/
def HasDisabledPath (connection : GraphConnection) : Prop :=
  ∃ first last, graph.DisabledPath first last ∧ first.fromNode = connection.fromNode ∧
    first.outputIndex = connection.outputIndex ∧
    last.toNode = connection.toNode ∧
    last.inputIndex = connection.inputIndex

/-- A Main connection joins two disabled nodes. -/
def DisabledStep (node other : INode) : Prop :=
  node.IsDisabled ∧ other.IsDisabled ∧ ∃ connection ∈ graph.getConnections, connection.IsMain ∧
      connection.fromNode = node ∧ connection.toNode = other

/-- No disabled node lies on a cycle of disabled nodes. -/
def NoDisabledCycle : Prop :=
  ∀ node, ¬ TransGen graph.DisabledStep node node

/-- What bypassing disabled nodes should achieve. -/
structure BypassesDisabled (filtered : DirectedGraph) : Prop where
  nodes : ∀ node, node ∈ filtered.getNodes ↔ node ∈ graph.getNodes ∧ ¬ node.IsDisabled
  ends : filtered.WellFormed
  main : ∀ connection : GraphConnection, connection.IsMain →
    connection.fromNode ∈ filtered.getNodes →
    connection.toNode ∈ filtered.getNodes →
    (connection ∈ filtered.getConnections ↔ graph.HasDisabledPath connection)
  nonMain : ∀ connection : GraphConnection, ¬ connection.IsMain →
    connection.fromNode ∈ filtered.getNodes →
    connection.toNode ∈ filtered.getNodes →
    (connection ∈ filtered.getConnections ↔ connection ∈ graph.getConnections)

variable {graph}

variable {connection : GraphConnection}

theorem via_iff_hasDisabledPath (wellFormed : graph.WellFormed) (isMain : connection.IsMain) :
    bridging.Via graph.connectionSet {node | node ∈ graph.disabledNodes}
        connection ↔ graph.HasDisabledPath connection := by
  constructor
  · intro via
    induction via with
    | edge mem =>
      exact ⟨_, _, ⟨mem, isMain, .refl⟩, rfl, rfl, rfl, rfl⟩
    | @join first second _ _ firstMain secondMain meet middle firstPath secondPath =>
      obtain ⟨first, last, ⟨firstMem, main, firstReached⟩, fromEq,
        outputEq, toEq, _⟩ := firstPath firstMain
      obtain ⟨next, final, ⟨nextMem, nextMain, secondReached⟩, nextFrom,
        _, finalTo, finalInput⟩ := secondPath secondMain
      have disabled := (mem_filter.mp middle).2
      rw [decide_eq_true_eq] at disabled
      have continues : graph.ContinuesAt last next :=
        ⟨nextMem, nextMain, toEq.trans (meet.trans nextFrom.symm), by
          rw [toEq]
          exact disabled⟩
      exact ⟨first, final, ⟨firstMem, main,
        (firstReached.tail continues).trans secondReached⟩, fromEq,
        outputEq, finalTo, finalInput⟩
  · rintro ⟨first, last, ⟨firstMem, firstMain, reached⟩, fromEq, outputEq, toEq, inputEq⟩
    have ends : connection = bridge first last := by
      cases connection
      simp_all [bridge, GraphConnection.IsMain]
    rw [ends]
    clear ends toEq inputEq
    induction reached with
    | refl => exact .edge firstMem
    | @tail middle last _ continues ih =>
      obtain ⟨lastMem, lastMain, meet, disabled⟩ := continues
      have inner : middle.toNode ∈ graph.disabledNodes :=
        mem_filter.mpr ⟨meet ▸ wellFormed.fromMem last lastMem, decide_eq_true disabled⟩
      have joined : bridging.Via graph.connectionSet {node | node ∈ graph.disabledNodes}
          (bridging.join (bridge first middle) last) :=
        .join ih (.edge lastMem) firstMain lastMain meet inner
      exact joined

variable {inner : Set INode}

theorem ends_of_via (wellFormed : graph.WellFormed)
    (via : bridging.Via graph.connectionSet inner connection) :
    connection.fromNode ∈ graph.getNodes ∧ connection.toNode ∈ graph.getNodes := by
  induction via with
  | edge mem =>
    exact ⟨wellFormed.fromMem _ mem, wellFormed.toMem _ mem⟩
  | join _ _ _ _ _ _ firstEnds secondEnds =>
    exact ⟨firstEnds.1, secondEnds.2⟩

theorem via_iff_of_not_isMain (other : ¬ connection.IsMain) :
    bridging.Via graph.connectionSet inner connection ↔ connection ∈ graph.getConnections := by
  constructor
  · intro via
    cases via with
    | edge mem => exact mem
    | join _ _ firstMain _ _ _ => exact (other firstMain).elim
  · intro mem
    exact .edge mem

theorem transGen_disabledStep_iff {node other : INode}
    (nodeDisabled : node.IsDisabled) (otherDisabled : other.IsDisabled) :
    TransGen graph.DisabledStep node other ↔ ∃ first last, graph.DisabledPath first last ∧
        first.fromNode = node ∧ last.toNode = other := by
  constructor
  · intro cycle
    clear otherDisabled
    induction cycle with
    | single step =>
      obtain ⟨_, _, connection, mem, isMain, starts, ends⟩ := step
      exact ⟨connection, connection, ⟨mem, isMain, .refl⟩, starts, ends⟩
    | tail _ step ih =>
      obtain ⟨middleDisabled, _, connection, mem, isMain, starts, ends⟩ := step
      obtain ⟨first, last, ⟨firstMem, main, reached⟩, firstStarts, lastEnds⟩ := ih
      exact ⟨first, connection, ⟨firstMem, main, reached.tail
        ⟨mem, isMain, lastEnds.trans starts.symm, by
          rw [lastEnds]
          exact middleDisabled⟩⟩, firstStarts, ends⟩
  · rintro ⟨first, last, ⟨mem, isMain, reached⟩, rfl, rfl⟩
    induction reached with
    | refl =>
      exact .single ⟨nodeDisabled, otherDisabled, first, mem, isMain, rfl, rfl⟩
    | @tail middle last _ continues ih =>
      obtain ⟨lastMem, lastMain, meet, disabled⟩ := continues
      exact (ih disabled).tail ⟨disabled, otherDisabled, last, lastMem, lastMain, meet.symm, rfl⟩

theorem noInnerLoop_iff_noDisabledCycle (wellFormed : graph.WellFormed) :
    bridging.NoInnerLoop graph.connectionSet
        {node | node ∈ graph.disabledNodes} ↔ graph.NoDisabledCycle := by
  constructor
  · intro noLoop node cycle
    obtain ⟨_, ⟨disabled, _⟩, _⟩ := TransGen.head'_iff.mp cycle
    obtain ⟨first, last, path, starts, ends⟩ :=
      (transGen_disabledStep_iff disabled disabled).mp cycle
    have mem : node ∈ graph.disabledNodes :=
      mem_filter.mpr ⟨starts ▸ wellFormed.fromMem first path.1, decide_eq_true disabled⟩
    have isMain : (bridge first last).IsMain := path.2.1
    exact noLoop node mem (bridge first last) ((via_iff_hasDisabledPath wellFormed isMain).mpr
        ⟨first, last, path, rfl, rfl, rfl, rfl⟩)
      ⟨isMain, starts, ends⟩
  · rintro noCycle node mem connection via ⟨isMain, starts, ends⟩
    have disabled := (mem_filter.mp mem).2
    rw [decide_eq_true_eq] at disabled
    obtain ⟨first, last, path, fromEq, _, toEq, _⟩ :=
      (via_iff_hasDisabledPath wellFormed isMain).mp via
    exact noCycle node ((transGen_disabledStep_iff disabled disabled).mpr
      ⟨first, last, path, fromEq.trans starts, toEq.trans ends⟩)

theorem bypassesDisabled_of_noDisabledCycle {filtered : DirectedGraph}
    (wellFormed : graph.WellFormed) (noCycle : graph.NoDisabledCycle)
    (nodesLeft : ∀ node, node ∈ filtered.getNodes ↔ node ∈ graph.getNodes ∧ ¬ node.IsDisabled)
    (connectionsLeft : filtered.connectionSet =
      bridging.eliminateAll graph.connectionSet graph.disabledNodes) :
    graph.BypassesDisabled filtered := by
  have bypassed : filtered.connectionSet = bridging.bypass graph.connectionSet
        {node | node ∈ graph.disabledNodes} := by
    rw [connectionsLeft]
    exact EdgeJoin.eliminateAll_eq_bypass (graph.getNodes_nodup.filter _)
      ((noInnerLoop_iff_noDisabledCycle wellFormed).mpr noCycle)
  have left : ∀ connection, connection ∈ filtered.getConnections ↔
      bridging.Via graph.connectionSet {node | node ∈ graph.disabledNodes}
          connection ∧ connection.fromNode ∉ graph.disabledNodes ∧
        connection.toNode ∉ graph.disabledNodes := fun connection =>
    iff_of_eq (congrArg (connection ∈ ·) bypassed)
  have kept : ∀ node, node ∈ filtered.getNodes → node ∉ graph.disabledNodes := by
    intro node mem inDisabled
    exact ((nodesLeft node).mp mem).2 (of_decide_eq_true (mem_filter.mp inDisabled).2)
  have enabled : ∀ node, node ∈ graph.getNodes →
      node ∉ graph.disabledNodes → node ∈ filtered.getNodes := by
    intro node mem absent
    exact (nodesLeft node).mpr ⟨mem, fun disabled =>
      absent (mem_filter.mpr ⟨mem, decide_eq_true disabled⟩)⟩
  refine ⟨nodesLeft, ⟨?_, ?_⟩, ?_, ?_⟩
  · intro connection mem
    obtain ⟨via, fromOut, _⟩ := (left connection).mp mem
    exact enabled _ (ends_of_via wellFormed via).1 fromOut
  · intro connection mem
    obtain ⟨via, _, toOut⟩ := (left connection).mp mem
    exact enabled _ (ends_of_via wellFormed via).2 toOut
  · intro connection isMain fromMem toMem
    rw [left, via_iff_hasDisabledPath wellFormed isMain]
    exact and_iff_left ⟨kept _ fromMem, kept _ toMem⟩
  · intro connection other fromMem toMem
    rw [left, via_iff_of_not_isMain other]
    exact and_iff_left ⟨kept _ fromMem, kept _ toMem⟩

theorem exists_dangling_of_disabledCycle (wellFormed : graph.WellFormed)
    (cycle : ¬ graph.NoDisabledCycle) :
    ∃ connection ∈ bridging.eliminateAll graph.connectionSet graph.disabledNodes,
      connection.fromNode ∈ graph.disabledNodes := by
  rw [← noInnerLoop_iff_noDisabledCycle wellFormed] at cycle
  obtain ⟨node, mem, connection, left, _, starts, _⟩ :=
    EdgeJoin.exists_loop_mem_eliminateAll (graph.getNodes_nodup.filter _) cycle
  refine ⟨connection, left, ?_⟩
  rw [← starts] at mem
  exact mem

/-- Without key clashes, disabled nodes are bypassed exactly when the
connections join nodes of the graph and no cycle consists of disabled
nodes. -/
theorem filterDisabledNodes_bypasses_iff (distinct : graph.KeysDistinct) :
    (∃ filtered, filterDisabledNodes graph = .ok filtered ∧ graph.BypassesDisabled filtered) ↔
      graph.WellFormed ∧ graph.NoDisabledCycle := by
  constructor
  · rintro ⟨filtered, success, bypasses⟩
    have wellFormed : graph.WellFormed := by
      cases cloned : graph.clone with
      | error error =>
        rw [filterDisabledNodes, cloned] at success
        cases success
      | ok result => exact wellFormed_of_clone_eq_ok cloned
    refine ⟨wellFormed, ?_⟩
    by_contra cycle
    obtain ⟨computed, computedSuccess, _, connectionsLeft⟩ :=
      filterDisabledNodes_eq_ok wellFormed distinct
    obtain rfl : computed = filtered := Except.ok.inj (computedSuccess.symm.trans success)
    obtain ⟨connection, left, disabled⟩ := exists_dangling_of_disabledCycle wellFormed cycle
    rw [← connectionsLeft] at left
    have mem := bypasses.ends.fromMem connection left
    exact ((bypasses.nodes _).mp mem).2 (of_decide_eq_true (mem_filter.mp disabled).2)
  · rintro ⟨wellFormed, noCycle⟩
    obtain ⟨filtered, success, nodesLeft, connectionsLeft⟩ :=
      filterDisabledNodes_eq_ok wellFormed distinct
    exact ⟨filtered, success, bypassesDisabled_of_noDisabledCycle wellFormed
      noCycle nodesLeft connectionsLeft⟩

end Paths

section DisabledLoop

def firstNode : INode := { name := "first" }

def disabledNode : INode := { name := "disabled", disabled := some true }

def lastNode : INode := { name := "last" }

def disabledBetween : DirectedGraph :=
  [{ fromNode := firstNode
     toNode := disabledNode },
    { fromNode := disabledNode
      toNode := lastNode : GraphConnection }].foldl setConnection
    (DirectedGraph.empty.addNodes [firstNode, disabledNode, lastNode])

def disabledLoop : DirectedGraph :=
  disabledBetween.setConnection
    { fromNode := disabledNode
      toNode := disabledNode }

def disabledBetweenJoins : List GraphConnection :=
  { fromNode := firstNode
    toNode := lastNode } :: disabledBetween.getConnections

theorem via_disabledBetween {connection : GraphConnection}
    (via : bridging.Via disabledBetween.connectionSet
      {node | node ∈ disabledBetween.disabledNodes} connection) :
    connection ∈ disabledBetweenJoins := by
  have closed : ∀ first ∈ disabledBetweenJoins,
      ∀ second ∈ disabledBetweenJoins, first.toNode = second.fromNode →
        bridge first second ∈ disabledBetweenJoins := by
    decide
  induction via with
  | edge mem => exact mem_cons_of_mem _ mem
  | join _ _ _ _ meet _ first second => exact closed _ first _ second meet

theorem disabledBetween_keysDistinct : disabledBetween.KeysDistinct := by
  have distinct : ∀ left ∈ disabledBetweenJoins,
      ∀ right ∈ disabledBetweenJoins, left.makeKey = right.makeKey → left = right := by
    decide
  exact keysDistinct_of_injOn_via fun left leftVia right rightVia same =>
    distinct left (via_disabledBetween leftVia) right (via_disabledBetween rightVia) same

theorem disabledBetween_noDisabledCycle : disabledBetween.NoDisabledCycle := by
  have noStep : ∀ connection ∈ disabledBetween.getConnections,
      ¬ (connection.fromNode.IsDisabled ∧ connection.toNode.IsDisabled) := by
    decide
  intro node cycle
  obtain ⟨_, ⟨starts, ends, connection, mem, _, rfl, rfl⟩, _⟩ := TransGen.head'_iff.mp cycle
  exact noStep connection mem ⟨starts, ends⟩

theorem filterDisabledNodes_bypasses_disabledBetween :
    ∃ filtered, filterDisabledNodes disabledBetween = .ok filtered ∧
      disabledBetween.BypassesDisabled filtered :=
  (filterDisabledNodes_bypasses_iff disabledBetween_keysDistinct).mpr
    ⟨⟨by decide, by decide⟩, disabledBetween_noDisabledCycle⟩

/-- The self loop leaves connections of the removed node behind. -/
theorem filterDisabledNodes_disabledLoop : disabledLoop.WellFormed ∧
      ¬ ∃ filtered, filterDisabledNodes disabledLoop = .ok filtered ∧
        disabledLoop.BypassesDisabled filtered := by
  refine ⟨⟨by decide, by decide⟩, ?_⟩
  rintro ⟨filtered, success, bypasses⟩
  have dangling : ∀ result, filterDisabledNodes disabledLoop = .ok result →
      ∃ connection ∈ result.getConnections, connection.fromNode ∉ result.getNodes := by
    intro result computed
    have evaluated : ∃ connection ∈
        ((filterDisabledNodes disabledLoop).toOption.map getConnections).getD
          [], connection.fromNode ∉
        ((filterDisabledNodes disabledLoop).toOption.map getNodes).getD [] := by
      decide
    rw [computed] at evaluated
    exact evaluated
  obtain ⟨connection, mem, absent⟩ := dangling filtered success
  exact absent (bypasses.ends.fromMem connection mem)

end DisabledLoop

end DirectedGraph

end N8n
