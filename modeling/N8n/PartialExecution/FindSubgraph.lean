import N8n.PartialExecution.GraphGrowth

/-!
# The subgraph between trigger and destination

`findSubgraph` walks backwards from the destination over Main connections
and keeps a branch when it reaches the trigger or a node it visited before,
which need not be fed by the trigger.  Non-Main connections are added again
for every node that was kept.
-/

namespace N8n

open List

/-- Add the connections of a branch with their ends. -/
def keepBranch (newGraph : DirectedGraph) (currentBranch : List GraphConnection) :
    Except ExecutionError DirectedGraph :=
  currentBranch.foldlM (fun newGraph connection =>
      (newGraph.addNodes [connection.fromNode, connection.toNode]).addConnection connection)
    newGraph

/-- Each level of the recursion visits another node of the branch, so fuel
above the number of nodes is never used up. -/
def findSubgraphRecursive (graph : DirectedGraph) (destinationNode trigger : INode) :
    Nat → INode → DirectedGraph → List GraphConnection → Except ExecutionError DirectedGraph
  | 0, _, newGraph, _ => .ok newGraph
  | fuel + 1, current, newGraph, currentBranch =>
    -- the current node is the chosen trigger: keep this branch
    if current = trigger then
      keepBranch (newGraph.addNode trigger) currentBranch
    else do
      let parentConnections ← graph.getDirectParentConnections current
      if parentConnections.isEmpty then
        return newGraph
      -- the destination node again: don't keep this branch
      else if current = destinationNode ∧ currentBranch.any (·.toNode = destinationNode) then
        return newGraph
      -- already visited: keep this branch
      else if currentBranch.any (·.toNode = current) then
        keepBranch newGraph currentBranch
      else
        parentConnections.foldlM (fun newGraph parentConnection =>
            if parentConnection.type ≠ .main then .ok newGraph
            else
              findSubgraphRecursive graph destinationNode trigger fuel
                parentConnection.fromNode newGraph
                (currentBranch ++ [parentConnection]))
          newGraph

/-- The loop body of the second pass of `findSubgraph`. -/
def addUtilityConnections (graph : DirectedGraph) (subgraph : DirectedGraph)
    (node : INode) : Except ExecutionError DirectedGraph := do
  let parentConnections ← graph.getParentConnections node
  parentConnections.foldlM (fun subgraph connection =>
      if connection.type = .main then .ok subgraph
      else
        (subgraph.addNodes [connection.fromNode, connection.toNode]).addConnection connection)
    subgraph

def findSubgraph (graph : DirectedGraph) (destination trigger : INode) :
    Except ExecutionError DirectedGraph := do
  let subgraph ← findSubgraphRecursive graph destination trigger
    (graph.nodes.size + 1) destination .empty []
  subgraph.getNodes.foldlM (addUtilityConnections graph) subgraph

namespace DirectedGraph

section Branches

variable (graph : DirectedGraph) (destination trigger : INode)

/-- Exploring a node with a branch keeps the branch `full`, which ends at the
node `last`. -/
inductive Keeps : INode → List GraphConnection → INode →
    List GraphConnection → Prop where
  | trigger (branch : List GraphConnection) : Keeps trigger branch trigger branch
  | visited {current : INode} {branch : List GraphConnection} :
      current ≠ trigger → current ≠ destination →
      current ∈ branch.map (·.toNode) →
      Keeps current branch current branch
  | step {current last : INode} {branch full : List GraphConnection}
      {connection : GraphConnection} :
      current ≠ trigger → current ∉ branch.map (·.toNode) →
      connection ∈ graph.getConnections → connection.IsMain →
      connection.toNode = current →
      Keeps connection.fromNode (branch ++ [connection]) last full →
      Keeps current branch last full

/-- The branches the recursion explores, with their current nodes. -/
inductive Branch : INode → List GraphConnection → Prop where
  | nil : Branch destination []
  | snoc {current : INode} {branch : List GraphConnection} {connection : GraphConnection} :
      Branch current branch → current ≠ trigger →
      current ∉ branch.map (·.toNode) →
      connection ∈ graph.getConnections → connection.IsMain →
      connection.toNode = current →
      Branch connection.fromNode (branch ++ [connection])

end Branches

section Recursion

variable {graph : DirectedGraph} {destination trigger : INode} {last : INode}
  {branch : List GraphConnection} {full : List GraphConnection}

theorem keeps_trigger_iff : Keeps graph destination trigger trigger branch last full ↔
      last = trigger ∧ full = branch := by
  constructor
  · intro keeps
    cases keeps with
    | trigger => exact ⟨rfl, rfl⟩
    | visited ne | step ne => exact (ne rfl).elim
  · rintro ⟨rfl, rfl⟩
    exact .trigger _

variable {current : INode}

theorem keeps_visited_iff (ne : current ≠ trigger) (visited : current ∈ branch.map (·.toNode)) :
    Keeps graph destination trigger current branch last full ↔
      current ≠ destination ∧ last = current ∧ full = branch := by
  constructor
  · intro keeps
    cases keeps with
    | trigger => exact (ne rfl).elim
    | visited _ notDestination _ => exact ⟨notDestination, rfl, rfl⟩
    | step _ fresh => exact (fresh visited).elim
  · rintro ⟨notDestination, rfl, rfl⟩
    exact .visited ne notDestination visited

theorem keeps_fresh_iff (ne : current ≠ trigger) (fresh : current ∉ branch.map (·.toNode)) :
    Keeps graph destination trigger current branch last full ↔
      ∃ connection ∈ graph.getConnections.filter (·.toNode = current),
        connection.IsMain ∧ Keeps graph destination trigger connection.fromNode
            (branch ++ [connection]) last full := by
  constructor
  · intro keeps
    cases keeps with
    | trigger => exact (ne rfl).elim
    | visited _ _ visited => exact (fresh visited).elim
    | step _ _ mem isMain ends keeps =>
      exact ⟨_, mem_filter.mpr ⟨mem, decide_eq_true ends⟩, isMain, keeps⟩
  · rintro ⟨connection, mem, isMain, keeps⟩
    obtain ⟨mem, ends⟩ := mem_filter.mp mem
    exact .step ne fresh mem isMain (of_decide_eq_true ends) keeps

def LeadsTo (graph : DirectedGraph) (destination : INode) (branch : List GraphConnection) : Prop :=
  ∀ connection ∈ branch, connection ∈ graph.getConnections ∧
    graph.Reachable connection.toNode destination

theorem grows_keepBranch (complete : graph.CompleteTo destination)
    (destinationMem : destination ∈ graph.getNodes)
    (leads : LeadsTo graph destination branch) :
    Grows graph (keepBranch · branch) (· ∈ branch) (fun node => ∃ connection ∈ branch,
        node = connection.fromNode ∨ node = connection.toNode) :=
  (Grows.foldlM fun connection mem => by
    obtain ⟨listed, reaches⟩ := leads connection mem
    exact grows_addEnds listed (complete connection listed reaches)
      (complete.mem destinationMem reaches)).congr
    (fun _ => rfl) (by simp) (fun _ => Iff.rfl)

/-- The number of nodes that a branch does not end at. -/
def unvisited (graph : DirectedGraph) (branch : List GraphConnection) : Nat :=
  Collect.missing graph.getNodes (branch.map (·.toNode))

theorem unvisited_snoc {connection : GraphConnection} (mem : connection.toNode ∈ graph.getNodes)
    (fresh : connection.toNode ∉ branch.map (·.toNode)) :
    unvisited graph (branch ++ [connection]) < unvisited graph branch := by
  rw [unvisited, map_append]
  exact Collect.missing_append mem fresh

section Equations

variable {fuel : Nat} {current : INode} {branch : List GraphConnection} {part : DirectedGraph}

theorem findSubgraphRecursive_trigger :
    findSubgraphRecursive graph destination trigger (fuel + 1) trigger part branch =
      keepBranch (part.addNode trigger) branch := by
  rw [findSubgraphRecursive, if_pos rfl]

theorem any_toNode_iff : branch.any (·.toNode = current) = true ↔
      current ∈ branch.map (·.toNode) := by
  rw [any_eq_true, mem_map]
  simp only [decide_eq_true_eq]

theorem findSubgraphRecursive_visited (ne : current ≠ trigger) (mem : current ∈ graph.getNodes)
    (members : ∀ connection ∈ branch, connection ∈ graph.getConnections)
    (visited : current ∈ branch.map (·.toNode)) :
    findSubgraphRecursive graph destination trigger (fuel + 1) current part branch =
      if current = destination then .ok part else keepBranch part branch := by
  obtain ⟨connection, inBranch, ends⟩ := mem_map.mp visited
  have nonempty : (graph.getConnections.filter (·.toNode = current)).isEmpty = false := by
    rw [isEmpty_eq_false_iff_exists_mem]
    exact ⟨connection, mem_filter.mpr ⟨members connection inBranch, decide_eq_true ends⟩⟩
  have seen := any_toNode_iff.mpr visited
  rw [findSubgraphRecursive, if_neg ne, getDirectParentConnections_of_mem mem]
  change (if _ then _ else _) = _
  rw [nonempty]
  by_cases isDestination : current = destination
  · subst isDestination
    simp [seen]
    rfl
  · simp [seen, isDestination]

theorem findSubgraphRecursive_fresh (ne : current ≠ trigger)
    (mem : current ∈ graph.getNodes) (fresh : current ∉ branch.map (·.toNode)) :
    findSubgraphRecursive graph destination trigger (fuel + 1) current part branch =
      (graph.getConnections.filter (·.toNode = current)).foldlM (fun newGraph parentConnection =>
          if parentConnection.type ≠ .main then .ok newGraph
          else
            findSubgraphRecursive graph destination trigger fuel parentConnection.fromNode newGraph
              (branch ++ [parentConnection]))
        part := by
  have unseen := mt any_toNode_iff.mp fresh
  have notDestination : ¬ (current = destination ∧ branch.any (·.toNode = destination) = true) := by
    rintro ⟨rfl, seen⟩
    exact unseen seen
  rw [findSubgraphRecursive, if_neg ne, getDirectParentConnections_of_mem mem]
  change (if _ then _ else _) = _
  split
  next empty =>
    rw [isEmpty_iff.mp empty]
    rfl
  · rfl

end Equations

theorem grows_findSubgraphRecursive (complete : graph.CompleteTo destination)
    (destinationMem : destination ∈ graph.getNodes) {fuel : Nat}
    (enough : unvisited graph branch < fuel)
    (reaches : graph.Reachable current destination)
    (leads : LeadsTo graph destination branch) :
    Grows graph (findSubgraphRecursive graph destination trigger fuel current · branch)
      (fun connection => ∃ last full,
        Keeps graph destination trigger current branch last full ∧ connection ∈ full)
      (fun node => ∃ last full, Keeps graph destination trigger current branch last full ∧
          (node = last ∨ ∃ connection ∈ full,
            node = connection.fromNode ∨ node = connection.toNode)) := by
  induction fuel generalizing current branch with
  | zero => exact (Nat.not_lt_zero _ enough).elim
  | succ fuel ih =>
    have currentMem := complete.mem destinationMem reaches
    have members : ∀ connection ∈ branch, connection ∈ graph.getConnections :=
      fun connection mem => (leads connection mem).1
    by_cases isTrigger : current = trigger
    · subst isTrigger
      refine ((grows_addNode currentMem).bind
        (grows_keepBranch complete destinationMem leads)).congr
          (fun _ => findSubgraphRecursive_trigger) ?_ ?_
      · simp [keeps_trigger_iff]
      · simp [keeps_trigger_iff]
    by_cases visited : current ∈ branch.map (·.toNode)
    · have keepsIff : ∀ last full, Keeps graph destination trigger current branch last full ↔
            current ≠ destination ∧ last = current ∧ full = branch :=
        fun _ _ => keeps_visited_iff isTrigger visited
      have equation : ∀ part, findSubgraphRecursive graph destination trigger
          (fuel + 1) current part branch = if current = destination then .ok part
            else keepBranch part branch := fun _ =>
        findSubgraphRecursive_visited isTrigger currentMem members visited
      by_cases isDestination : current = destination
      · refine Grows.pure.congr ?_ ?_ ?_
        · intro part
          rw [equation, if_pos isDestination]
        · simp only [keepsIff]
          simp [isDestination]
        · simp only [keepsIff]
          simp [isDestination]
      · refine (grows_keepBranch complete destinationMem leads).congr ?_ ?_ ?_
        · intro part
          rw [equation, if_neg isDestination]
        · simp [keepsIff, isDestination]
        · intro node
          simp only [keepsIff]
          constructor
          · intro kept
            exact ⟨current, branch, ⟨isDestination, rfl, rfl⟩, .inr kept⟩
          · rintro ⟨_, _, ⟨_, rfl, rfl⟩, rfl | kept⟩
            · obtain ⟨connection, inBranch, ends⟩ := mem_map.mp visited
              exact ⟨connection, inBranch, .inr ends.symm⟩
            · exact kept
    · have steps : ∀ connection ∈ graph.getConnections.filter (·.toNode = current),
          Grows graph (fun newGraph =>
              if connection.type ≠ .main then .ok newGraph
              else
                findSubgraphRecursive graph destination trigger fuel
                  connection.fromNode newGraph (branch ++ [connection]))
            (fun other => connection.IsMain ∧ ∃ last full,
              Keeps graph destination trigger connection.fromNode
                (branch ++ [connection]) last full ∧ other ∈ full)
            (fun node => connection.IsMain ∧ ∃ last full,
              Keeps graph destination trigger connection.fromNode
                (branch ++ [connection]) last full ∧
                (node = last ∨ ∃ other ∈ full, node = other.fromNode ∨ node = other.toNode)) := by
        intro connection listed
        obtain ⟨mem, ends⟩ := mem_filter.mp listed
        rw [decide_eq_true_eq] at ends
        subst ends
        by_cases isMain : connection.type = .main
        · have smaller := unvisited_snoc currentMem visited
          have enoughLeft := smaller.trans_le (Nat.le_of_lt_succ enough)
          have fromReaches : graph.Reachable connection.fromNode
              destination := .head ⟨connection, mem, rfl, rfl⟩ reaches
          refine (ih enoughLeft fromReaches ?_).congr ?_ ?_ ?_
          · intro other otherMem
            rcases mem_append.mp otherMem with inBranch | new
            · exact leads other inBranch
            · obtain rfl := mem_singleton.mp new
              exact ⟨mem, reaches⟩
          · intro part
            exact if_neg (not_not.mpr isMain)
          · exact fun _ => (and_iff_right isMain).symm
          · exact fun _ => (and_iff_right isMain).symm
        · refine Grows.pure.congr ?_ ?_ ?_
          · intro part
            exact if_pos isMain
          · exact fun _ => ⟨False.elim, fun kept => isMain kept.1⟩
          · exact fun _ => ⟨False.elim, fun kept => isMain kept.1⟩
      refine (Grows.foldlM steps).congr
        (fun _ => findSubgraphRecursive_fresh isTrigger currentMem visited) ?_ ?_
      all_goals
        intro kept
        simp only [keeps_fresh_iff isTrigger visited]
        constructor
        · rintro ⟨connection, listed, isMain, last, full, keeps, mem⟩
          exact ⟨last, full, ⟨connection, listed, isMain, keeps⟩, mem⟩
        · rintro ⟨last, full, ⟨connection, listed, isMain, keeps⟩, mem⟩
          exact ⟨connection, listed, isMain, last, full, keeps, mem⟩

end Recursion

section Walks

variable (graph : DirectedGraph) (destination trigger : INode)

section

variable (connection : GraphConnection)

/-- The connections of a walk that visits the trigger only first and the
destination only last. -/
def MayFollow : Prop :=
  connection ∈ graph.getConnections ∧ connection.IsMain ∧
    connection.toNode ≠ trigger ∧ connection.fromNode ≠ destination

def WalkStep (node other : INode) : Prop :=
  ∃ connection, MayFollow graph destination trigger connection ∧
    connection.fromNode = node ∧ connection.toNode = other

abbrev Walk : INode → INode → Prop :=
  Relation.ReflTransGen (WalkStep graph destination trigger)

def OnWalk : Prop :=
  MayFollow graph destination trigger connection ∧
    Walk graph destination trigger trigger connection.fromNode ∧
    Walk graph destination trigger connection.toNode destination

/-- The node lies on a walk from the trigger to the destination. -/
def VisitedByWalk (node : INode) : Prop :=
  Walk graph destination trigger trigger node ∧ Walk graph destination trigger node destination

/-- Walks reach the node from the trigger or from a cycle. -/
def Fed (node : INode) : Prop :=
  Walk graph destination trigger trigger node ∨
    ∃ start, Relation.TransGen (WalkStep graph destination trigger) start
      start ∧ Walk graph destination trigger start node

def Kept : Prop :=
  MayFollow graph destination trigger connection ∧
    Walk graph destination trigger connection.toNode destination ∧
    Fed graph destination trigger connection.fromNode

end

variable {graph destination trigger} {current last : INode} {branch full : List GraphConnection}

theorem Keeps.explored (explored : Branch graph destination trigger current branch)
    (keeps : Keeps graph destination trigger current branch last full) :
    Branch graph destination trigger last full ∧ (last = trigger ∨
        (last ≠ destination ∧ last ∈ full.map (·.toNode))) := by
  induction keeps with
  | trigger branch => exact ⟨explored, .inl rfl⟩
  | visited _ notDestination visited =>
    exact ⟨explored, .inr ⟨notDestination, visited⟩⟩
  | step ne fresh mem isMain ends _ ih =>
    exact ih (.snoc explored ne fresh mem isMain ends)

theorem Branch.keeps (explored : Branch graph destination trigger current branch)
    (keeps : Keeps graph destination trigger current branch last full) :
    Keeps graph destination trigger destination [] last full := by
  induction explored with
  | nil => exact keeps
  | snoc _ ne fresh mem isMain ends ih =>
    exact ih (.step ne fresh mem isMain ends keeps)

theorem Branch.destination_mem (explored : Branch graph destination trigger current branch) :
    (branch = [] ∧ current = destination) ∨ destination ∈ branch.map (·.toNode) := by
  induction explored with
  | nil => exact .inl ⟨rfl, rfl⟩
  | snoc _ _ _ _ _ ends ih =>
    rcases ih with ⟨rfl, atDestination⟩ | visited
    · exact .inr (by simp [ends, atDestination])
    · exact .inr (by simp only [map_append, mem_append, visited, true_or])

theorem Branch.ne_trigger (explored : Branch graph destination trigger current branch) :
    branch = [] ∨ destination ≠ trigger := by
  induction explored with
  | nil => exact .inl rfl
  | snoc earlier ne _ _ _ _ ih =>
    rcases ih with rfl | differ
    · rcases earlier.destination_mem with ⟨_, rfl⟩ | visited
      · exact .inr ne
      · exact (not_mem_nil visited).elim
    · exact .inr differ

theorem Branch.walk (explored : Branch graph destination trigger current branch)
    (away : branch = [] ∨ current ≠ destination) :
    Walk graph destination trigger current destination ∧
      ∀ connection ∈ branch, MayFollow graph destination trigger connection ∧
        Walk graph destination trigger connection.toNode destination ∧
        Walk graph destination trigger current connection.fromNode := by
  induction explored with
  | nil => exact ⟨.refl, by simp⟩
  | @snoc current branch connection earlier ne fresh mem isMain ends ih =>
    subst ends
    have earlierAway : branch = [] ∨ connection.toNode ≠ destination := by
      rcases earlier.destination_mem with ⟨empty, _⟩ | visited
      · exact .inl empty
      · exact .inr fun same => fresh (same ▸ visited)
    obtain ⟨toDestination, walks⟩ := ih earlierAway
    have follows : MayFollow graph destination trigger connection :=
      ⟨mem, isMain, ne, away.resolve_left (by simp)⟩
    have step : WalkStep graph destination trigger connection.fromNode
        connection.toNode := ⟨connection, follows, rfl, rfl⟩
    refine ⟨.head step toDestination, fun other listed => ?_⟩
    rcases mem_append.mp listed with old | new
    · obtain ⟨otherFollows, otherWalk, reached⟩ := walks other old
      exact ⟨otherFollows, otherWalk, .head step reached⟩
    · obtain rfl := mem_singleton.mp new
      exact ⟨follows, toDestination, .refl⟩

theorem kept_of_keeps (keeps : Keeps graph destination trigger destination [] last full) :
    Walk graph destination trigger last destination ∧
      ∀ connection ∈ full, Kept graph destination trigger connection := by
  obtain ⟨explored, ends⟩ := keeps.explored .nil
  have away : full = [] ∨ last ≠ destination := by
    rcases ends with rfl | ⟨notDestination, _⟩
    · exact explored.ne_trigger.imp_right Ne.symm
    · exact .inr notDestination
  obtain ⟨toDestination, walks⟩ := explored.walk away
  refine ⟨toDestination, fun connection mem => ?_⟩
  obtain ⟨follows, walk, reached⟩ := walks connection mem
  refine ⟨follows, walk, ?_⟩
  rcases ends with rfl | ⟨_, visited⟩
  · exact .inl reached
  · -- the last node was visited, so the branch closes a cycle there
    obtain ⟨entering, enteringMem, enters⟩ := mem_map.mp visited
    obtain ⟨enteringFollows, _, fromLast⟩ := walks entering enteringMem
    exact .inr ⟨last, Relation.TransGen.tail' fromLast
      ⟨entering, enteringFollows, rfl, enters⟩, reached⟩

theorem branch_of_path {left : List INode} {finish : INode}
    (path : VertexPath (WalkStep graph destination trigger) current left finish)
    (atDestination : finish = destination) (nodup : (left ++ [finish]).Nodup) :
    ∃ branch, Branch graph destination trigger current branch ∧
      ∀ node ∈ branch.map (·.toNode), node ∈ (left ++ [finish]).tail := by
  induction path with
  | nil => exact ⟨[], atDestination ▸ .nil, by simp⟩
  | @cons start next finish left step path ih =>
    obtain ⟨connection, follows, rfl, rfl⟩ := step
    obtain ⟨mem, isMain, ne, _⟩ := follows
    obtain ⟨branch, explored, visited⟩ := ih atDestination nodup.of_cons
    have fresh : connection.toNode ∉ branch.map (·.toNode) := by
      intro seen
      have rest : (left ++ [finish]).Nodup := nodup.of_cons
      rw [path.vertices_eq, nodup_cons] at rest
      exact rest.1 (visited _ seen)
    refine ⟨branch ++ [connection], .snoc explored ne fresh mem isMain rfl, ?_⟩
    intro node listed
    rw [cons_append, tail_cons, path.vertices_eq]
    rw [map_append, mem_append] at listed
    rcases listed with seen | new
    · exact mem_cons_of_mem _ (visited node seen)
    · obtain rfl : node = connection.toNode := by simpa using new
      exact mem_cons_self

variable {node : INode}

theorem Fed.exists_step (fed : Fed graph destination trigger node) (ne : node ≠ trigger) :
    ∃ before, WalkStep graph destination trigger before node ∧
      Fed graph destination trigger before := by
  rcases fed with walk | ⟨start, cycle, walk⟩
  · rcases walk.cases_tail with same | ⟨before, reached, step⟩
    · exact (ne same).elim
    · exact ⟨before, step, .inl reached⟩
  · rcases walk.cases_tail with rfl | ⟨before, reached, step⟩
    · obtain ⟨before, reached, step⟩ := Relation.TransGen.tail'_iff.mp cycle
      exact ⟨before, step, .inr ⟨node, cycle, reached⟩⟩
    · exact ⟨before, step, .inr ⟨start, cycle, reached⟩⟩

/-- From a node that is fed, some continuation of the branch is kept: going
backwards never gets stuck, so it reaches the trigger or repeats a node. -/
theorem exists_keeps (complete : graph.CompleteTo destination)
    (destinationMem : destination ∈ graph.getNodes)
    (bound : Nat) (branch : List GraphConnection)
    (enough : unvisited graph branch < bound)
    (reaches : graph.Reachable node destination) (away : node ≠ destination)
    (fed : Fed graph destination trigger node) :
    ∃ last full, Keeps graph destination trigger node branch last full ∧ branch ⊆ full := by
  induction bound generalizing branch node with
  | zero => exact (Nat.not_lt_zero _ enough).elim
  | succ bound ih =>
    by_cases isTrigger : node = trigger
    · exact ⟨node, branch, isTrigger ▸ .trigger branch, List.Subset.refl _⟩
    by_cases visited : node ∈ branch.map (·.toNode)
    · exact ⟨node, branch, .visited isTrigger away visited, List.Subset.refl _⟩
    · obtain ⟨before, ⟨connection, follows, rfl, rfl⟩, beforeFed⟩ := fed.exists_step isTrigger
      obtain ⟨listed, isMain, _, notDestination⟩ := follows
      have smaller := unvisited_snoc (complete.mem destinationMem reaches) visited
      obtain ⟨last, full, keeps, extends'⟩ := ih (branch ++ [connection])
          (smaller.trans_le (Nat.le_of_lt_succ enough))
          (.head ⟨connection, listed, rfl, rfl⟩ reaches) notDestination
          beforeFed
      exact ⟨last, full, .step isTrigger visited listed isMain rfl keeps,
        List.Subset.trans (subset_append_left _ _) extends'⟩

variable {connection : GraphConnection}

theorem MayFollow.joined (follows : MayFollow graph destination trigger connection) :
    graph.Joined connection.fromNode connection.toNode :=
  ⟨connection, follows.1, rfl, rfl⟩

theorem Walk.reachable {node other : INode} (walk : Walk graph destination trigger node other) :
    graph.Reachable node other := by
  refine Relation.ReflTransGen.mono ?_ _ _ walk
  rintro _ _ ⟨connection, follows, rfl, rfl⟩
  exact follows.joined

theorem keeps_of_kept (complete : graph.CompleteTo destination)
    (destinationMem : destination ∈ graph.getNodes)
    (kept : Kept graph destination trigger connection) :
    ∃ last full, Keeps graph destination trigger destination [] last full ∧ connection ∈ full := by
  obtain ⟨follows, walk, fed⟩ := kept
  have reaches : graph.Reachable connection.fromNode destination :=
    .head follows.joined walk.reachable
  obtain ⟨mem, isMain, notTrigger, notDestination⟩ := follows
  obtain ⟨left, path, nodup⟩ := SimplePath.exists_of_reachable walk
  obtain ⟨branch, explored, visited⟩ := branch_of_path path rfl nodup
  have fresh : connection.toNode ∉ branch.map (·.toNode) := by
    intro seen
    rw [path.vertices_eq, nodup_cons] at nodup
    exact nodup.1 (visited _ seen)
  have extended : Branch graph destination trigger connection.fromNode (branch ++ [connection]) :=
    .snoc explored notTrigger fresh mem isMain rfl
  obtain ⟨last, full, keeps, contained⟩ :=
    exists_keeps complete destinationMem _ (branch ++ [connection])
      (Nat.lt_succ_self _) reaches notDestination fed
  exact ⟨last, full, extended.keeps keeps, contained (by simp)⟩

theorem exists_keeps_iff (complete : graph.CompleteTo destination)
    (destinationMem : destination ∈ graph.getNodes) :
    (∃ last full, Keeps graph destination trigger destination [] last full ∧
      connection ∈ full) ↔ Kept graph destination trigger connection :=
  ⟨fun ⟨_, _, keeps, mem⟩ => (kept_of_keeps keeps).2 connection mem,
    keeps_of_kept complete destinationMem⟩

theorem exists_keeps_node_iff (complete : graph.CompleteTo destination)
    (destinationMem : destination ∈ graph.getNodes) :
    (∃ last full, Keeps graph destination trigger destination [] last full ∧
      (node = last ∨ ∃ connection ∈ full, node = connection.fromNode ∨ node = connection.toNode)) ↔
      (node = trigger ∧ Walk graph destination trigger trigger destination) ∨
        ∃ connection, Kept graph destination trigger connection ∧
          (node = connection.fromNode ∨ node = connection.toNode) := by
  constructor
  · rintro ⟨last, full, keeps, rfl | ⟨connection, mem, ends⟩⟩
    · rcases (keeps.explored .nil).2 with rfl | ⟨_, visited⟩
      · exact .inl ⟨rfl, (kept_of_keeps keeps).1⟩
      · obtain ⟨connection, mem, ends⟩ := mem_map.mp visited
        exact .inr ⟨connection, (kept_of_keeps keeps).2 connection mem, .inr ends.symm⟩
    · exact .inr ⟨connection, (kept_of_keeps keeps).2 connection mem, ends⟩
  · rintro (⟨rfl, walk⟩ | ⟨connection, kept, ends⟩)
    · rcases walk.cases_head with rfl | ⟨next, step, rest⟩
      · exact ⟨node, [], .trigger [], .inl rfl⟩
      · obtain ⟨connection, follows, starts, rfl⟩ := step
        have kept : Kept graph destination node connection := ⟨follows, rest, .inl (by rw [starts])⟩
        obtain ⟨last, full, keeps, mem⟩ := keeps_of_kept complete destinationMem kept
        exact ⟨last, full, keeps, .inr ⟨connection, mem, .inl starts.symm⟩⟩
    · obtain ⟨last, full, keeps, mem⟩ := keeps_of_kept complete destinationMem kept
      exact ⟨last, full, keeps, .inr ⟨connection, mem, ends⟩⟩

end Walks

section Result

variable {graph : DirectedGraph} {destination trigger : INode}

def KeptNode (graph : DirectedGraph) (destination trigger node : INode) : Prop :=
  (node = trigger ∧ Walk graph destination trigger trigger destination) ∨
    ∃ connection, Kept graph destination trigger connection ∧
      (node = connection.fromNode ∨ node = connection.toNode)

variable {node : INode}

theorem KeptNode.reachable (kept : KeptNode graph destination trigger node) :
    graph.Reachable node destination := by
  rcases kept with ⟨rfl, walk⟩ | ⟨connection, ⟨follows, walk, _⟩, ends⟩
  · exact walk.reachable
  · rcases ends with rfl | rfl
    · exact .head follows.joined walk.reachable
    · exact walk.reachable

theorem grows_addUtilityConnections
    (complete : graph.CompleteTo node) (mem : node ∈ graph.getNodes) :
    Grows graph (addUtilityConnections graph · node)
      (fun connection => connection ∈ graph.getConnections ∧
        ¬ connection.IsMain ∧ graph.Reachable connection.toNode node)
      (fun other => ∃ connection ∈ graph.getConnections,
        ¬ connection.IsMain ∧ graph.Reachable connection.toNode node ∧
          (other = connection.fromNode ∨ other = connection.toNode)) := by
  obtain ⟨connections, ok, exact⟩ := getParentConnections_eq_ok complete mem
  have steps : ∀ connection ∈ connections, Grows graph (fun subgraph =>
        if connection.type = .main then .ok subgraph
        else
          (subgraph.addNodes [connection.fromNode, connection.toNode]).addConnection connection)
      (fun other => ¬ connection.IsMain ∧ other = connection)
      (fun node => ¬ connection.IsMain ∧
        (node = connection.fromNode ∨ node = connection.toNode)) := by
    intro connection listed
    by_cases isMain : connection.IsMain
    · exact Grows.pure.congr (fun _ => if_pos isMain)
        (fun _ => ⟨False.elim, fun added => added.1 isMain⟩)
        (fun _ => ⟨False.elim, fun added => added.1 isMain⟩)
    · obtain ⟨connectionMem, reaches⟩ := (exact connection).mp listed
      exact (grows_addEnds connectionMem (complete connection connectionMem reaches)
        (complete.mem mem reaches)).congr (fun _ => if_neg isMain) (fun _ => (and_iff_right isMain).symm)
        (fun _ => (and_iff_right isMain).symm)
  refine (Grows.foldlM steps).congr ?_ ?_ ?_
  · intro part
    rw [addUtilityConnections, ok]
    rfl
  · intro connection
    constructor
    · rintro ⟨_, listed, other, rfl⟩
      obtain ⟨connectionMem, reaches⟩ := (exact connection).mp listed
      exact ⟨connectionMem, other, reaches⟩
    · rintro ⟨connectionMem, other, reaches⟩
      exact ⟨connection, (exact connection).mpr ⟨connectionMem, reaches⟩, other, rfl⟩
  · intro other
    constructor
    · rintro ⟨connection, listed, notMain, ends⟩
      obtain ⟨connectionMem, reaches⟩ := (exact connection).mp listed
      exact ⟨connection, connectionMem, notMain, reaches, ends⟩
    · rintro ⟨connection, connectionMem, notMain, reaches, ends⟩
      exact ⟨connection, (exact connection).mpr ⟨connectionMem, reaches⟩, notMain, ends⟩

/-- What `findSubgraph` returns: the kept branches, and the non-Main
connections from which a kept node is reachable. -/
theorem findSubgraph_eq_ok (complete : graph.CompleteTo destination)
    (destinationMem : destination ∈ graph.getNodes) (trigger : INode) :
    ∃ subgraph, findSubgraph graph destination trigger = .ok subgraph ∧
      (∀ connection, connection ∈ subgraph.getConnections ↔
        Kept graph destination trigger connection ∨
          (connection ∈ graph.getConnections ∧ ¬ connection.IsMain ∧
            ∃ node, KeptNode graph destination trigger node ∧
              graph.Reachable connection.toNode node)) ∧
      ∀ node, node ∈ subgraph.getNodes ↔ KeptNode graph destination trigger node ∨
          ∃ connection ∈ graph.getConnections, ¬ connection.IsMain ∧
            (∃ kept, KeptNode graph destination trigger kept ∧
              graph.Reachable connection.toNode kept) ∧
            (node = connection.fromNode ∨ node = connection.toNode) := by
  have enough : unvisited graph [] < graph.nodes.size + 1 := Nat.lt_succ_of_le graph.missing_le_size
  have firstPass : Grows graph
      (findSubgraphRecursive graph destination trigger (graph.nodes.size + 1) destination · [])
      (Kept graph destination trigger) (KeptNode graph destination trigger) :=
    (grows_findSubgraphRecursive complete destinationMem enough .refl
      (fun _ mem => (not_mem_nil mem).elim)).congr
        (fun _ => rfl) (fun _ => exists_keeps_iff complete destinationMem)
        (fun _ => exists_keeps_node_iff complete destinationMem)
  obtain ⟨first, firstSuccess, firstWithin, firstConnections, kept⟩ := firstPass.from_empty
  have firstOk : findSubgraphRecursive graph destination trigger
      (graph.nodes.size + 1) destination .empty [] = .ok first := firstSuccess
  have secondPass : Grows graph (fun subgraph =>
        first.getNodes.foldlM (addUtilityConnections graph) subgraph) _ _ :=
    Grows.foldlM fun node mem =>
      grows_addUtilityConnections (complete.of_reachable ((kept node).mp mem).reachable)
        (firstWithin.nodes node mem)
  obtain ⟨subgraph, ok, _, connections, nodes⟩ := secondPass first firstWithin
  refine ⟨subgraph, ?_, ?_, ?_⟩
  · rw [findSubgraph, firstOk]
    exact ok
  · intro connection
    rw [connections, firstConnections]
    apply or_congr_right
    constructor
    · rintro ⟨node, mem, listed, notMain, reaches⟩
      exact ⟨listed, notMain, node, (kept node).mp mem, reaches⟩
    · rintro ⟨listed, notMain, node, isKept, reaches⟩
      exact ⟨node, (kept node).mpr isKept, listed, notMain, reaches⟩
  · intro node
    rw [nodes, kept]
    apply or_congr_right
    constructor
    · rintro ⟨other, mem, connection, listed, notMain, reaches, ends⟩
      exact ⟨connection, listed, notMain, ⟨other, (kept other).mp mem, reaches⟩, ends⟩
    · rintro ⟨connection, listed, notMain, ⟨other, isKept, reaches⟩, ends⟩
      exact ⟨other, (kept other).mpr isKept, connection, listed, notMain, reaches, ends⟩

section

variable (graph : DirectedGraph)

def NonMainJoined (node other : INode) : Prop :=
  ∃ connection ∈ graph.getConnections, ¬ connection.IsMain ∧
    connection.fromNode = node ∧ connection.toNode = other

/-- The subgraph has the Main connections of the walks from the trigger to
the destination, and the non-Main connections that lead to their nodes over
non-Main connections. -/
structure RelevantPart (graph : DirectedGraph) (destination trigger : INode)
    (subgraph : DirectedGraph) : Prop where
  main : ∀ connection : GraphConnection, connection.IsMain →
    (connection ∈ subgraph.getConnections ↔ OnWalk graph destination trigger connection)
  nonMain : ∀ connection : GraphConnection, ¬ connection.IsMain →
    (connection ∈ subgraph.getConnections ↔ connection ∈ graph.getConnections ∧
        ∃ node, VisitedByWalk graph destination trigger node ∧
          Relation.ReflTransGen graph.NonMainJoined connection.toNode node)

/-- Cycles that lead to the destination are reached from the trigger. -/
def CyclesFed (destination trigger : INode) : Prop :=
  ∀ node, Relation.TransGen (WalkStep graph destination trigger) node node →
    Walk graph destination trigger node destination →
    Walk graph destination trigger trigger node

/-- A non-Main connection that leads to a node of a walk does so over
non-Main connections. -/
def UtilitiesLocal (destination trigger : INode) : Prop :=
  ∀ connection ∈ graph.getConnections, ¬ connection.IsMain →
    (∃ node, VisitedByWalk graph destination trigger node ∧
      graph.Reachable connection.toNode node) →
    ∃ node, VisitedByWalk graph destination trigger node ∧
      Relation.ReflTransGen graph.NonMainJoined connection.toNode node

end

theorem kept_iff_onWalk (fed : CyclesFed graph destination trigger) {connection : GraphConnection} :
    Kept graph destination trigger connection ↔ OnWalk graph destination trigger connection := by
  constructor
  · rintro ⟨follows, walk, reached | ⟨start, cycle, reached⟩⟩
    · exact ⟨follows, reached, walk⟩
    · have toDestination : Walk graph destination trigger start destination :=
        (reached.tail ⟨connection, follows, rfl, rfl⟩).trans walk
      exact ⟨follows, (fed start cycle toDestination).trans reached, walk⟩
  · rintro ⟨follows, reached, walk⟩
    exact ⟨follows, walk, .inl reached⟩

theorem keptNode_iff_visitedByWalk (fed : CyclesFed graph destination trigger) :
    KeptNode graph destination trigger node ↔ VisitedByWalk graph destination trigger node := by
  constructor
  · rintro (⟨rfl, walk⟩ | ⟨connection, kept, ends⟩)
    · exact ⟨.refl, walk⟩
    · obtain ⟨follows, reached, walk⟩ := (kept_iff_onWalk fed).mp kept
      have step : WalkStep graph destination trigger connection.fromNode
          connection.toNode := ⟨connection, follows, rfl, rfl⟩
      rcases ends with rfl | rfl
      · exact ⟨reached, .head step walk⟩
      · exact ⟨reached.tail step, walk⟩
  · rintro ⟨reached, walk⟩
    rcases reached.cases_tail with rfl | ⟨before, earlier, step⟩
    · exact .inl ⟨rfl, walk⟩
    · obtain ⟨connection, follows, rfl, rfl⟩ := step
      exact .inr ⟨connection, ⟨follows, walk, .inl earlier⟩, .inr rfl⟩

theorem NonMainJoined.reachable {node other : INode}
    (path : Relation.ReflTransGen graph.NonMainJoined node other) :
    graph.Reachable node other :=
  Relation.ReflTransGen.mono (fun _ _ ⟨connection, mem, _, starts, ends⟩ =>
      ⟨connection, mem, starts, ends⟩) _ _ path

/-- `findSubgraph` keeps exactly the relevant part when the trigger feeds the
cycles that lead to the destination and utility nodes of walks are not
utility nodes of other branches. -/
theorem findSubgraph_relevantPart_iff (wellFormed : graph.WellFormed)
    (destinationMember : destination ∈ graph.getNodes) :
    (∃ subgraph, findSubgraph graph destination trigger = .ok subgraph ∧
      RelevantPart graph destination trigger subgraph) ↔
      CyclesFed graph destination trigger ∧ UtilitiesLocal graph destination trigger := by
  obtain ⟨computed, success, connections, _⟩ :=
    findSubgraph_eq_ok (wellFormed.completeTo destination) destinationMember trigger
  constructor
  · rintro ⟨subgraph, subgraphSuccess, relevant⟩
    obtain rfl : computed = subgraph := Except.ok.inj (success.symm.trans subgraphSuccess)
    have fed : CyclesFed graph destination trigger := by
      intro node cycle walk
      obtain ⟨next, step, back⟩ := Relation.TransGen.head'_iff.mp cycle
      obtain ⟨connection, follows, rfl, rfl⟩ := step
      have kept : Kept graph destination trigger connection :=
        ⟨follows, back.trans walk, .inr ⟨_, cycle, .refl⟩⟩
      exact ((relevant.main connection follows.2.1).mp
        ((connections connection).mpr (.inl kept))).2.1
    refine ⟨fed, ?_⟩
    rintro connection mem notMain ⟨node, visited, reaches⟩
    have added := (connections connection).mpr (.inr ⟨mem, notMain, node,
      (keptNode_iff_visitedByWalk fed).mpr visited, reaches⟩)
    exact ((relevant.nonMain connection notMain).mp added).2
  · rintro ⟨fed, localUtilities⟩
    refine ⟨computed, success, ⟨?_, ?_⟩⟩
    · intro connection isMain
      rw [connections, ← kept_iff_onWalk fed]
      exact or_iff_left fun added => added.2.1 isMain
    · intro connection notMain
      rw [connections, or_iff_right fun kept => notMain kept.1.2.1]
      constructor
      · rintro ⟨mem, _, node, kept, reaches⟩
        exact ⟨mem, localUtilities connection mem notMain
          ⟨node, (keptNode_iff_visitedByWalk fed).mp kept, reaches⟩⟩
      · rintro ⟨mem, node, visited, path⟩
        exact ⟨mem, notMain, node, (keptNode_iff_visitedByWalk fed).mpr visited,
          NonMainJoined.reachable path⟩

end Result

section Example

def triggerNode : INode := { name := "trigger" }

def agentNode : INode := { name := "agent" }

def modelNode : INode := { name := "model" }

def agentWithModel : DirectedGraph :=
  [{ fromNode := triggerNode
     toNode := agentNode },
    { fromNode := modelNode
      toNode := agentNode
      type := .aiLanguageModel : GraphConnection }].foldl setConnection
    (DirectedGraph.empty.addNodes [triggerNode, agentNode, modelNode])

theorem findSubgraph_relevantPart_agentWithModel : ∃ subgraph,
      findSubgraph agentWithModel agentNode triggerNode = .ok subgraph ∧
        RelevantPart agentWithModel agentNode triggerNode subgraph := by
  have mains : ∀ connection ∈ agentWithModel.getConnections, connection.IsMain →
        connection.fromNode = triggerNode ∧ connection.toNode = agentNode := by
    decide
  have others : ∀ connection ∈ agentWithModel.getConnections,
      ¬ connection.IsMain → connection.toNode = agentNode := by
    decide
  have fed : CyclesFed agentWithModel agentNode triggerNode := by
    intro node cycle _
    obtain ⟨_, ⟨first, follows, starts, _⟩, _⟩ := Relation.TransGen.head'_iff.mp cycle
    rw [← starts, (mains first follows.1 follows.2.1).1]
  have step : WalkStep agentWithModel agentNode triggerNode triggerNode agentNode :=
    ⟨{ fromNode := triggerNode
       toNode := agentNode }, ⟨by decide, by decide, by decide, by decide⟩,
      rfl, rfl⟩
  refine (findSubgraph_relevantPart_iff ⟨by decide, by decide⟩ (by decide)).mpr ⟨fed, ?_⟩
  intro connection mem notMain _
  rw [others connection mem notMain]
  exact ⟨agentNode, ⟨.single step, .refl⟩, .refl⟩

def unfedCycle : DirectedGraph :=
  [{ fromNode := triggerNode
     toNode := agentNode },
    { fromNode := firstCycleNode
      toNode := secondCycleNode },
    { fromNode := secondCycleNode
      toNode := firstCycleNode },
    { fromNode := secondCycleNode
      toNode := agentNode : GraphConnection }].foldl setConnection
    (DirectedGraph.empty.addNodes [triggerNode, agentNode, firstCycleNode, secondCycleNode])
where
  firstCycleNode : INode := { name := "first" }
  secondCycleNode : INode := { name := "second" }

/-- The cycle is kept although the trigger does not reach it. -/
theorem not_relevantPart_unfedCycle : unfedCycle.WellFormed ∧ triggerNode ∈ unfedCycle.getNodes ∧
      agentNode ∈ unfedCycle.getNodes ∧
      ¬ ∃ subgraph, findSubgraph unfedCycle agentNode triggerNode = .ok subgraph ∧
        RelevantPart unfedCycle agentNode triggerNode subgraph := by
  refine ⟨⟨by decide, by decide⟩, by decide, by decide, ?_⟩
  rintro ⟨subgraph, success, relevant⟩
  let fromCycle : GraphConnection :=
    { fromNode := unfedCycle.secondCycleNode
      toNode := agentNode }
  have computed : fromCycle ∈ ((findSubgraph unfedCycle agentNode
      triggerNode).toOption.map getConnections).getD [] := by
    decide
  rw [success] at computed
  have closed : ∀ connection ∈ unfedCycle.getConnections,
      connection.fromNode ∈ [triggerNode, agentNode] →
        connection.toNode ∈ [triggerNode, agentNode] := by
    decide
  have confined : ∀ node, Walk unfedCycle agentNode triggerNode triggerNode
      node → node ∈ [triggerNode, agentNode] := by
    intro node walk
    induction walk with
    | refl => exact mem_cons_self
    | tail _ step ih =>
      obtain ⟨connection, follows, rfl, rfl⟩ := step
      exact closed connection follows.1 ih
  have onWalk := (relevant.main fromCycle rfl).mp computed
  exact absurd (confined _ onWalk.2.1) (by decide)

end Example

end DirectedGraph

end N8n
