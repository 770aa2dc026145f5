import N8n.PartialExecution.DirectedGraph

/-!
# Cleaning run data

`cleanRunData` deletes the data of the nodes that will run again and of their
sub-nodes.  It looks for the sub-nodes among all connections that lead to such
a node, main ones included, so it also deletes the data of sub-nodes of nodes
before it.  It deletes exactly what will run again if no other sub-node with
run data leads to a node that will.
-/

namespace N8n

open DirectedGraph OrderedMap

section CleanRunData

/-- Delete the data of the nodes which supply the node over a connection that
is not of the type main. -/
def deleteSubNodes (runData : IRunData) (subNodeConnections : List GraphConnection) : IRunData :=
  subNodeConnections.foldl (fun newRunData subNodeConnection =>
    if subNodeConnection.IsMain then newRunData
    else newRunData.delete subNodeConnection.fromNode.name) runData

def cleanNode (graph : DirectedGraph) (runData : IRunData) (node : INode) :
    Except ExecutionError IRunData := do
  let newRunData := runData.delete node.name
  return deleteSubNodes newRunData (← graph.getParentConnections node)

def cleanFrom (graph : DirectedGraph) (runData : IRunData)
    (nodeToClean : INode) : Except ExecutionError IRunData := do
  let newRunData := runData.delete nodeToClean.name
  let children ← graph.getChildren nodeToClean
  (nodeToClean :: children).foldlM (cleanNode graph) newRunData

def cleanRunData (runData : IRunData) (graph : DirectedGraph)
    (nodesToClean : List INode) : Except ExecutionError IRunData := do
  let newRunData ← nodesToClean.foldlM (cleanFrom graph) runData
  return newRunData.keys.foldl (fun newRunData nodeName =>
    if graph.hasNode nodeName then newRunData
    else newRunData.delete nodeName) newRunData

end CleanRunData

/-! ## What is to be deleted -/

section Spec

section

variable (graph : DirectedGraph) (nodesToClean : List INode)

/-- The node is cleaned or reachable from a cleaned node. -/
def RunsAgain (node : INode) : Prop :=
  ∃ start ∈ nodesToClean, graph.Reachable start node

/-- One connection of a type other than main leads from one node to the
other. -/
def SubJoined (node other : INode) : Prop :=
  ∃ connection ∈ graph.getConnections, ¬ connection.IsMain ∧
    connection.fromNode = node ∧ connection.toNode = other

/-- The node runs again, or only connections of types other than main lead
from it to a node that does. -/
def LosesRunData (node : INode) : Prop :=
  ∃ rerun, RunsAgain graph nodesToClean rerun ∧ Relation.ReflTransGen (SubJoined graph) node rerun

/-- The nodes of the graph that do not lose their run data keep it, and no
others do. -/
def CleansExactly (runData cleaned : IRunData) : Prop :=
  ∀ nodeName runs, cleaned.get? nodeName = some runs ↔
    runData.get? nodeName = some runs ∧ ∃ node ∈ graph.getNodes,
      node.name = nodeName ∧ ¬ LosesRunData graph nodesToClean node

end

end Spec

/-! ## What is deleted -/

/-- One run data has the keys of the other without the deleted ones. -/
def IRunData.Without (deleted : Set String) (runData cleaned : IRunData) : Prop :=
  ∀ nodeName runs, cleaned.get? nodeName = some runs ↔
    runData.get? nodeName = some runs ∧ nodeName ∉ deleted

namespace IRunData.Without

variable {runData middle cleaned : IRunData} {deleted other : Set String}

theorem refl (runData : IRunData) : Without ∅ runData runData := by
  intro nodeName runs
  simp

theorem trans (first : Without deleted runData middle) (second : Without other middle cleaned) :
    Without (deleted ∪ other) runData cleaned := by
  intro nodeName runs
  rw [second, first, Set.mem_union, not_or, and_assoc]

theorem delete (runData : IRunData) (nodeName : String) :
    Without {nodeName} runData (OrderedMap.delete runData nodeName) := by
  intro name runs
  rw [get?_delete]
  by_cases same : nodeName = name
  · simp [same]
  · simp [same, Ne.symm same]

theorem congr (without : Without deleted runData cleaned)
    (same : ∀ nodeName, nodeName ∈ deleted ↔ nodeName ∈ other) :
    Without other runData cleaned := by
  intro nodeName runs
  rw [without, same]

theorem foldl {α : Type} {items : List α} {step : IRunData → α → IRunData}
    {deletes : α → Set String} (each : ∀ item ∈ items, ∀ runData,
      Without (deletes item) runData (step runData item))
    (runData : IRunData) :
    Without {nodeName | ∃ item ∈ items, nodeName ∈ deletes item} runData
      (items.foldl step runData) := by
  induction items generalizing runData with
  | nil => exact (refl runData).congr (by simp)
  | cons item items ih =>
    have first := each item List.mem_cons_self runData
    have rest := ih (fun later mem =>
      each later (List.mem_cons_of_mem _ mem)) (step runData item)
    exact (first.trans rest).congr (by simp)

theorem foldlM {α : Type} {items : List α} {step : IRunData → α → Except ExecutionError IRunData}
    {deletes : α → Set String} (each : ∀ item ∈ items, ∀ runData, ∃ cleaned,
      step runData item = .ok cleaned ∧ Without (deletes item) runData cleaned)
    (runData : IRunData) :
    ∃ cleaned, items.foldlM step runData = .ok cleaned ∧
      Without {nodeName | ∃ item ∈ items, nodeName ∈ deletes item} runData
        cleaned := by
  induction items generalizing runData with
  | nil => exact ⟨runData, rfl, (refl runData).congr (by simp)⟩
  | cons item items ih =>
    obtain ⟨middle, moved, first⟩ := each item List.mem_cons_self runData
    obtain ⟨cleaned, folded, rest⟩ := ih (fun later mem =>
      each later (List.mem_cons_of_mem _ mem)) middle
    refine ⟨cleaned, ?_, (first.trans rest).congr (by simp)⟩
    rw [List.foldlM_cons, moved]
    exact folded

end IRunData.Without

section Deleted

variable {graph : DirectedGraph} {nodesToClean : List INode}

/-- The connection is not of the type main and leads to the node. -/
def SuppliesBefore (graph : DirectedGraph) (node : INode) (connection : GraphConnection) : Prop :=
  connection ∈ graph.getConnections ∧ ¬ connection.IsMain ∧ graph.Reachable connection.toNode node

/-- The names that the cleaning of a node deletes. -/
def deletedWith (graph : DirectedGraph) (node : INode) : Set String :=
  {nodeName | nodeName = node.name ∨ ∃ connection, SuppliesBefore graph node connection ∧
      connection.fromNode.name = nodeName}

theorem without_deleteSubNodes (runData : IRunData) (connections : List GraphConnection) :
    IRunData.Without {nodeName | ∃ edge ∈ connections, ¬ edge.IsMain ∧
        nodeName = edge.fromNode.name} runData
      (deleteSubNodes runData connections) := by
  have each : ∀ edge ∈ connections, ∀ runData : IRunData, IRunData.Without
        {nodeName | ¬ edge.IsMain ∧ nodeName = edge.fromNode.name} runData
        (deleteSubNodes runData [edge]) := by
    intro edge _ runData
    rw [deleteSubNodes, List.foldl_cons, List.foldl_nil]
    split
    next isMain =>
      exact (IRunData.Without.refl runData).congr (by simp [isMain])
    next isSub =>
      exact (IRunData.Without.delete runData _).congr (by simp [isSub])
  exact IRunData.Without.foldl each runData

theorem cleanNode_eq_ok {node : INode} (wellFormed : graph.WellFormed)
    (mem : node ∈ graph.getNodes) (runData : IRunData) :
    ∃ cleaned, cleanNode graph runData node = .ok cleaned ∧
      IRunData.Without (deletedWith graph node) runData cleaned := by
  obtain ⟨connections, found, exactly⟩ :=
    getParentConnections_eq_ok (wellFormed.completeTo node) mem
  refine ⟨_, by rw [cleanNode, found]; rfl, ?_⟩
  refine ((IRunData.Without.delete runData node.name).trans
    (without_deleteSubNodes _ connections)).congr ?_
  intro nodeName
  simp only [Set.mem_union, Set.mem_singleton_iff, Set.mem_ofPred_eq,
    deletedWith, SuppliesBefore, exactly]
  apply or_congr Iff.rfl
  constructor
  · rintro ⟨edge, ⟨listed, leads⟩, isSub, rfl⟩
    exact ⟨edge, ⟨listed, isSub, leads⟩, rfl⟩
  · rintro ⟨edge, ⟨listed, isSub, leads⟩, rfl⟩
    exact ⟨edge, ⟨listed, leads⟩, isSub, rfl⟩

theorem cleanFrom_eq_ok {nodeToClean : INode}
    (wellFormed : graph.WellFormed) (mem : nodeToClean ∈ graph.getNodes)
    (runData : IRunData) :
    ∃ cleaned, cleanFrom graph runData nodeToClean = .ok cleaned ∧
      IRunData.Without {nodeName | ∃ node,
        graph.Reachable nodeToClean node ∧ nodeName ∈ deletedWith graph node}
        runData cleaned := by
  obtain ⟨children, found, exactly⟩ := getChildren_eq_ok wellFormed mem
  have reruns : ∀ node, node ∈ nodeToClean :: children ↔ graph.Reachable nodeToClean node := by
    intro node
    rw [List.mem_cons, exactly, DirectedGraph.Reachable,
      Relation.reflTransGen_iff_eq_or_transGen, eq_comm]
  have each : ∀ node ∈ nodeToClean :: children, ∀ runData, ∃ cleaned,
      cleanNode graph runData node = .ok cleaned ∧
        IRunData.Without (deletedWith graph node) runData cleaned :=
    fun node listed => cleanNode_eq_ok wellFormed
      (mem_getNodes_of_reachable wellFormed mem ((reruns node).mp listed))
  obtain ⟨cleaned, folded, without⟩ :=
    IRunData.Without.foldlM each (runData.delete nodeToClean.name)
  refine ⟨cleaned, by rw [cleanFrom, found]; exact folded, ?_⟩
  refine ((IRunData.Without.delete runData nodeToClean.name).trans without).congr ?_
  intro nodeName
  simp only [Set.mem_union, Set.mem_singleton_iff, Set.mem_ofPred_eq, reruns]
  constructor
  · rintro (rfl | deleted)
    · exact ⟨nodeToClean, .refl, .inl rfl⟩
    · exact deleted
  · exact .inr

theorem cleanFrom_of_not_mem {nodeToClean : INode}
    (missing : nodeToClean ∉ graph.getNodes) (runData : IRunData) :
    cleanFrom graph runData nodeToClean = .error (.assertion "") := by
  have failed : graph.getChildren nodeToClean = .error (.assertion "") := by
    rw [DirectedGraph.getChildren, Collect.collect, DirectedGraph.getDirectChildConnections,
      assertNode_of_not_mem missing]
    rfl
  rw [cleanFrom, failed]
  rfl

def IsDeleted (graph : DirectedGraph) (nodesToClean : List INode) (nodeName : String) : Prop :=
  ∃ rerun, RunsAgain graph nodesToClean rerun ∧ nodeName ∈ deletedWith graph rerun

theorem cleanRunData_eq_ok (wellFormed : graph.WellFormed)
    (members : ∀ node ∈ nodesToClean, node ∈ graph.getNodes) (runData : IRunData) :
    ∃ cleaned, cleanRunData runData graph nodesToClean = .ok cleaned ∧
      IRunData.Without {nodeName | IsDeleted graph nodesToClean nodeName ∨
        graph.hasNode nodeName = false} runData cleaned := by
  obtain ⟨middle, folded, without⟩ := IRunData.Without.foldlM
    (fun node listed => cleanFrom_eq_ok wellFormed (members node listed))
    runData
  have others : IRunData.Without {nodeName | ∃ listed ∈ middle.keys, ¬ graph.hasNode listed = true ∧
        nodeName = listed} middle
      (middle.keys.foldl (fun newRunData nodeName =>
        if graph.hasNode nodeName then newRunData
        else newRunData.delete nodeName) middle) := by
    have each : ∀ listed ∈ middle.keys, ∀ runData : IRunData, IRunData.Without
          {nodeName | ¬ graph.hasNode listed = true ∧ nodeName = listed}
          runData (if graph.hasNode listed then runData
            else runData.delete listed) := by
      intro listed _ runData
      split
      next isNode =>
        exact (IRunData.Without.refl runData).congr (by simp [isNode])
      next isNoNode =>
        exact (IRunData.Without.delete runData listed).congr (by simp [isNoNode])
    exact IRunData.Without.foldl each middle
  refine ⟨_, by rw [cleanRunData, folded]; rfl, ?_⟩
  intro nodeName runs
  rw [others, without, and_assoc]
  apply and_congr_right
  intro found
  have listedIff : nodeName ∈ {nodeName | ∃ item ∈ nodesToClean,
      nodeName ∈ {nodeName | ∃ node, graph.Reachable item node ∧
        nodeName ∈ deletedWith graph node}} ↔
      IsDeleted graph nodesToClean nodeName := by
    constructor
    · rintro ⟨start, listed, node, reached, deletes⟩
      exact ⟨node, ⟨start, listed, reached⟩, deletes⟩
    · rintro ⟨node, ⟨start, listed, reached⟩, deletes⟩
      exact ⟨start, listed, node, reached, deletes⟩
  rw [listedIff, Set.mem_ofPred_eq, Set.mem_ofPred_eq, not_or]
  apply and_congr_right
  intro kept
  have inMiddle : nodeName ∈ middle.keys := by
    have listed : (nodeName, runs) ∈ middle.entries := by
      rw [← get?_eq_some_iff, without, listedIff]
      exact ⟨found, kept⟩
    exact mem_keys_of_mem_entries listed
  constructor
  · intro unlisted missing
    exact unlisted ⟨nodeName, inMiddle, by simp [missing], rfl⟩
  · rintro isNode ⟨listed, _, isNoNode, rfl⟩
    exact isNode (by simpa using isNoNode)

theorem members_of_cleanRunData_eq_ok {runData cleaned : IRunData}
    (ok : cleanRunData runData graph nodesToClean = .ok cleaned) :
    ∀ node ∈ nodesToClean, node ∈ graph.getNodes := by
  obtain ⟨middle, folded, _⟩ := Except.bind_eq_ok_iff.mp ok
  have always : ∀ _ _ : IRunData, True := fun _ _ => trivial
  obtain ⟨_, moved⟩ := List.foldlM_exists_step (fun runData => always runData runData)
    (fun first _ third _ _ => always first third)
    (fun before _ after _ _ => always before after) folded
  intro node listed
  obtain ⟨before, after, _, cleans, _⟩ := moved node listed
  by_contra missing
  rw [cleanFrom_of_not_mem missing] at cleans
  cases cleans

end Deleted

/-! ## When the cleaning is exact -/

section Exactness

variable {graph : DirectedGraph} {nodesToClean : List INode} {runData : IRunData}

theorem reachable_of_subJoined {node other : INode}
    (joined : Relation.ReflTransGen (SubJoined graph) node other) :
    graph.Reachable node other := by
  refine Relation.ReflTransGen.mono ?_ _ _ joined
  rintro first second ⟨edge, mem, _, starts, ends⟩
  exact ⟨edge, mem, starts, ends⟩

variable {node : INode}

theorem runsAgain_mem (wellFormed : graph.WellFormed)
    (members : ∀ node ∈ nodesToClean, node ∈ graph.getNodes)
    (reruns : RunsAgain graph nodesToClean node) : node ∈ graph.getNodes := by
  obtain ⟨start, listed, reached⟩ := reruns
  exact mem_getNodes_of_reachable wellFormed (members start listed) reached

theorem isDeleted_of_losesRunData (loses : LosesRunData graph nodesToClean node) :
    IsDeleted graph nodesToClean node.name := by
  obtain ⟨rerun, reruns, joined⟩ := loses
  refine ⟨rerun, reruns, ?_⟩
  rcases joined.cases_head with rfl | ⟨middle, first, rest⟩
  · exact .inl rfl
  · obtain ⟨edge, mem, isSub, rfl, rfl⟩ := first
    exact .inr ⟨edge, ⟨mem, isSub, reachable_of_subJoined rest⟩, rfl⟩

/-- Each connection of a type other than main that leads to a node that runs
again starts at a node that is to lose its run data, or has none. -/
def SubNodesLose (graph : DirectedGraph) (nodesToClean : List INode) (runData : IRunData) : Prop :=
  ∀ connection ∈ graph.getConnections, ¬ connection.IsMain →
    (∃ rerun, RunsAgain graph nodesToClean rerun ∧ graph.Reachable connection.toNode rerun) →
    runData.has connection.fromNode.name = true →
      LosesRunData graph nodesToClean connection.fromNode

theorem losesRunData_of_isDeleted (wellFormed : graph.WellFormed)
    (members : ∀ node ∈ nodesToClean, node ∈ graph.getNodes)
    (subNodesLose : SubNodesLose graph nodesToClean runData)
    (mem : node ∈ graph.getNodes) (found : runData.has node.name = true)
    (deleted : IsDeleted graph nodesToClean node.name) :
    LosesRunData graph nodesToClean node := by
  obtain ⟨rerun, reruns, same | ⟨edge, ⟨listed, isSub, leads⟩, same⟩⟩ := deleted
  · have rerunMem := runsAgain_mem wellFormed members reruns
    rw [eq_of_name_eq mem rerunMem same]
    exact ⟨rerun, reruns, .refl⟩
  · have fromMem := wellFormed.fromMem edge listed
    have sameNode := eq_of_name_eq fromMem mem same
    rw [← sameNode] at found ⊢
    exact subNodesLose edge listed isSub ⟨rerun, reruns, leads⟩ found

theorem hasNode_iff {nodeName : String} : graph.hasNode nodeName = true ↔
      ∃ node ∈ graph.getNodes, node.name = nodeName := by
  rw [DirectedGraph.hasNode, OrderedMap.has, Option.isSome_iff_exists]
  constructor
  · rintro ⟨node, found⟩
    have entry := get?_eq_some_iff.mp found
    exact ⟨node, mem_values_of_mem_entries entry, graph.nodesNamed _ entry⟩
  · rintro ⟨node, mem, rfl⟩
    have holds := holdsNode_iff.mpr mem
    exact ⟨node, of_decide_eq_true holds⟩

/-- The cleaning deletes exactly what will run again if and only if all
cleaned nodes are in the graph and no sub-node of another node, with run data,
leads to a node that will run again. -/
theorem cleanRunData_cleansExactly_iff (wellFormed : graph.WellFormed) :
    (∃ cleaned, cleanRunData runData graph nodesToClean = .ok cleaned ∧
      CleansExactly graph nodesToClean runData cleaned) ↔
      (∀ node ∈ nodesToClean, node ∈ graph.getNodes) ∧ SubNodesLose graph nodesToClean runData := by
  constructor
  · rintro ⟨cleaned, success, cleansExactly⟩
    have members := members_of_cleanRunData_eq_ok success
    refine ⟨members, ?_⟩
    intro connection listed isSub ⟨rerun, reruns, leads⟩ found
    obtain ⟨other, same, without⟩ := cleanRunData_eq_ok wellFormed members runData
    cases success.symm.trans same
    by_contra keeps
    obtain ⟨runs, isRuns⟩ := Option.isSome_iff_exists.mp found
    have survives := (cleansExactly connection.fromNode.name runs).mpr
      ⟨isRuns, connection.fromNode, wellFormed.fromMem connection listed, rfl, keeps⟩
    obtain ⟨_, undeleted⟩ := (without _ runs).mp survives
    exact undeleted (.inl ⟨rerun, reruns, .inr ⟨connection, ⟨listed, isSub, leads⟩, rfl⟩⟩)
  · rintro ⟨members, subNodesLose⟩
    obtain ⟨cleaned, success, without⟩ := cleanRunData_eq_ok wellFormed members runData
    refine ⟨cleaned, success, fun nodeName runs => ?_⟩
    rw [without]
    apply and_congr_right
    intro found
    rw [Set.mem_ofPred_eq, not_or, Bool.not_eq_false, hasNode_iff]
    constructor
    · rintro ⟨undeleted, node, mem, rfl⟩
      exact ⟨node, mem, rfl, fun loses =>
        undeleted (isDeleted_of_losesRunData loses)⟩
    · rintro ⟨node, mem, rfl, keeps⟩
      refine ⟨fun deleted => keeps ?_, node, mem, rfl⟩
      exact losesRunData_of_isDeleted wellFormed members subNodesLose mem
        (Option.isSome_iff_exists.mpr ⟨runs, found⟩) deleted

end Exactness

namespace CleanExample

def agent : INode := { name := "Agent" }

def model : INode := { name := "Model" }

def next : INode := { name := "Next" }

def graph : DirectedGraph :=
  [{ fromNode := model
     toNode := agent
     type := .aiLanguageModel },
    { fromNode := agent
      toNode := next : GraphConnection }].foldl DirectedGraph.setConnection
    (DirectedGraph.empty.addNodes [agent, model, next])

def runData : IRunData :=
  ((OrderedMap.empty.set "Agent" [{}]).set "Model" [{}]).set "Next" [{}]

theorem wellFormed : graph.WellFormed := ⟨by decide, by decide⟩

theorem subConnection {edge : GraphConnection}
    (listed : edge ∈ graph.getConnections) (isSub : ¬ edge.IsMain) :
    edge.fromNode = model ∧ edge.toNode = agent := by
  have all : ∀ edge ∈ graph.getConnections, ¬ edge.IsMain →
      edge.fromNode = model ∧ edge.toNode = agent := by
    decide
  exact all edge listed isSub

/-- Cleaning the agent deletes the data of its model. -/
theorem cleansExactly_agent : ∃ cleaned, cleanRunData runData graph [agent] = .ok cleaned ∧
      CleansExactly graph [agent] runData cleaned := by
  refine (cleanRunData_cleansExactly_iff wellFormed).mpr ⟨by decide, ?_⟩
  intro connection listed isSub _ _
  obtain ⟨starts, ends⟩ := subConnection listed isSub
  refine ⟨agent, ⟨agent, List.mem_cons_self, .refl⟩, .single ?_⟩
  exact ⟨connection, listed, isSub, rfl, ends⟩

theorem eq_next_of_reachable {node : INode}
    (reached : graph.Reachable next node) : node = next := by
  rcases reached.cases_head with same | ⟨_, ⟨edge, listed, starts, _⟩, _⟩
  · exact same.symm
  · have all : ∀ edge ∈ graph.getConnections, edge.fromNode ≠ next := by
      decide
    exact absurd starts (all edge listed)

/-- Cleaning the node behind the agent deletes the data of the model, whose
agent does not run again. -/
theorem not_cleansExactly_next : graph.WellFormed ∧ (∀ node ∈ [next], node ∈ graph.getNodes) ∧
      ¬ ∃ cleaned, cleanRunData runData graph [next] = .ok cleaned ∧
        CleansExactly graph [next] runData cleaned := by
  refine ⟨wellFormed, by decide, ?_⟩
  rintro ⟨cleaned, success, cleansExactly⟩
  have computed : (cleanRunData runData graph [next]).toOption.map
      (·.get? "Model") = some none := by
    decide +kernel
  rw [success] at computed
  have deleted : cleaned.get? "Model" = none := Option.some.inj computed
  have kept : cleaned.get? "Model" = some [{}] := by
    refine (cleansExactly "Model" [{}]).mpr ⟨by decide, model, by decide, rfl, ?_⟩
    rintro ⟨rerun, ⟨start, listed, reached⟩, joined⟩
    cases List.mem_singleton.mp listed
    obtain rfl := eq_next_of_reachable reached
    rcases joined.cases_tail with same | ⟨_, _, last⟩
    · exact absurd same (by decide)
    · obtain ⟨connection, mem, isSub, _, ends⟩ := last
      rw [(subConnection mem isSub).2] at ends
      exact absurd ends (by decide)
  rw [deleted] at kept
  cases kept

end CleanExample

end N8n
