import N8n.Library.BranchSearch
import N8n.PartialExecution.SourceDataGroups

/-!
# Finding the start nodes

`findStartNodes` follows the connections with data from the trigger and stops
each branch at the first node that has to run again.  It finds exactly these
nodes, unless a run that it looks at has data without the connection type it
asks for: reading the output of such a run throws.
-/

namespace N8n

open DirectedGraph BranchSearch List Relation

section Search

variable (graph : DirectedGraph) (destination : INode) (runData : IRunData) (pinData : IPinData)

def isDirty (node : INode) : Bool :=
  if pinData.has node.name then false
  else if runData.has node.name then false
  else true

def isALoop (node : INode) : Except ExecutionError Bool := do
  return node ∈ (← graph.getChildren node)

def getIncomingDataOfLastRun (nodeName : String)
    (connectionType : NodeConnectionType) (outputIndex : Nat) :
    Except ExecutionError (Option (List INodeExecutionData)) :=
  getIncomingData runData nodeName (getRunIndexLength runData nodeName - 1)
    connectionType outputIndex

def splitInBatches : String := "n8n-nodes-base.splitInBatches"

/-- The tests that end a branch with a start node. -/
def isStartNode (current : INode) : Except ExecutionError Bool :=
  if isDirty runData pinData current then .ok true
  else if current = destination then .ok true
  else if current.type = splitInBatches then do
    -- the loop may not be closed yet
    let outputIndex := if ← isALoop graph current then 0 else 1
    let nodeRunData ← getIncomingDataOfLastRun runData current.name .main outputIndex
    return nodeRunData.all (·.isEmpty)
  else .ok false

/-- Outputs without data are not followed. -/
def followConnection (outGoingConnection : GraphConnection) :
    Except ExecutionError (Option INode) := do
  let nodeRunData ← getIncomingDataFromAnyRun runData
    outGoingConnection.fromNode.name outGoingConnection.type
    outGoingConnection.outputIndex
  let hasNoRunData := nodeRunData.all (·.1.isEmpty)
  let hasNoPinnedData := !pinData.has outGoingConnection.fromNode.name
  return if hasNoRunData && hasNoPinnedData then none
    else some outGoingConnection.toNode

/-- Each level of the recursion has seen another node. -/
def findStartNodesRecursive :
    Nat → INode → List INode → List INode → Except ExecutionError (List INode) :=
  search (isStartNode graph destination runData pinData)
    graph.getDirectChildConnections (followConnection runData pinData)

def findStartNodes (trigger : INode) : Except ExecutionError (List INode) :=
  findStartNodesRecursive graph destination runData pinData (graph.nodes.size + 1) trigger [] []

end Search

/-! ## The frontier -/

section Spec

variable (graph : DirectedGraph) (destination : INode) (runData : IRunData) (pinData : IPinData)

section

variable (nodeName : String)

def ItemsInRun (runIndex : Nat) (connectionType : NodeConnectionType) (outputIndex : Nat) : Prop :=
  ∃ data, getIncomingData runData nodeName runIndex connectionType
    outputIndex = .ok (some data) ∧ data ≠ []

/-- The `done` output of a loop, or else the output that an open loop uses. -/
def RelevantOutput (node : INode) (outputIndex : Nat) : Prop :=
  TransGen graph.Joined node node ∧ outputIndex = 0 ∨
    ¬ TransGen graph.Joined node node ∧ outputIndex = 1

/-- The node has neither run nor pinned data, or is the destination, or is a
loop without items on its output in the last run. -/
def StopNode (node : INode) : Prop :=
  (runData.has node.name = false ∧ pinData.has node.name = false) ∨ node = destination ∨
    node.type = splitInBatches ∧ ∀ outputIndex, RelevantOutput graph node outputIndex →
        ¬ ItemsInRun runData node.name (getRunIndexLength runData node.name - 1) .main outputIndex

/-- The source has pinned data or some run with items on the output. -/
def LiveConnection (connection : GraphConnection) : Prop :=
  pinData.has connection.fromNode.name = true ∨
    ∃ runIndex, ItemsInRun runData connection.fromNode.name runIndex
      connection.type connection.outputIndex

def LiveStep (node other : INode) : Prop :=
  ¬ StopNode graph destination runData pinData node ∧ ∃ connection ∈ graph.getConnections,
      connection.fromNode = node ∧ LiveConnection runData pinData connection ∧
        connection.toNode = other

/-- The stop nodes that a path of live connections reaches from the trigger
without an earlier stop node. -/
def Frontier (trigger node : INode) : Prop :=
  StopNode graph destination runData pinData node ∧
    Relation.ReflTransGen (LiveStep graph destination runData pinData) trigger node

def LacksType (runIndex : Nat) (connectionType : NodeConnectionType) : Prop :=
  ∃ data, ((runData.get? nodeName).bind (·[runIndex]?)).bind
    ITaskData.data = some data ∧ data.get? connectionType = none

/-- The runs up to the first one with items on the output can be read. -/
def ReadableRuns (connectionType : NodeConnectionType) (outputIndex : Nat) : Prop :=
  ∀ runIndex, (∀ earlier < runIndex,
      ¬ ItemsInRun runData nodeName earlier connectionType outputIndex) →
    ¬ LacksType runData nodeName runIndex connectionType

end

/-- The last run of a loop that is tested can be read. -/
def ReadableLoop (node : INode) : Prop :=
  node.type = splitInBatches → (runData.has node.name = true ∨ pinData.has node.name = true) →
    node ≠ destination →
    ¬ LacksType runData node.name (getRunIndexLength runData node.name - 1) .main

/-- The runs of the node that the search looks at can be read: the last run of
a loop, and behind a node that does not stop the runs for each connection. -/
structure ReadableNode (node : INode) : Prop where
  loop : ReadableLoop destination runData pinData node
  outgoing : ¬ StopNode graph destination runData pinData node →
    ∀ connection ∈ graph.getConnections, connection.fromNode = node →
      ReadableRuns runData connection.fromNode.name connection.type connection.outputIndex

structure FindsFrontier (trigger : INode) : Prop where
  terminates : ∀ fuel, graph.nodes.size < fuel →
    findStartNodesRecursive graph destination runData pinData fuel trigger [] [] =
      findStartNodes graph destination runData pinData trigger
  found : ∃ startNodes, findStartNodes graph destination runData pinData trigger = .ok startNodes ∧
    ∀ node, node ∈ startNodes ↔ Frontier graph destination runData pinData trigger node

end Spec

/-! ## Reading runs -/

section Runs

variable {runData : IRunData} {nodeName : String} {runIndex : Nat}
  {connectionType : NodeConnectionType} {outputIndex : Nat}

theorem getIncomingData_of_lacksType (lacks : LacksType runData nodeName runIndex connectionType) :
    getIncomingData runData nodeName runIndex connectionType outputIndex = .error .typeError := by
  obtain ⟨data, isData, missing⟩ := lacks
  rw [getIncomingData, isData]
  dsimp only
  rw [missing]

theorem getIncomingData_eq_ok (readable : ¬ LacksType runData nodeName runIndex connectionType) :
    ∃ items, getIncomingData runData nodeName runIndex connectionType outputIndex = .ok items := by
  rw [getIncomingData]
  cases isData : ((runData.get? nodeName).bind (·[runIndex]?)).bind ITaskData.data with
  | none => exact ⟨none, rfl⟩
  | some data =>
    dsimp only
    cases outputs : data.get? connectionType with
    | none => exact absurd ⟨data, isData, outputs⟩ readable
    | some slots => exact ⟨_, rfl⟩

theorem itemsInRun_iff {items : Option (List INodeExecutionData)}
    (read : getIncomingData runData nodeName runIndex connectionType outputIndex = .ok items) :
    ItemsInRun runData nodeName runIndex connectionType outputIndex ↔
      ¬ items.all (·.isEmpty) = true := by
  cases items with
  | none => simp [ItemsInRun, read]
  | some data => simp [ItemsInRun, read, List.isEmpty_iff]

theorem firstIncomingData_of_itemsInRun {later : List Nat}
    (has : ItemsInRun runData nodeName runIndex connectionType outputIndex) :
    ∃ found, firstIncomingData runData nodeName connectionType outputIndex
      (runIndex :: later) = .ok (some found) ∧ found.1 ≠ [] := by
  obtain ⟨items, read, nonempty⟩ := has
  rw [firstIncomingData, read]
  cases items with
  | nil => exact absurd rfl nonempty
  | cons item rest => exact ⟨(item :: rest, runIndex), rfl, nonempty⟩

theorem firstIncomingData_of_not_itemsInRun {later : List Nat}
    (readable : ¬ LacksType runData nodeName runIndex connectionType)
    (nothing : ¬ ItemsInRun runData nodeName runIndex connectionType outputIndex) :
    firstIncomingData runData nodeName connectionType outputIndex (runIndex :: later) =
      firstIncomingData runData nodeName connectionType outputIndex later := by
  obtain ⟨items, read⟩ : ∃ items, getIncomingData runData nodeName runIndex
      connectionType outputIndex = .ok items :=
    getIncomingData_eq_ok readable
  rw [firstIncomingData, read]
  have empty : items.all (·.isEmpty) = true := not_not.mp (mt (itemsInRun_iff read).mpr nothing)
  cases items with
  | none => rfl
  | some data =>
    cases data with
    | nil => rfl
    | cons item rest => cases empty

/-- The search through the runs ends well if all runs up to the first one with
items can be read. -/
theorem firstIncomingData_eq_ok_iff {start count : Nat} :
    (∃ found, firstIncomingData runData nodeName connectionType outputIndex
      (List.range' start count) = .ok found) ↔
      ∀ runIndex, start ≤ runIndex → runIndex < start + count →
        (∀ earlier, start ≤ earlier → earlier < runIndex →
          ¬ ItemsInRun runData nodeName earlier connectionType outputIndex) →
        ¬ LacksType runData nodeName runIndex connectionType := by
  induction count generalizing start with
  | zero =>
    constructor
    · intro _ runIndex above below
      omega
    · intro _
      exact ⟨none, rfl⟩
  | succ count ih =>
    rw [range'_succ]
    by_cases lacks : LacksType runData nodeName start connectionType
    · rw [firstIncomingData, getIncomingData_of_lacksType lacks]
      constructor
      · rintro ⟨found, ok⟩
        cases ok
      · intro readable
        exact absurd lacks (readable start le_rfl (by omega) (fun earlier above below => by omega))
    · by_cases has : ItemsInRun runData nodeName start connectionType outputIndex
      · obtain ⟨found, ok, _⟩ := firstIncomingData_of_itemsInRun has
        refine iff_of_true ⟨some found, ok⟩ ?_
        intro runIndex above below earlierNone
        rcases above.eq_or_lt with rfl | above
        · exact lacks
        · exact absurd has (earlierNone start le_rfl above)
      · rw [firstIncomingData_of_not_itemsInRun lacks has, ih]
        constructor
        · intro readable runIndex above below earlierNone
          rcases above.eq_or_lt with rfl | above
          · exact lacks
          · exact readable runIndex above (by omega)
              fun earlier earlierAbove => earlierNone earlier (by omega)
        · intro readable runIndex above below earlierNone
          refine readable runIndex (by omega) (by omega) ?_
          intro earlier earlierAbove earlierBelow
          rcases earlierAbove.eq_or_lt with rfl | earlierAbove
          · exact has
          · exact earlierNone earlier earlierAbove earlierBelow

theorem not_lacksType_of_le (outside : getRunIndexLength runData nodeName ≤ runIndex) :
    ¬ LacksType runData nodeName runIndex connectionType := by
  rintro ⟨data, isData, _⟩
  rw [getRunIndexLength] at outside
  cases runs : runData.get? nodeName with
  | none =>
    rw [runs] at isData
    cases isData
  | some taskData =>
    rw [runs] at isData outside
    rw [Option.bind_some, getElem?_eq_none (by simpa using outside)] at isData
    cases isData

theorem getIncomingDataFromAnyRun_eq_ok_iff :
    (∃ found, getIncomingDataFromAnyRun runData nodeName connectionType outputIndex = .ok found) ↔
      ReadableRuns runData nodeName connectionType outputIndex := by
  rw [getIncomingDataFromAnyRun, range_eq_range', firstIncomingData_eq_ok_iff]
  constructor
  · intro readable runIndex earlierNone
    by_cases inside : runIndex < getRunIndexLength runData nodeName
    · exact readable runIndex (Nat.zero_le _) (by omega) fun earlier _ => earlierNone earlier
    · exact not_lacksType_of_le (by omega)
  · intro readable runIndex _ _ earlierNone
    exact readable runIndex fun earlier =>
      earlierNone earlier (Nat.zero_le _)

theorem exists_itemsInRun_iff {found : Option (List INodeExecutionData × Nat)}
    (ok : getIncomingDataFromAnyRun runData nodeName connectionType outputIndex = .ok found) :
    (∃ runIndex, ItemsInRun runData nodeName runIndex connectionType
      outputIndex) ↔ ¬ found.all (·.1.isEmpty) = true := by
  cases found with
  | none =>
    have nothing := noOutput_of_getIncomingDataFromAnyRun ok
    constructor
    · rintro ⟨runIndex, data, read, nonempty⟩
      exact absurd (nothing runIndex data read) nonempty
    · intro notAll
      exact absurd rfl notAll
  | some pair =>
    obtain ⟨data, runIndex⟩ := pair
    have first := firstOutput_of_getIncomingDataFromAnyRun ok
    refine iff_of_true ⟨runIndex, data, first.produced, first.nonempty⟩ ?_
    simpa [List.isEmpty_iff] using first.nonempty

end Runs

/-! ## The search -/

section Exactness

variable {graph : DirectedGraph} {destination trigger node : INode}
  {runData : IRunData} {pinData : IPinData}

theorem isDirty_iff : isDirty runData pinData node = true ↔
      runData.has node.name = false ∧ pinData.has node.name = false := by
  rw [isDirty]
  cases pinData.has node.name <;> cases runData.has node.name <;> simp

theorem isALoop_eq_ok (wellFormed : graph.WellFormed) (mem : node ∈ graph.getNodes) :
    ∃ loop, isALoop graph node = .ok loop ∧ (loop = true ↔ TransGen graph.Joined node node) := by
  obtain ⟨children, found, exactly⟩ := getChildren_eq_ok wellFormed mem
  refine ⟨decide (node ∈ children), by rw [isALoop, found]; rfl, ?_⟩
  rw [decide_eq_true_eq, exactly]

theorem isStartNode_eq_ok (wellFormed : graph.WellFormed) (mem : node ∈ graph.getNodes)
    (readable : ReadableLoop destination runData pinData node) :
    ∃ stop, isStartNode graph destination runData pinData node = .ok stop ∧
      (stop = true ↔ StopNode graph destination runData pinData node) := by
  rw [isStartNode]
  by_cases dirty : isDirty runData pinData node = true
  · rw [if_pos dirty]
    exact ⟨true, rfl, iff_of_true rfl (.inl (isDirty_iff.mp dirty))⟩
  rw [if_neg dirty]
  by_cases isDestination : node = destination
  · rw [if_pos isDestination]
    exact ⟨true, rfl, iff_of_true rfl (.inr (.inl isDestination))⟩
  rw [if_neg isDestination]
  by_cases isLoopNode : node.type = splitInBatches
  · rw [if_pos isLoopNode]
    obtain ⟨loop, isLoop, loopIff⟩ := isALoop_eq_ok wellFormed mem
    have hasData : runData.has node.name = true ∨ pinData.has node.name = true := by
      by_contra none
      rw [not_or, Bool.not_eq_true, Bool.not_eq_true] at none
      exact dirty (isDirty_iff.mpr none)
    obtain ⟨items, read⟩ : ∃ items, getIncomingDataOfLastRun runData
        node.name .main (if loop then 0 else 1) = .ok items :=
      getIncomingData_eq_ok (readable isLoopNode hasData isDestination)
    refine ⟨items.all (·.isEmpty), ?_, ?_⟩
    · rw [isLoop]
      change (getIncomingDataOfLastRun runData node.name .main
        (if loop then 0 else 1) >>= fun nodeRunData =>
          pure (nodeRunData.all (·.isEmpty))) = _
      rw [read]
      rfl
    · have output : ∀ outputIndex, RelevantOutput graph node outputIndex ↔
          outputIndex = if loop then 0 else 1 := by
        intro outputIndex
        rw [RelevantOutput, ← loopIff]
        cases loop <;> simp
      rw [StopNode]
      simp only [isDirty_iff] at dirty
      simp only [dirty, isDestination, isLoopNode, false_or, true_and, output, forall_eq]
      rw [itemsInRun_iff read, not_not]
  · rw [if_neg isLoopNode]
    refine ⟨false, rfl, iff_of_false Bool.false_ne_true ?_⟩
    rintro (noData | same | ⟨isLoop, _⟩)
    · exact dirty (isDirty_iff.mpr noData)
    · exact isDestination same
    · exact isLoopNode isLoop

theorem readableLoop_of_isStartNode_eq_ok (wellFormed : graph.WellFormed)
    (mem : node ∈ graph.getNodes) {stop : Bool}
    (ok : isStartNode graph destination runData pinData node =
      .ok stop) : ReadableLoop destination runData pinData node := by
  intro isLoopNode hasData notDestination lacks
  have clean : ¬ isDirty runData pinData node = true := by
    rw [isDirty_iff]
    rintro ⟨noRunData, noPinData⟩
    rcases hasData with has | has
    · rw [noRunData] at has
      cases has
    · rw [noPinData] at has
      cases has
  rw [isStartNode, if_neg clean, if_neg notDestination, if_pos isLoopNode] at ok
  obtain ⟨loop, isLoop, _⟩ := isALoop_eq_ok wellFormed mem
  rw [isLoop] at ok
  have failed : getIncomingDataOfLastRun runData node.name .main
      (if loop then 0 else 1) = .error .typeError :=
    getIncomingData_of_lacksType lacks
  replace ok : (getIncomingDataOfLastRun runData node.name .main
    (if loop then 0 else 1) >>= fun nodeRunData =>
      pure (nodeRunData.all (·.isEmpty))) = .ok stop := ok
  rw [failed] at ok
  cases ok

theorem followConnection_eq_ok_iff {edge : GraphConnection} {target : Option INode} :
    followConnection runData pinData edge = .ok target ↔
      ReadableRuns runData edge.fromNode.name edge.type edge.outputIndex ∧
        (LiveConnection runData pinData edge ∧ target = some edge.toNode ∨
          ¬ LiveConnection runData pinData edge ∧ target = none) := by
  rw [← getIncomingDataFromAnyRun_eq_ok_iff, followConnection]
  cases read : getIncomingDataFromAnyRun runData edge.fromNode.name edge.type edge.outputIndex with
  | error error =>
    constructor
    · intro success
      cases success
    · rintro ⟨⟨found, success⟩, _⟩
      cases success
  | ok found =>
    have items := exists_itemsInRun_iff read
    have exists' : ∃ other, Except.ok (ε := ExecutionError) found = .ok other := ⟨found, rfl⟩
    have live : LiveConnection runData pinData edge ↔ ¬ (found.all (·.1.isEmpty) &&
          !pinData.has edge.fromNode.name) = true := by
      rw [LiveConnection, items, Bool.and_eq_true, not_and_or, or_comm,
        Bool.not_eq_true', Bool.not_eq_false]
    simp only [exists', true_and, live]
    change (Except.ok _ : Except ExecutionError _) = _ ↔ _
    cases (found.all (·.1.isEmpty) && !pinData.has edge.fromNode.name) with
    | false | true => simp [eq_comm]

abbrev SearchStep (graph : DirectedGraph) (destination : INode)
    (runData : IRunData) (pinData : IPinData) : INode → INode → Prop :=
  BranchSearch.Step (isStartNode graph destination runData pinData)
    graph.getDirectChildConnections (followConnection runData pinData)

theorem isStartNode_eq_true_iff (wellFormed : graph.WellFormed) (mem : node ∈ graph.getNodes)
    (readable : ReadableLoop destination runData pinData node) :
    isStartNode graph destination runData pinData node = .ok true ↔
      StopNode graph destination runData pinData node := by
  obtain ⟨stop, tested, exactly⟩ := isStartNode_eq_ok wellFormed mem readable
  rw [tested, Except.ok.injEq, exactly]

theorem isStartNode_eq_false_iff (wellFormed : graph.WellFormed) (mem : node ∈ graph.getNodes)
    (readable : ReadableLoop destination runData pinData node) :
    isStartNode graph destination runData pinData node = .ok false ↔
      ¬ StopNode graph destination runData pinData node := by
  obtain ⟨stop, tested, exactly⟩ := isStartNode_eq_ok wellFormed mem readable
  rw [tested, Except.ok.injEq, ← exactly, Bool.not_eq_true]

theorem sound_iff_readableNode (wellFormed : graph.WellFormed) (mem : node ∈ graph.getNodes) :
    BranchSearch.Sound (isStartNode graph destination runData pinData)
        graph.getDirectChildConnections (followConnection runData pinData)
        node ↔
      ReadableNode graph destination runData pinData node := by
  have edges := getDirectChildConnections_of_mem mem
  constructor
  · intro sound
    have readable : ReadableLoop destination runData pinData node := by
      rcases sound with stopped | ⟨goesOn, _⟩
      · exact readableLoop_of_isStartNode_eq_ok wellFormed mem stopped
      · exact readableLoop_of_isStartNode_eq_ok wellFormed mem goesOn
    refine ⟨readable, fun notStop edge listed starts => ?_⟩
    rcases sound with stopped | ⟨_, edgesOf, isEdges, followed⟩
    · exact absurd ((isStartNode_eq_true_iff wellFormed mem readable).mp stopped) notStop
    · cases edges.symm.trans isEdges
      obtain ⟨target, follows⟩ := followed edge (mem_filter.mpr ⟨listed, by simpa using starts⟩)
      exact (followConnection_eq_ok_iff.mp follows).1
  · rintro ⟨readable, outgoing⟩
    by_cases stop : StopNode graph destination runData pinData node
    · exact .inl ((isStartNode_eq_true_iff wellFormed mem readable).mpr stop)
    · refine .inr ⟨(isStartNode_eq_false_iff wellFormed mem
        readable).mpr stop, _, edges, fun edge listed => ?_⟩
      obtain ⟨inGraph, starts⟩ := mem_filter.mp listed
      have runs := outgoing stop edge inGraph (of_decide_eq_true starts)
      by_cases live : LiveConnection runData pinData edge
      · exact ⟨_, followConnection_eq_ok_iff.mpr ⟨runs, .inl ⟨live, rfl⟩⟩⟩
      · exact ⟨_, followConnection_eq_ok_iff.mpr ⟨runs, .inr ⟨live, rfl⟩⟩⟩

theorem searchStep_iff (wellFormed : graph.WellFormed) (mem : node ∈ graph.getNodes)
    (readable : ReadableNode graph destination runData pinData node)
    {other : INode} :
    SearchStep graph destination runData pinData node other ↔
      LiveStep graph destination runData pinData node other := by
  have edges := getDirectChildConnections_of_mem mem
  constructor
  · rintro ⟨goesOn, edgesOf, isEdges, edge, listed, follows⟩
    have notStop := (isStartNode_eq_false_iff wellFormed mem readable.loop).mp goesOn
    cases edges.symm.trans isEdges
    obtain ⟨inGraph, starts⟩ := mem_filter.mp listed
    obtain ⟨_, ⟨live, isTarget⟩ | ⟨_, isTarget⟩⟩ := followConnection_eq_ok_iff.mp follows
    · exact ⟨notStop, edge, inGraph, of_decide_eq_true starts, live,
        (Option.some.inj isTarget).symm⟩
    · cases isTarget
  · rintro ⟨notStop, edge, inGraph, starts, live, rfl⟩
    refine ⟨(isStartNode_eq_false_iff wellFormed mem readable.loop).mpr notStop, _, edges, edge,
      mem_filter.mpr ⟨inGraph, by simpa using starts⟩, ?_⟩
    exact followConnection_eq_ok_iff.mpr
      ⟨readable.outgoing notStop edge inGraph starts, .inl ⟨live, rfl⟩⟩

theorem liveStep_mem (wellFormed : graph.WellFormed)
    (mem : trigger ∈ graph.getNodes) (path : Relation.ReflTransGen
      (LiveStep graph destination runData pinData) trigger node) :
    node ∈ graph.getNodes := by
  refine mem_getNodes_of_reachable wellFormed mem (Relation.ReflTransGen.mono ?_ _ _ path)
  rintro first second ⟨_, edge, listed, starts, _, ends⟩
  exact ⟨edge, listed, starts, ends⟩

theorem searchStep_mem (wellFormed : graph.WellFormed)
    (mem : trigger ∈ graph.getNodes) (path : Relation.ReflTransGen
      (SearchStep graph destination runData pinData) trigger node) :
    node ∈ graph.getNodes := by
  induction path with
  | refl => exact mem
  | tail _ step ih =>
    obtain ⟨_, edgesOf, isEdges, edge, listed, follows⟩ := step
    cases (getDirectChildConnections_of_mem ih).symm.trans isEdges
    obtain ⟨_, ⟨_, isTarget⟩ | ⟨_, isTarget⟩⟩ := followConnection_eq_ok_iff.mp follows
    · cases isTarget
      exact wellFormed.toMem edge (mem_filter.mp listed).1
    · cases isTarget

theorem liveStep_of_searchStep (wellFormed : graph.WellFormed)
    (mem : trigger ∈ graph.getNodes) (readable : ∀ node, Relation.ReflTransGen
      (LiveStep graph destination runData pinData) trigger node →
        ReadableNode graph destination runData pinData node)
    (path : Relation.ReflTransGen (SearchStep graph destination runData pinData) trigger node) :
    Relation.ReflTransGen (LiveStep graph destination runData pinData) trigger node := by
  induction path with
  | refl => exact .refl
  | tail _ step ih =>
    exact ih.tail ((searchStep_iff wellFormed
      (liveStep_mem wellFormed mem ih) (readable _ ih)).mp step)

theorem searchStep_of_liveStep (wellFormed : graph.WellFormed)
    (mem : trigger ∈ graph.getNodes) (readable : ∀ node, Relation.ReflTransGen
      (SearchStep graph destination runData pinData) trigger node →
        ReadableNode graph destination runData pinData node)
    (path : Relation.ReflTransGen (LiveStep graph destination runData pinData) trigger node) :
    Relation.ReflTransGen (SearchStep graph destination runData pinData) trigger node := by
  induction path with
  | refl => exact .refl
  | tail _ step ih =>
    exact ih.tail ((searchStep_iff wellFormed
      (searchStep_mem wellFormed mem ih) (readable _ ih)).mpr step)

theorem closed_getNodes (wellFormed : graph.WellFormed) :
    BranchSearch.Closed graph.getDirectChildConnections
      (followConnection runData pinData) graph.getNodes := by
  intro vertex mem listed isListed edge inListed next follows
  cases (getDirectChildConnections_of_mem mem).symm.trans isListed
  obtain ⟨_, ⟨_, isTarget⟩ | ⟨_, isTarget⟩⟩ := followConnection_eq_ok_iff.mp follows
  · cases isTarget
    exact wellFormed.toMem edge (mem_filter.mp inListed).1
  · cases isTarget

end Exactness

namespace FrontierExample

def agent : INode := { name := "Agent" }

def tool : INode := { name := "Tool" }

def graph : DirectedGraph :=
  (empty.addNodes [agent, tool]).setConnection
    { fromNode := tool
      toNode := agent
      type := .aiTool }

def hasRun (data : ITaskDataConnections) : IRunData :=
  OrderedMap.empty.set tool.name [{ data := some data }]

theorem wellFormed : graph.WellFormed := ⟨by decide, by decide⟩

theorem isToolConnection {edge : GraphConnection} (listed : edge ∈ graph.getConnections) :
    edge.fromNode.name = tool.name ∧ edge.type = .aiTool := by
  have all : ∀ edge ∈ graph.getConnections,
      edge.fromNode.name = tool.name ∧ edge.type = .aiTool := by
    decide
  exact all edge listed

theorem no_loop {node : INode} (listed : node ∈ graph.getNodes) : node.type ≠ splitInBatches := by
  have all : ∀ node ∈ graph.getNodes, node.type ≠ splitInBatches := by
    decide
  exact all node listed

end FrontierExample

end N8n
