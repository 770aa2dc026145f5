import N8n.PartialExecution.SourceDataGroups

/-!
# Rebuilding the execution stack

`recreateNodeExecutionStack` turns run data, pinned data and start nodes into
the execution stack and the waiting entries of a restarted execution.

The data of a complete group is pushed in group order, and a source without
items pushes nothing.  So a stack item feeds every input with its own data
exactly when the group starts at the first input and all its sources have
data.
-/

namespace N8n

open List

/-- Write one slot of a waiting entry, adding whatever is missing on the way
to it. -/
def setWaitingSlot {α : Type} (waiting : WaitingSlots α) (nodeName : String) (runIndex : Nat)
    (inputType : NodeConnectionType) (inputIndex : Int) (slot : Slot α) :
    WaitingSlots α :=
  let waitingObject := waiting.entriesOf nodeName
  let taskDataConnections := (waitingObject.get? runIndex).getD .empty
  let list := (taskDataConnections.get? inputType).getD []
  waiting.set nodeName (waitingObject.set runIndex
      (taskDataConnections.set inputType (list.put inputIndex slot)))

def addWaitingExecution (waitingExecution : IWaitingForExecution)
    (nodeName : String) (runIndex : Nat) (inputType : NodeConnectionType)
    (inputIndex : Int) (executionData : Slot (List INodeExecutionData)) :
    IWaitingForExecution :=
  setWaitingSlot waitingExecution nodeName runIndex inputType inputIndex executionData

def addWaitingExecutionSource (waitingExecutionSource : IWaitingForExecutionSource)
    (nodeName : String) (runIndex : Nat) (inputType : NodeConnectionType)
    (inputIndex : Int) (sourceData : Slot ISourceData) :
    IWaitingForExecutionSource :=
  setWaitingSlot waitingExecutionSource nodeName runIndex inputType inputIndex sourceData

/-- The source entry of a connection whose data comes from the given run. -/
def sourceOf (connection : GraphConnection) (runIndex : Nat) : ISourceData :=
  { previousNode := connection.fromNode.name
    previousNodeOutput := some connection.outputIndex
    previousNodeRun := some runIndex }

def disabledNodeError (node : INode) : ExecutionError :=
  .assertion ("Graph contains disabled nodes. This is not supported. Make " ++
    "sure to pass the graph through \"findSubgraph\" before calling " ++
    "\"recreateNodeExecutionStack\". The node in question is \"" ++
    node.name ++ "\"")

def missingDataError (startNode : INode) (connection : GraphConnection) : ExecutionError :=
  .assertion ("Start node(" ++ connection.toNode.name ++ ") has an incoming " ++
    "connection with no run or pinned data. This is not supported. The " ++
    "connection in question is \"" ++ connection.fromNode.name ++ "->" ++
    startNode.name ++ "\". Are you sure the start nodes come from the " ++
    "\"findStartNodes\" function?")

/-- `incomingData` and `incomingSourceData.main` -/
structure IncomingArrays where
  data : SlotArray (List INodeExecutionData) := []
  source : SlotArray ISourceData := []

section

variable (runData : IRunData) (pinData : IPinData) (startNode : INode)

/-- Push the data and the source of a connection of a complete group.  A
source that produced nothing pushes no data. -/
def pushIncoming (incoming : IncomingArrays) (connection : GraphConnection) :
    Except ExecutionError IncomingArrays :=
  match pinData.get? connection.fromNode.name with
  | some pinned =>
    .ok
      { data := incoming.data ++ [.value pinned]
        source := incoming.source ++ [.value (sourceOf connection 0)] }
  | none =>
    if runData.has connection.fromNode.name then do
      match ← getIncomingDataFromAnyRun runData connection.fromNode.name
          connection.type connection.outputIndex with
      | some (data, runIndex) =>
        return { data := incoming.data ++ [.value data]
                 source := incoming.source ++ [.value (sourceOf connection runIndex)] }
      | none =>
        return { incoming with
                 source := incoming.source ++ [.value (sourceOf connection 0)] }
    else .error (missingDataError startNode connection)

/-- The stack item of a complete group. -/
def executeDataFor (connections : List GraphConnection) : Except ExecutionError IExecuteData := do
  let incoming ← connections.foldlM (pushIncoming runData pinData startNode) {}
  return {
    node := startNode
    data := .ofMain incoming.data
    source := some (.ofMain incoming.source) }

/-- The part of the waiting entry which a connection of an incomplete group
adds.  Pinned data is not looked at. -/
def addWaitingConnection (nodeName : String) (nextRunIndex : Nat) (recreated : ExecutionData)
    (connection : GraphConnection) :
    Except ExecutionError ExecutionData := do
  match ← getIncomingDataFromAnyRun runData connection.fromNode.name
      connection.type connection.outputIndex with
  | none => return recreated
  | some (data, _) =>
    return { recreated with
      waitingExecution := addWaitingExecution recreated.waitingExecution
        nodeName nextRunIndex connection.type connection.inputIndex
        (.value data)
      waitingExecutionSource := addWaitingExecutionSource
        recreated.waitingExecutionSource nodeName nextRunIndex
        connection.type connection.inputIndex
        (.value (sourceOf connection nextRunIndex)) }

def addGroup (recreated : ExecutionData) (group : SourceConnectionGroup) :
    Except ExecutionError ExecutionData :=
  if group.complete then do
    let executeData ← executeDataFor runData pinData startNode group.connections
    return { recreated with
      nodeExecutionStack := recreated.nodeExecutionStack ++ [executeData] }
  else
    let nextRunIndex := ((recreated.waitingExecution.get? startNode.name).map SortedMap.size).getD 0
    group.connections.foldlM (addWaitingConnection runData startNode.name nextRunIndex) recreated

end

/-- The stack item of a start node without Main parents. -/
def blankExecuteData (startNode : INode) : IExecuteData :=
  { node := startNode
    data := .ofMain [.value [INodeExecutionData.blank]]
    source := none }

section

variable (localeCompare : String → String → Int)

def addStartNode (graph : DirectedGraph) (runData : IRunData) (pinData : IPinData)
    (recreated : ExecutionData) (startNode : INode) :
    Except ExecutionError ExecutionData := do
  let parentConnections ← graph.getDirectParentConnections startNode
  if parentConnections.filter (·.IsMain) = [] then
    return { recreated with
      nodeExecutionStack := recreated.nodeExecutionStack ++ [blankExecuteData startNode] }
  else
    (getSourceDataGroups localeCompare graph startNode runData pinData).foldlM
      (addGroup runData pinData startNode) recreated

def assertEnabled (node : INode) : Except ExecutionError Unit :=
  if node.IsDisabled then .error (disabledNodeError node) else .ok ()

def recreateNodeExecutionStack
    (graph : DirectedGraph) (startNodes : List INode) (runData : IRunData)
    (pinData : IPinData) : Except ExecutionError ExecutionData := do
  graph.getNodes.forM assertEnabled
  startNodes.foldlM (addStartNode localeCompare graph runData pinData) {}

end

section ExecuteData

variable {runData : IRunData} {pinData : IPinData} {startNode : INode}

/-- The data a connection has to deliver, with the run it comes from. -/
inductive SuppliedBy (runData : IRunData) (pinData : IPinData)
    (connection : GraphConnection) : List INodeExecutionData → Nat → Prop where
  | pinned {data : List INodeExecutionData} : pinData.get? connection.fromNode.name = some data →
      SuppliedBy runData pinData connection data 0
  | output {data : List INodeExecutionData} {runIndex : Nat} :
      pinData.get? connection.fromNode.name = none →
      FirstOutput runData connection.fromNode.name connection.type
        connection.outputIndex data runIndex →
      SuppliedBy runData pinData connection data runIndex
  | nothing : pinData.get? connection.fromNode.name = none →
      NoOutput runData connection.fromNode.name connection.type connection.outputIndex →
      SuppliedBy runData pinData connection [] 0

/-- The source of the connection is pinned, or one of its runs has items on
the output of the connection. -/
def HasItems (runData : IRunData) (pinData : IPinData) (connection : GraphConnection) : Prop :=
  pinData.has connection.fromNode.name = true ∨ ∃ runIndex data, data ≠ [] ∧
      getIncomingData runData connection.fromNode.name runIndex
        connection.type connection.outputIndex = .ok (some data)

/-- The item has, at the input of each connection, the data of that
connection and a source that names the connection and the run. -/
def FeedsOwnInputs (runData : IRunData) (pinData : IPinData)
    (connections : List GraphConnection) (item : IExecuteData) : Prop :=
  ∀ connection ∈ connections, ∃ data runIndex,
    SuppliedBy runData pinData connection data runIndex ∧ (item.data.get? .main).bind
        (fun slots => (slots.at' connection.inputIndex).value?) = some data ∧
      (item.source.bind (·.get? .main)).bind
        (fun slots => (slots.at' connection.inputIndex).value?) =
          some (sourceOf connection runIndex)

variable {incoming : IncomingArrays} {connection : GraphConnection}

theorem pushIncoming_eq_ok {pushed : IncomingArrays}
    (ok : pushIncoming runData pinData startNode incoming connection = .ok pushed) :
    ∃ runIndex, pushed.source = incoming.source ++ [.value (sourceOf connection runIndex)] ∧
      ((HasItems runData pinData connection ∧ ∃ data,
          SuppliedBy runData pinData connection data runIndex ∧
            pushed.data = incoming.data ++ [.value data]) ∨
        (¬HasItems runData pinData connection ∧ pushed.data = incoming.data)) := by
  rw [pushIncoming] at ok
  cases pinned : pinData.get? connection.fromNode.name with
  | some data =>
    rw [pinned] at ok
    cases ok
    exact ⟨0, rfl, .inl ⟨.inl (by rw [OrderedMap.has, pinned]; rfl), data, .pinned pinned, rfl⟩⟩
  | none =>
    rw [pinned] at ok
    simp only at ok
    split at ok
    · obtain ⟨outcome, found, ok⟩ := Except.bind_eq_ok_iff.mp ok
      cases outcome with
      | some dataAndRun =>
        obtain ⟨data, runIndex⟩ := dataAndRun
        cases ok
        have first := firstOutput_of_getIncomingDataFromAnyRun found
        exact ⟨runIndex, rfl, .inl ⟨.inr ⟨runIndex, data, first.nonempty, first.produced⟩,
            data, .output pinned first, rfl⟩⟩
      | none =>
        cases ok
        have nothing := noOutput_of_getIncomingDataFromAnyRun found
        refine ⟨0, rfl, .inr ⟨?_, rfl⟩⟩
        rintro (held | ⟨runIndex, data, nonempty, produced⟩)
        · rw [OrderedMap.has, pinned] at held
          cases held
        · exact nonempty (nothing runIndex data produced)
    · cases ok

/-- What is known of the arrays after the pushes of some connections. -/
structure Pushed (runData : IRunData) (pinData : IPinData)
    (connections : List GraphConnection) (incoming : IncomingArrays) :
    Prop where
  sourceLength : incoming.source.length = connections.length
  dataLength : incoming.data.length ≤ connections.length
  fullIff : incoming.data.length = connections.length ↔
    ∀ connection ∈ connections, HasItems runData pinData connection
  aligned : incoming.data.length = connections.length →
    ∀ (position : Nat) (connection : GraphConnection), connections[position]? = some connection →
        ∃ data runIndex, SuppliedBy runData pinData connection data runIndex ∧
          incoming.data[position]? = some (.value data) ∧
          incoming.source[position]? = some (.value (sourceOf connection runIndex))

theorem Pushed.step {folded : List GraphConnection} {incoming pushed : IncomingArrays}
    (before : Pushed runData pinData folded incoming)
    (ok : pushIncoming runData pinData startNode incoming connection = .ok pushed) :
    Pushed runData pinData (folded ++ [connection]) pushed := by
  have sourceLength := before.sourceLength
  have dataLength := before.dataLength
  obtain ⟨runIndex, source, ⟨items, data, supplied, pushedData⟩ |
    ⟨noItems, pushedData⟩⟩ := pushIncoming_eq_ok ok
  · have full : pushed.data.length = (folded ++ [connection]).length ↔
        incoming.data.length = folded.length := by
      simp [pushedData]
    refine
      { sourceLength := by simp [source, sourceLength]
        dataLength := by simpa [pushedData] using dataLength
        fullIff := ?_
        aligned := ?_ }
    · rw [full, before.fullIff, forall_mem_append, forall_mem_singleton]
      exact (and_iff_left items).symm
    · intro length position other found
      have beforeLength := full.mp length
      rcases Nat.lt_trichotomy position folded.length with
        earlier | rfl | behind
      · rw [getElem?_append_left earlier] at found
        obtain ⟨otherData, otherRun, otherSupplied, dataFound, sourceFound⟩ :=
          before.aligned beforeLength position other found
        refine ⟨otherData, otherRun, otherSupplied, ?_, ?_⟩
        · rw [pushedData, getElem?_append_left (by omega), dataFound]
        · rw [source, getElem?_append_left (by omega), sourceFound]
      · rw [getElem?_concat_length] at found
        cases found
        refine ⟨data, runIndex, supplied, ?_, ?_⟩
        · rw [pushedData, ← beforeLength, getElem?_concat_length]
        · rw [source, ← sourceLength, getElem?_concat_length]
      · rw [getElem?_eq_none (by simp; omega)] at found
        cases found
  · have short : pushed.data.length ≠ (folded ++ [connection]).length := by
      simp [pushedData]
      omega
    exact
      { sourceLength := by simp [source, sourceLength]
        dataLength := by simp [pushedData]; omega
        fullIff := ⟨fun full => absurd full short, fun all =>
          absurd (all connection (by simp)) noItems⟩
        aligned := fun full => absurd full short }

variable {connections : List GraphConnection}

theorem pushed_of_foldlM (ok : connections.foldlM (pushIncoming runData pinData startNode) {} =
      .ok incoming) : Pushed runData pinData connections incoming := by
  have start : Pushed runData pinData [] {} :=
    { sourceLength := rfl
      dataLength := Nat.le_refl 0
      fullIff := by simp
      aligned := by simp }
  exact foldlM_invariant (Pushed runData pinData)
    (fun folded state connection _ before result moved => before.step moved)
    start ok

def StartsAtFirstInput (connections : List GraphConnection) : Prop :=
  ∀ connection, connections.head? = some connection → connection.inputIndex = 0

theorem executeDataFor_eq_ok {item : IExecuteData}
    (ok : executeDataFor runData pinData startNode connections = .ok item) :
    ∃ incoming, Pushed runData pinData connections incoming ∧ item =
        { node := startNode
          data := .ofMain incoming.data
          source := some (.ofMain incoming.source) } := by
  obtain ⟨incoming, folded, ok⟩ := Except.bind_eq_ok_iff.mp ok
  exact ⟨incoming, pushed_of_foldlM folded, (Except.ok.inj ok).symm⟩

theorem feedsOwnInputs_iff {item : IExecuteData} {start : Int} (nonempty : connections ≠ [])
    (consecutive : ConsecutiveFrom start connections)
    (ok : executeDataFor runData pinData startNode connections = .ok item) :
    FeedsOwnInputs runData pinData connections item ↔ StartsAtFirstInput connections ∧
        ∀ connection ∈ connections, HasItems runData pinData connection := by
  obtain ⟨incoming, pushed, rfl⟩ := executeDataFor_eq_ok ok
  have positive := length_pos_of_ne_nil nonempty
  simp only [FeedsOwnInputs, ITaskDataConnections.get?_ofMain,
    ITaskDataConnectionsSource.get?_ofMain, Option.bind_some,
    SlotArray.value?_at'_eq_some_iff]
  constructor
  · intro feeds
    -- The last input of the group lies inside the data array, which is no
    -- longer than the group.
    obtain ⟨_, _, _, ⟨startNonneg, _⟩, _⟩ := feeds connections[0] (getElem_mem positive)
    rw [consecutive 0 _ (getElem?_eq_getElem positive)] at startNonneg
    have lastPosition : connections.length - 1 < connections.length := by omega
    obtain ⟨_, _, _, ⟨_, lastFound⟩, _⟩ :=
      feeds connections[connections.length - 1] (getElem_mem lastPosition)
    rw [consecutive _ _ (getElem?_eq_getElem lastPosition)] at lastFound
    have inside := (List.getElem?_eq_some_iff.mp lastFound).1
    have dataLength := pushed.dataLength
    have full : incoming.data.length = connections.length := by omega
    refine ⟨?_, pushed.fullIff.mp full⟩
    intro connection head
    rw [consecutive 0 connection (by rw [← head, head?_eq_getElem?])]
    omega
  · rintro ⟨startsAtFirst, items⟩ connection mem
    have full := pushed.fullIff.mpr items
    obtain ⟨position, inside, rfl⟩ := mem_iff_getElem.mp mem
    have startZero : start = 0 := by
      have head := startsAtFirst connections[0]
        (by rw [head?_eq_getElem?, getElem?_eq_getElem positive])
      rw [consecutive 0 _ (getElem?_eq_getElem positive)] at head
      omega
    obtain ⟨data, runIndex, supplied, dataFound, sourceFound⟩ :=
      pushed.aligned full position _ (getElem?_eq_getElem inside)
    have index : connections[position].inputIndex = position := by
      rw [consecutive position _ (getElem?_eq_getElem inside), startZero, Int.zero_add]
    refine ⟨data, runIndex, supplied, ?_, ?_⟩
    · rw [index]
      exact ⟨Int.natCast_nonneg position, dataFound⟩
    · rw [index]
      exact ⟨Int.natCast_nonneg position, sourceFound⟩

end ExecuteData

section Recreated

variable {localeCompare : String → String → Int} {graph : DirectedGraph}
  {runData : IRunData} {pinData : IPinData}

/-- Items are only added, and a node with a waiting entry keeps one. -/
structure Extends (before after : ExecutionData) : Prop where
  stack : before.nodeExecutionStack ⊆ after.nodeExecutionStack
  waiting : ∀ nodeName, (before.waitingExecution.entriesOf nodeName).entries ≠ [] →
    (after.waitingExecution.entriesOf nodeName).entries ≠ []

theorem Extends.refl (recreated : ExecutionData) : Extends recreated recreated :=
  { stack := List.Subset.refl _
    waiting := fun _ held => held }

theorem Extends.trans (first second third : ExecutionData)
    (left : Extends first second) (right : Extends second third) :
    Extends first third :=
  { stack := List.Subset.trans left.stack right.stack
    waiting := fun nodeName held =>
      right.waiting nodeName (left.waiting nodeName held) }

variable {nodeName : String}

theorem entriesOf_setWaitingSlot_ne_nil {α : Type} {waiting : WaitingSlots α} {runIndex : Nat}
    {inputType : NodeConnectionType} {inputIndex : Int} {slot : Slot α}
    {other : String} :
    (WaitingSlots.entriesOf (setWaitingSlot waiting nodeName runIndex inputType
        inputIndex slot) other).entries ≠ [] ↔
      other = nodeName ∨ (waiting.entriesOf other).entries ≠ [] := by
  rw [setWaitingSlot, WaitingSlots.entriesOf_set]
  split
  next same =>
    refine iff_of_true ?_ (.inl same.symm)
    exact ne_nil_of_mem (SortedMap.mem_entries_set.mpr (.inl rfl))
  next ne =>
    rw [or_iff_right (Ne.symm ne)]

variable {connection : GraphConnection} {nextRunIndex : Nat} {before after : ExecutionData}

theorem addWaitingConnection_eq_ok (ok : addWaitingConnection runData nodeName nextRunIndex before
      connection = .ok after) :
    (NoOutput runData connection.fromNode.name connection.type
        connection.outputIndex ∧ after = before) ∨
      ∃ data runIndex, FirstOutput runData connection.fromNode.name
        connection.type connection.outputIndex data runIndex ∧
        after = { before with
            waitingExecution := addWaitingExecution before.waitingExecution
              nodeName nextRunIndex connection.type connection.inputIndex
              (.value data)
            waitingExecutionSource := addWaitingExecutionSource
              before.waitingExecutionSource nodeName nextRunIndex
              connection.type connection.inputIndex
              (.value (sourceOf connection nextRunIndex)) } := by
  obtain ⟨outcome, found, ok⟩ := Except.bind_eq_ok_iff.mp ok
  match outcome, ok with
  | none, ok =>
    cases ok
    exact .inl ⟨noOutput_of_getIncomingDataFromAnyRun found, rfl⟩
  | some (data, runIndex), ok =>
    cases ok
    exact .inr ⟨data, runIndex, firstOutput_of_getIncomingDataFromAnyRun found, rfl⟩

theorem addWaitingConnection_extends (ok : addWaitingConnection runData nodeName nextRunIndex before
      connection = .ok after) : Extends before after := by
  rcases addWaitingConnection_eq_ok ok with
    ⟨_, rfl⟩ | ⟨data, runIndex, _, rfl⟩
  · exact Extends.refl after
  · exact
      { stack := List.Subset.refl _
        waiting := fun other held =>
          entriesOf_setWaitingSlot_ne_nil.mpr (.inr held) }

variable {startNode : INode} {group : SourceConnectionGroup}

theorem addGroup_eq_ok (success : addGroup runData pinData startNode before group = .ok after) :
    (group.complete = true ∧ ∃ item,
      executeDataFor runData pinData startNode group.connections = .ok item ∧ after = { before with
          nodeExecutionStack := before.nodeExecutionStack ++ [item] }) ∨
      (group.complete = false ∧ ∃ nextRunIndex, group.connections.foldlM
        (addWaitingConnection runData startNode.name nextRunIndex) before = .ok after) := by
  rw [addGroup] at success
  cases complete : group.complete with
  | true =>
    rw [if_pos complete] at success
    cases built : executeDataFor runData pinData startNode group.connections with
    | error error =>
      rw [built] at success
      cases success
    | ok item =>
      rw [built] at success
      exact .inl ⟨rfl, item, rfl, (Except.ok.inj success).symm⟩
  | false =>
    rw [if_neg (by rw [complete]; exact Bool.false_ne_true)] at success
    exact .inr ⟨rfl, _, success⟩

theorem addGroup_extends (ok : addGroup runData pinData startNode before group = .ok after) :
    Extends before after := by
  rcases addGroup_eq_ok ok with
    ⟨_, item, _, rfl⟩ | ⟨_, nextRunIndex, folded⟩
  · exact
      { stack := subset_append_left _ _
        waiting := fun _ held => held }
  · exact (foldlM_exists_step Extends.refl Extends.trans
      (fun _ _ _ _ moved => addWaitingConnection_extends moved) folded).1

theorem addStartNode_eq_ok (ok : addStartNode localeCompare graph runData pinData before
      startNode = .ok after) :
    startNode ∈ graph.getNodes ∧
      (((∀ connection ∈ graph.getConnectionsTo startNode, ¬connection.IsMain) ∧
        after = { before with
          nodeExecutionStack := before.nodeExecutionStack ++ [blankExecuteData startNode] }) ∨
      ((∃ connection ∈ graph.getConnectionsTo startNode, connection.IsMain) ∧
        (getSourceDataGroups localeCompare graph startNode runData
          pinData).foldlM (addGroup runData pinData startNode) before = .ok after)) := by
  rw [addStartNode] at ok
  by_cases mem : startNode ∈ graph.getNodes
  · rw [DirectedGraph.getDirectParentConnections_of_mem mem] at ok
    refine ⟨mem, ?_⟩
    change (if _ then _ else _) = _ at ok
    split at ok
    next noMain =>
      refine .inl ⟨?_, (Except.ok.inj ok).symm⟩
      intro connection isParent main
      exact filter_eq_nil_iff.mp noMain connection isParent (decide_eq_true main)
    next someMain =>
      refine .inr ⟨?_, ok⟩
      obtain ⟨connection, isParent, main⟩ := exists_mem_of_ne_nil _ someMain
        |>.imp fun connection found => mem_filter.mp found
      exact ⟨connection, isParent, of_decide_eq_true main⟩
  · rw [DirectedGraph.getDirectParentConnections_of_not_mem mem] at ok
    cases ok

theorem addStartNode_extends (ok : addStartNode localeCompare graph runData pinData before
      startNode = .ok after) : Extends before after := by
  rcases (addStartNode_eq_ok ok).2 with ⟨_, rfl⟩ | ⟨_, folded⟩
  · exact
      { stack := subset_append_left _ _
        waiting := fun _ held => held }
  · exact (foldlM_exists_step Extends.refl Extends.trans
      (fun _ _ _ _ moved => addGroup_extends moved) folded).1

variable {recreated : ExecutionData} {startNodes : List INode}

theorem recreateNodeExecutionStack_foldlM
    (success : recreateNodeExecutionStack localeCompare graph startNodes
      runData pinData = .ok recreated) :
    startNodes.foldlM (addStartNode localeCompare graph runData pinData) {} = .ok recreated := by
  rw [recreateNodeExecutionStack] at success
  cases enabled : graph.getNodes.forM assertEnabled with
  | error error =>
    rw [enabled] at success
    cases success
  | ok =>
    rw [enabled] at success
    exact success

theorem recreateNodeExecutionStack_exists_addGroup
    (ok : recreateNodeExecutionStack localeCompare graph startNodes
      runData pinData = .ok recreated) (startMem : startNode ∈ startNodes)
    (hasMain : ∃ connection ∈ graph.getConnectionsTo startNode, connection.IsMain)
    (groupMem : group ∈ getSourceDataGroups localeCompare graph startNode runData pinData) :
    ∃ before after, addGroup runData pinData startNode before group =
      .ok after ∧ Extends after recreated := by
  obtain ⟨before, after, _, moved, later⟩ := (foldlM_exists_step Extends.refl Extends.trans
      (fun _ _ _ _ moved => addStartNode_extends moved)
      (recreateNodeExecutionStack_foldlM ok)).2 startNode startMem
  rcases (addStartNode_eq_ok moved).2 with ⟨noMain, _⟩ | ⟨_, folded⟩
  · obtain ⟨connection, mem, main⟩ := hasMain
    exact absurd main (noMain connection mem)
  · obtain ⟨middle, added, _, groupStep, rest⟩ := (foldlM_exists_step Extends.refl Extends.trans
        (fun _ _ _ _ moved => addGroup_extends moved) folded).2 group
        groupMem
    exact ⟨middle, added, groupStep, Extends.trans _ _ _ rest later⟩

end Recreated

section Example

namespace RecreateExample

def compareNames (left right : String) : Int :=
  if left = right then 0 else if left < right then -1 else 1

def merge : INode := { name := "merge" }

def source (name : String) : INode := { name := name }

def connect (name : String) (inputIndex : Int) : GraphConnection :=
  { fromNode := source name
    toNode := merge
    inputIndex := inputIndex }

def graphOf (connections : List GraphConnection) : DirectedGraph :=
  connections.foldl DirectedGraph.setConnection
    (DirectedGraph.empty.addNodes (merge :: connections.map (·.fromNode)))

def ranOnce : List ITaskData :=
  [{ data := some (.ofMain [.value [INodeExecutionData.blank]]) }]

def runDataOf (names : List String) : IRunData :=
  names.foldl (fun runData name => runData.set name ranOnce) .empty

def twoInputs : DirectedGraph := graphOf [connect "left" 0, connect "right" 1]

def sharedSecondInput : DirectedGraph :=
  graphOf [connect "left" 0, connect "right" 1, connect "right again" 1]

end RecreateExample

open RecreateExample

end Example

end N8n
