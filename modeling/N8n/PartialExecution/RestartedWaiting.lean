import N8n.Engine.NoLostInput
import N8n.PartialExecution.RecreateStack

/-!
# Waiting entries of a restarted execution

`addNodeToBeExecuted` counts on waiting entries with one slot for each main
input, and takes the first one without `null` for complete.  The entries of
`recreateNodeExecutionStack` only have slots up to the last input with data,
and none of them is `null`.  So no entry it builds is one the engine could
have built, and the entries are as the engine expects them only if none is
built at all.
-/

namespace N8n

open WaitingSlots List

/-- What `addNodeToBeExecuted` counts on in a waiting entry. -/
structure EngineEntry (workflow : Workflow) (graph : DirectedGraph)
    (runData : IRunData) (pinData : IPinData) (recreated : ExecutionData)
    (nodeName : String) (index : Nat) : Prop where
  main : ∃ slots, recreated.waitingExecution.main nodeName index = .ok slots ∧
    slots.length = workflow.numberOfInputs nodeName ∧ .null ∈ slots ∧
    ∀ (inputIndex : Nat) slot, slots[inputIndex]? = some slot →
      slot = .null ∨ ∃ connection ∈ graph.getConnections, ∃ items runIndex,
        connection.toNode.name = nodeName ∧ connection.IsMain ∧ connection.inputIndex = inputIndex ∧
          SuppliedBy runData pinData connection items runIndex ∧
          slot = .value items ∧ ∃ sources,
            recreated.waitingExecutionSource.main nodeName index = .ok sources ∧
            sources.at' inputIndex = .value (sourceOf connection runIndex)
  released : ∀ (start before after : RunExecutionData)
    (deliveries : List InputDelivery) (delivery : InputDelivery),
    start.executionData = recreated →
    DeliveryRun workflow nodeName (fun _ _ => True) start deliveries before →
    DeliveryRun workflow nodeName (fun _ _ => True) before [delivery] after →
    (before.executionData.waitingExecution.entriesOf nodeName).get? index ≠ none →
    (after.executionData.waitingExecution.entriesOf nodeName).get? index = none →
    ∃ item ∈ after.executionData.nodeExecutionStack,
      item ∉ before.executionData.nodeExecutionStack ∧ ∃ slots, item.data.get? .main = some slots ∧
          ∀ inputIndex : Nat, inputIndex < workflow.numberOfInputs nodeName →
            ((slots.at' inputIndex).value?).isSome

/-- Every waiting entry is one the engine could have built. -/
def WaitingAsInEngine (workflow : Workflow) (graph : DirectedGraph)
    (runData : IRunData) (pinData : IPinData) (recreated : ExecutionData) :
    Prop :=
  ∀ nodeName index, (recreated.waitingExecution.entriesOf nodeName).get? index ≠ none →
      EngineEntry workflow graph runData pinData recreated nodeName index

/-- No source of an incomplete group of a start node has items on the output
of its connection. -/
def NoPartialInputs (localeCompare : String → String → Int)
    (graph : DirectedGraph) (startNodes : List INode) (runData : IRunData)
    (pinData : IPinData) : Prop :=
  ∀ startNode ∈ startNodes, (∃ connection ∈ graph.getConnectionsTo startNode, connection.IsMain) →
    ∀ group ∈ getSourceDataGroups localeCompare graph startNode runData pinData,
      group.complete = false →
      ∀ connection ∈ group.connections,
        NoOutput runData connection.fromNode.name connection.type connection.outputIndex

section WithoutNull

variable {localeCompare : String → String → Int} {graph : DirectedGraph}
  {runData : IRunData} {pinData : IPinData}

def WithoutNull (waiting : IWaitingForExecution) : Prop :=
  ∀ nodeName index slots, waiting.main nodeName index = .ok slots → .null ∉ slots

theorem not_mem_put {α : Type} {slots : SlotArray α} {inputIndex : Int}
    {item : α} (absent : .null ∉ slots) :
    .null ∉ slots.put inputIndex (.value item) := by
  rw [SlotArray.put]
  split
  · exact absent
  · split
    · intro mem
      rcases mem_or_eq_of_mem_set mem with mem | equal
      · exact absent mem
      · cases equal
    · simp only [mem_append, mem_replicate, mem_singleton, not_or]
      refine ⟨⟨absent, ?_⟩, ?_⟩
      · intro hole
        cases hole.2
      · intro same
        cases same

theorem WithoutNull.addWaitingExecution {waiting : IWaitingForExecution}
    (withoutNull : WithoutNull waiting) (nodeName : String) (runIndex : Nat)
    (inputType : NodeConnectionType) (inputIndex : Int)
    (items : List INodeExecutionData) :
    WithoutNull (N8n.addWaitingExecution waiting nodeName runIndex inputType
      inputIndex (.value items)) := by
  intro other index slots found
  rw [N8n.addWaitingExecution, setWaitingSlot, main_eq_ok, entriesOf_set] at found
  obtain ⟨connections, entry, main⟩ := found
  have before : ∀ old oldSlots, (waiting.entriesOf nodeName).get? runIndex = some old →
      old.get? .main = some oldSlots → .null ∉ oldSlots :=
    fun old oldSlots oldEntry oldMain => withoutNull nodeName runIndex oldSlots
      (main_eq_ok.mpr ⟨old, oldEntry, oldMain⟩)
  split at entry
  next same =>
    rw [SortedMap.get?_set] at entry
    split at entry
    next same =>
      cases entry
      have oldSlots : ∀ oldSlots, (((waiting.entriesOf nodeName).get? runIndex).getD .empty).get?
            .main = some oldSlots → .null ∉ oldSlots := by
        intro oldSlots
        cases stored : (waiting.entriesOf nodeName).get? runIndex with
        | none => simp
        | some old => exact before old oldSlots stored
      rw [OrderedMap.get?_set] at main
      split at main
      next isMain =>
        cases main
        apply not_mem_put
        rw [isMain]
        cases list : (((waiting.entriesOf nodeName).get? runIndex).getD .empty).get? .main with
        | none => simp
        | some old => exact oldSlots old list
      · exact oldSlots slots main
    · exact withoutNull nodeName index slots (main_eq_ok.mpr ⟨connections, entry, main⟩)
  · exact withoutNull other index slots (main_eq_ok.mpr ⟨connections, entry, main⟩)

theorem addGroup_withoutNull {startNode : INode} {before after : ExecutionData}
    {group : SourceConnectionGroup}
    (withoutNull : WithoutNull before.waitingExecution)
    (ok : addGroup runData pinData startNode before group = .ok after) :
    WithoutNull after.waitingExecution := by
  rcases addGroup_eq_ok ok with
    ⟨_, item, _, rfl⟩ | ⟨_, nextRunIndex, folded⟩
  · exact withoutNull
  · refine foldlM_preserves (fun state => WithoutNull state.waitingExecution) ?_ withoutNull folded
    intro state edge _ stateWithoutNull result moved
    rcases addWaitingConnection_eq_ok moved with
      ⟨_, rfl⟩ | ⟨data, runIndex, _, rfl⟩
    · exact stateWithoutNull
    · exact stateWithoutNull.addWaitingExecution _ _ _ _ _

theorem recreateNodeExecutionStack_withoutNull {startNodes : List INode} {recreated : ExecutionData}
    (ok : recreateNodeExecutionStack localeCompare graph startNodes
      runData pinData = .ok recreated) :
    WithoutNull recreated.waitingExecution := by
  refine foldlM_preserves (fun state => WithoutNull state.waitingExecution) ?_ ?_
    (recreateNodeExecutionStack_foldlM ok)
  · intro state startNode _ stateWithoutNull result moved
    rcases (addStartNode_eq_ok moved).2 with ⟨_, rfl⟩ | ⟨_, folded⟩
    · exact stateWithoutNull
    · exact foldlM_preserves (fun state => WithoutNull state.waitingExecution)
        (fun _ _ _ groupWithoutNull _ groupStep =>
          addGroup_withoutNull groupWithoutNull groupStep)
        stateWithoutNull folded
  · intro nodeName index slots found
    cases found

end WithoutNull

section Restarted

variable {localeCompare : String → String → Int} {graph : DirectedGraph} {runData : IRunData}
  {pinData : IPinData} {recreated : ExecutionData} {startNodes : List INode}

theorem recreateNodeExecutionStack_waiting_empty
    (ok : recreateNodeExecutionStack localeCompare graph startNodes runData pinData = .ok recreated)
    (noPartial : NoPartialInputs localeCompare graph startNodes runData pinData) :
    recreated.waitingExecution = .empty := by
  refine foldlM_preserves (fun state => state.waitingExecution = .empty) ?_ rfl
    (recreateNodeExecutionStack_foldlM ok)
  intro state startNode startMem stateEmpty result moved
  rcases (addStartNode_eq_ok moved).2 with ⟨_, rfl⟩ | ⟨hasMain, folded⟩
  · exact stateEmpty
  · refine foldlM_preserves (fun state => state.waitingExecution = .empty) ?_ stateEmpty folded
    intro before group groupMem beforeEmpty after added
    rcases addGroup_eq_ok added with
      ⟨_, item, _, rfl⟩ | ⟨incomplete, nextRunIndex, connections⟩
    · exact beforeEmpty
    · refine foldlM_preserves (fun state => state.waitingExecution = .empty) ?_ beforeEmpty
        connections
      intro middle edge connectionMem middleEmpty next nextStep
      have noOutput := noPartial startNode startMem hasMain group
        groupMem incomplete edge connectionMem
      rcases addWaitingConnection_eq_ok nextStep with
        ⟨_, rfl⟩ | ⟨data, runIndex, first, _⟩
      · exact middleEmpty
      · exact absurd (noOutput runIndex data first.produced) first.nonempty

theorem exists_entry_of_partialInput {startNode : INode}
    {group : SourceConnectionGroup} {edge : GraphConnection}
    (ok : recreateNodeExecutionStack localeCompare graph startNodes
      runData pinData = .ok recreated) (startMem : startNode ∈ startNodes)
    (hasMain : ∃ edge ∈ graph.getConnectionsTo startNode, edge.IsMain)
    (groupMem : group ∈ getSourceDataGroups localeCompare graph startNode
      runData pinData) (incomplete : group.complete = false)
    (mem : edge ∈ group.connections)
    (produces : ¬NoOutput runData edge.fromNode.name edge.type edge.outputIndex) :
    (recreated.waitingExecution.entriesOf startNode.name).entries ≠ [] := by
  obtain ⟨before, after, added, kept⟩ :=
    recreateNodeExecutionStack_exists_addGroup ok startMem hasMain groupMem
  rcases addGroup_eq_ok added with ⟨complete, _⟩ | ⟨_, nextRunIndex, folded⟩
  · rw [incomplete] at complete
    cases complete
  · obtain ⟨middle, next, _, moved, later⟩ := (foldlM_exists_step Extends.refl Extends.trans
        (fun _ _ _ _ moved => addWaitingConnection_extends moved)
        folded).2 edge mem
    refine kept.waiting _ (later.waiting _ ?_)
    rcases addWaitingConnection_eq_ok moved with
      ⟨noOutput, _⟩ | ⟨data, runIndex, _, rfl⟩
    · exact absurd noOutput produces
    · exact entriesOf_setWaitingSlot_ne_nil.mpr (.inl rfl)

/-- The waiting entries are as the engine expects them if and only if no
source of an incomplete group has items. -/
theorem recreateNodeExecutionStack_waitingAsInEngine_iff
    (workflow : Workflow) {startNodes : List INode} {recreated : ExecutionData}
    (success : recreateNodeExecutionStack localeCompare graph startNodes
      runData pinData = .ok recreated) :
    WaitingAsInEngine workflow graph runData pinData recreated ↔
      NoPartialInputs localeCompare graph startNodes runData pinData := by
  constructor
  · intro asInEngine startNode startMember hasMain group groupMember incomplete connection mem
    by_contra produces
    have waits := exists_entry_of_partialInput success startMember hasMain
      groupMember incomplete mem produces
    obtain ⟨⟨index, connections⟩, entryMember⟩ := exists_mem_of_ne_nil _ waits
    have found := SortedMap.get?_eq_some_iff.mpr entryMember
    obtain ⟨slots, main, _, isNull, _⟩ :=
      (asInEngine startNode.name index (by rw [found]; simp)).main
    exact recreateNodeExecutionStack_withoutNull success _ _ _ main isNull
  · intro noPartial nodeName index waits
    rw [recreateNodeExecutionStack_waiting_empty success noPartial] at waits
    exact absurd rfl waits

end Restarted

section Example

open RecreateExample

namespace RestartExample

def threeInputs : DirectedGraph :=
  graphOf [connect "left" 0, connect "middle" 1, connect "right" 2]

def workflow : Workflow :=
  { nodes := Workflow.setNodes [{ name := "left" }, { name := "middle" },
      { name := "right" }, { name := "merge" }]
    connectionsBySourceNode := ((OrderedMap.empty.set "left" (JoinExample.connectTo 0)).set "middle"
        (JoinExample.connectTo 1)).set "right" (JoinExample.connectTo 2)
    executionOrder := some .v1 }

end RestartExample

open RestartExample

theorem recreateNodeExecutionStack_waitingAsInEngine_twoInputs :
    ∃ recreated, recreateNodeExecutionStack compareNames twoInputs [merge]
        (runDataOf ["left", "right"]) .empty = .ok recreated ∧
      WaitingAsInEngine workflow twoInputs (runDataOf ["left", "right"]) .empty
        recreated := by
  obtain ⟨recreated, recreates⟩ : ∃ recreated, recreateNodeExecutionStack
      compareNames twoInputs [merge] (runDataOf ["left", "right"]) .empty =
        .ok recreated := ⟨_, rfl⟩
  refine ⟨recreated, recreates,
    (recreateNodeExecutionStack_waitingAsInEngine_iff workflow recreates).mpr ?_⟩
  intro startNode startMember _ group groupMember incomplete
  obtain rfl := mem_singleton.mp startMember
  have complete : ∀ group ∈ getSourceDataGroups compareNames twoInputs merge
      (runDataOf ["left", "right"]) .empty, group.complete = true := by
    decide
  rw [complete group groupMember] at incomplete
  cases incomplete

/-- Only the first of three sources ran: the entry has one slot, and the data
of the second source completes it although the third source has not run. -/
theorem not_waitingAsInEngine_threeInputs :
    ∃ recreated, recreateNodeExecutionStack compareNames threeInputs [merge]
        (runDataOf ["left"]) .empty = .ok recreated ∧
      ¬WaitingAsInEngine workflow threeInputs (runDataOf ["left"]) .empty recreated ∧
      ∃ after, DeliveryRun workflow "merge" (fun _ _ => True)
          { executionData := recreated } [JoinExample.deliver "middle" 1]
          after ∧
        ∃ item ∈ after.executionData.nodeExecutionStack, ∃ slots,
          item.data.get? .main = some slots ∧ slots.length < workflow.numberOfInputs "merge" := by
  refine ⟨_, rfl, ?_, _, .step .start (by decide) trivial rfl, _,
    mem_singleton_self _, _, rfl, by decide⟩
  intro asInEngine
  obtain ⟨slots, main, _, isNull, _⟩ := (asInEngine "merge" 0 nofun).main
  cases main
  exact absurd isNull (by decide)

end Example

end N8n
