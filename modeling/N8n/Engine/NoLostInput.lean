import N8n.Engine.WaitingBuffer

/-!
# No delivered input is lost

Over a run of `addNodeToBeExecuted` calls for a node with several main
inputs, the data in the waiting entries and in the stack items of the node is
the data it had before together with the data delivered by the calls.

A call loses data when it opens a new entry whose index, the number of live
entries, belongs to a live entry.  `RoomyFor` excludes these calls.
-/

namespace N8n

open List SortedMap JoinBuffer

/-- Data at an input, with the source entry beside it. -/
structure HeldInput where
  inputIndex : Nat
  items : List INodeExecutionData
  source : Slot ISourceData
deriving DecidableEq

/-- The data in the slots of an entry. -/
def heldInSlots (slots : SlotArray (List INodeExecutionData))
    (sources : SlotArray ISourceData) : List HeldInput :=
  slots.zipIdx.filterMap fun (slot, inputIndex) => slot.value?.map fun items =>
    { inputIndex := inputIndex
      items := items
      source := sources.at' inputIndex }

/-- The data in the main slots of a waiting entry or a stack item. -/
def heldIn (connections : ITaskDataConnections)
    (source : Option ITaskDataConnectionsSource) : List HeldInput :=
  heldInSlots ((connections.get? .main).getD []) ((source.bind (·.get? .main)).getD [])

def heldOnStack (nodeExecutionStack : List IExecuteData) (nodeName : String) : List HeldInput :=
  (nodeExecutionStack.filter (·.node.name = nodeName)).flatMap fun item =>
    heldIn item.data item.source

/-- The data a node holds in its waiting entries and stack items. -/
def heldBy (data : ExecutionData) (nodeName : String) : List HeldInput :=
  (data.waitingExecution.entriesOf nodeName).entries.flatMap
      (fun (index, connections) => heldIn connections
        ((data.waitingExecutionSource.entriesOf nodeName).get? index)) ++
    heldOnStack data.nodeExecutionStack nodeName

/-- A call that delivers an array of items to a main input. -/
structure InputDelivery where
  inputIndex : Nat
  type : NodeConnectionType := .main
  output : ParentOutput
  newRunIndex : Option Nat := none
  metadata : Option ITaskMetadata := none
  items : List INodeExecutionData
  delivers : output.dataSlot = .value items

namespace InputDelivery

def held (delivery : InputDelivery) : HeldInput :=
  { inputIndex := delivery.inputIndex
    items := delivery.items
    source := .value delivery.output.source }

def call (workflow : Workflow) (nodeName : String) (delivery : InputDelivery) : Engine PUnit :=
  addNodeToBeExecuted workflow
    { node := nodeName
      type := delivery.type
      index := delivery.inputIndex }
    delivery.output.outputIndex delivery.output.parentNodeName
    delivery.output.nodeSuccessData delivery.output.runIndex
    delivery.newRunIndex delivery.metadata

end InputDelivery

/-- A run of deliveries to inputs of one node, each of which is allowed in the
state it is made in. -/
inductive DeliveryRun (workflow : Workflow) (nodeName : String)
    (allowed : RunExecutionData → InputDelivery → Prop) (start : RunExecutionData) :
    List InputDelivery → RunExecutionData → Prop where
  | start : DeliveryRun workflow nodeName allowed start [] start
  | step {deliveries : List InputDelivery} {delivery : InputDelivery}
      {middle last : RunExecutionData} :
      DeliveryRun workflow nodeName allowed start deliveries middle →
      delivery.inputIndex < workflow.numberOfInputs nodeName →
      allowed middle delivery →
      StateExcept.exec (delivery.call workflow nodeName) middle = (.ok ⟨⟩, last) →
      DeliveryRun workflow nodeName allowed start (deliveries ++ [delivery]) last

/-- Some live entry has no data at the input, or the number of live entries
is not the index of a live entry. -/
def RoomyFor (data : ExecutionData) (nodeName : String) (inputIndex : Nat) : Prop :=
  (∃ entry ∈ (data.waitingExecution.entriesOf nodeName).entries,
    ∀ slots, entry.2.get? .main = some slots → (slots.at' inputIndex).value? = none) ∨
  (data.waitingExecution.entriesOf nodeName).size ∉ (data.waitingExecution.entriesOf nodeName).keys

/-- The node holds what it held at the start and what was delivered, each in
one place.  Only the legacy order adds the blank items of forced nodes. -/
structure HoldsDeliveries (workflow : Workflow) (nodeName : String)
    (start : RunExecutionData) (deliveries : List InputDelivery)
    (last : RunExecutionData) : Prop where
  held : ∃ forced : List HeldInput, (∀ input ∈ forced, input.inputIndex = 0 ∧
      input.items = [INodeExecutionData.blank]) ∧
    (workflow.executionOrder = some .v1 → forced = []) ∧
      (heldBy last.executionData nodeName).Perm (heldBy start.executionData nodeName ++
          deliveries.map InputDelivery.held ++ forced)
  sameNodes : last.executionData.waitingExecution.has nodeName =
    last.executionData.waitingExecutionSource.has nodeName
  sameEntries : (last.executionData.waitingExecution.entriesOf nodeName).keys =
    (last.executionData.waitingExecutionSource.entriesOf nodeName).keys

/-- A slot with data keeps it, in its entry or in the item the entry becomes,
and every stack item stays. -/
structure SlotsKept (nodeName : String) (before after : RunExecutionData) :
    Prop where
  waiting : ∀ (index inputIndex : Nat) connections slots items,
    (before.executionData.waitingExecution.entriesOf nodeName).get? index = some connections →
    connections.get? .main = some slots →
    (slots.at' inputIndex).value? = some items →
    (∃ connections' slots', (after.executionData.waitingExecution.entriesOf nodeName).get? index =
        some connections' ∧ connections'.get? .main = some slots' ∧
        (slots'.at' inputIndex).value? = some items) ∨
    (∃ item ∈ after.executionData.nodeExecutionStack, ∃ slots',
      item.node.name = nodeName ∧ item.data.get? .main = some slots' ∧
        (slots'.at' inputIndex).value? = some items)
  stack : before.executionData.nodeExecutionStack ⊆ after.executionData.nodeExecutionStack

section Held

variable {nodeName : String}

/-- What a row of the buffer holds, as data at inputs. -/
def heldByPair (pair : Nat × Holding) : HeldInput :=
  { inputIndex := pair.1
    items := pair.2.items
    source := .value pair.2.source }

variable (row : List (Option Holding))

theorem heldInSlots_slotsBy : heldInSlots (slotsBy Holding.items row) (slotsBy Holding.source row) =
      (heldInRow row).map heldByPair := by
  -- The sources are read from the whole row while the slots are consumed.
  have general : ∀ (rest : List (Option Holding)) (start : Nat), row.drop start = rest →
      ((slotsBy Holding.items rest).zipIdx start).filterMap
        (fun (slot, inputIndex) => slot.value?.map fun items =>
          ({ inputIndex := inputIndex
             items := items
             source := (slotsBy Holding.source row).at' inputIndex } :
            HeldInput)) =
        (heldFrom start rest).map heldByPair := by
    intro rest
    induction rest with
    | nil => intro start _; rfl
    | cons slot rest ih =>
      intro start suffix
      have found : row[start]? = some slot := by
        have head := congrArg List.head? suffix
        rwa [head?_drop] at head
      have later := ih (start + 1) (by rw [← tail_drop, suffix, tail_cons])
      cases slot with
      | none => exact later
      | some holding =>
        have source : (slotsBy Holding.source row).at' start = .value holding.source := by
          rw [SlotArray.at'_ofNat, getD_eq_getElem?_getD, slotsBy, getElem?_map, found]
          rfl
        rw [heldFrom, map_cons, ← later]
        change (List.zipIdx (.value holding.items ::
          slotsBy Holding.items rest) start).filterMap _ = _
        rw [zipIdx_cons, filterMap_cons]
        simp only [Slot.value?_value, Option.map_some, source]
        rfl
  exact general row 0 rfl

theorem heldIn_mainBy : heldIn (mainBy Holding.items row) (some (mainBy Holding.source row)) =
      (heldInRow row).map heldByPair := by
  exact heldInSlots_slotsBy row

variable {buffer : JoinBuffer Holding}

theorem heldBy_eq {data : ExecutionData} (represents : Represents data nodeName buffer) :
    heldBy data nodeName = buffer.held.map heldByPair ++
      heldOnStack data.nodeExecutionStack nodeName := by
  rw [heldBy, represents.items, represents.sources, held, map_flatMap]
  congr 1
  rw [entries_mapValues, flatMap_map]
  refine flatMap_congr fun entry mem => ?_
  simp only
  rw [get?_mapValues, get?_eq_some_iff.mpr mem]
  exact heldIn_mainBy entry.2

theorem heldOnStack_perm (nodeName : String) {left right : List IExecuteData}
    (perm : left.Perm right) :
    (heldOnStack left nodeName).Perm (heldOnStack right nodeName) :=
  (perm.filter _).flatMap_right _

theorem heldOnStack_append (left right : List IExecuteData) : heldOnStack (left ++ right) nodeName =
      heldOnStack left nodeName ++ heldOnStack right nodeName := by
  rw [heldOnStack, filter_append, flatMap_append]
  rfl

theorem heldOnStack_forced {output : ParentOutput} {forced : List IExecuteData}
    (forcedItems : ∀ item ∈ forced, ∃ node, item = emptyItem node output) :
    ∀ input ∈ heldOnStack forced nodeName, input.inputIndex = 0 ∧
      input.items = [INodeExecutionData.blank] := by
  intro input mem
  obtain ⟨item, itemMem, held⟩ := mem_flatMap.mp mem
  obtain ⟨node, rfl⟩ := forcedItems item (mem_filter.mp itemMem).1
  obtain rfl := mem_singleton.mp held
  exact ⟨rfl, rfl⟩

theorem roomyFor_iff {data : ExecutionData}
    {input : Nat} (represents : Represents data nodeName buffer) :
    RoomyFor data nodeName input ↔ buffer.Roomy input := by
  rw [RoomyFor, JoinBuffer.Roomy, represents.items, keys_mapValues, size_mapValues]
  refine or_congr ?_ Iff.rfl
  rw [openRow, find?_isSome]
  simp only [entries_mapValues, mem_map,
    exists_exists_and_eq_and, get?_mainBy, Option.some.injEq, forall_eq',
    value?_at'_slotsBy, Option.map_eq_none_iff, Option.isNone_iff_eq_none]

end Held

section Runs

variable {workflow : Workflow} {nodeName : String}
  {state last : RunExecutionData} {buffer : JoinBuffer Holding}
  {delivery : InputDelivery}

theorem delivered_of_call (represents : Represents state.executionData nodeName buffer)
    (waiting : buffer.Waiting (workflow.numberOfInputs nodeName))
    (multiple : 1 < workflow.numberOfInputs nodeName)
    (inside : delivery.inputIndex < workflow.numberOfInputs nodeName)
    (ok : StateExcept.exec (delivery.call workflow nodeName) state = (.ok ⟨⟩, last)) :
    Delivered workflow delivery.output nodeName state.executionData last.executionData
      (buffer.deliver (workflow.numberOfInputs nodeName) delivery.inputIndex
        ⟨delivery.items, delivery.output.source⟩) := by
  rw [InputDelivery.call, addNodeToBeExecuted, if_pos multiple] at ok
  exact addToWaiting_delivered represents waiting rfl rfl inside delivery.delivers ok

theorem Delivered.heldBy_perm {before after : ExecutionData}
    (delivered : Delivered workflow delivery.output nodeName before after
      (buffer.deliver (workflow.numberOfInputs nodeName) delivery.inputIndex
        ⟨delivery.items, delivery.output.source⟩))
    (represents : Represents before nodeName buffer)
    (waiting : buffer.Waiting (workflow.numberOfInputs nodeName))
    (inside : delivery.inputIndex < workflow.numberOfInputs nodeName)
    (roomy : buffer.Roomy delivery.inputIndex) :
    ∃ forced : List HeldInput, (∀ input ∈ forced, input.inputIndex = 0 ∧
        input.items = [INodeExecutionData.blank]) ∧
      (workflow.executionOrder = some .v1 → forced = []) ∧ (heldBy after nodeName).Perm
          (delivery.held :: (heldBy before nodeName ++ forced)) := by
  have buffered := (held_deliver_perm ⟨delivery.items, delivery.output.source⟩ waiting inside
    roomy).map heldByPair
  have stack := delivered.stack
  rw [heldBy_eq delivered.represents, heldBy_eq represents]
  cases released : (buffer.deliver (workflow.numberOfInputs nodeName)
      delivery.inputIndex ⟨delivery.items, delivery.output.source⟩).2 with
  | some row =>
    rw [released] at stack buffered
    obtain ⟨node, found, stack⟩ := stack
    refine ⟨[], by simp, fun _ => rfl, ?_⟩
    have onStack : (heldOnStack after.nodeExecutionStack nodeName).Perm
        ((heldInRow row).map heldByPair ++ heldOnStack before.nodeExecutionStack nodeName) := by
      rw [stack]
      refine (heldOnStack_perm _ (enqueue_perm before _)).trans ?_
      have named : node.name = nodeName := Workflow.getNode_name found
      have kept : ((joinedItem node row :: before.nodeExecutionStack).filter
          (·.node.name = nodeName)) = joinedItem node row ::
            before.nodeExecutionStack.filter (·.node.name = nodeName) := by
        simp [joinedItem, named]
      rw [heldOnStack, kept, flatMap_cons, ← heldIn_mainBy]
      exact List.Perm.refl _
    rw [append_nil, ← cons_append]
    rw [map_append] at buffered
    refine ((onStack.append_left _).trans ?_).trans (buffered.append_right _)
    rw [← append_assoc]
    exact perm_append_comm.append_right _
  | none =>
    rw [released] at stack buffered
    obtain ⟨forced, forcedItems, order, stack⟩ := stack
    refine ⟨heldOnStack forced nodeName, heldOnStack_forced forcedItems,
      fun isV1 => by rw [order isV1]; rfl, ?_⟩
    have onStack := heldOnStack_perm nodeName stack
    rw [heldOnStack_append] at onStack
    refine (onStack.append_left _).trans ?_
    rw [← cons_append, ← cons_append, append_assoc]
    refine List.Perm.append buffered ?_
    exact perm_append_comm

theorem Delivered.slotsKept (delivered : Delivered workflow delivery.output nodeName
      state.executionData last.executionData
      (buffer.deliver (workflow.numberOfInputs nodeName) delivery.inputIndex
        ⟨delivery.items, delivery.output.source⟩))
    (represents : Represents state.executionData nodeName buffer)
    (waiting : buffer.Waiting (workflow.numberOfInputs nodeName))
    (inside : delivery.inputIndex < workflow.numberOfInputs nodeName)
    (roomy : buffer.Roomy delivery.inputIndex) :
    SlotsKept nodeName state last := by
  have stack := delivered.stack
  constructor
  · intro index inputIndex connections slots items entry main slot
    rw [represents.items, get?_mapValues, Option.map_eq_some_iff] at entry
    obtain ⟨row, stored, rfl⟩ := entry
    cases main
    rw [value?_at'_slotsBy, Option.map_eq_some_iff] at slot
    obtain ⟨holding, holds, rfl⟩ := slot
    obtain ⟨after, kept, remains | ⟨_, released⟩⟩ := slot_deliver
        ⟨delivery.items, delivery.output.source⟩ waiting inside
        roomy stored (Option.join_eq_some_iff.mp holds)
    · refine .inl ⟨mainBy Holding.items after, slotsBy Holding.items after, ?_, get?_mainBy, ?_⟩
      · rw [delivered.represents.items, get?_mapValues, remains]
        rfl
      · rw [value?_at'_slotsBy, kept]
        rfl
    · rw [released] at stack
      obtain ⟨node, found, stack⟩ := stack
      refine .inr ⟨joinedItem node after, ?_, slotsBy Holding.items after,
        Workflow.getNode_name found, get?_mainBy, ?_⟩
      · rw [stack]
        exact (enqueue_perm state.executionData _).mem_iff.mpr mem_cons_self
      · rw [value?_at'_slotsBy, kept]
        rfl
  · intro item mem
    split at stack
    · obtain ⟨node, _, stack⟩ := stack
      rw [stack]
      exact (enqueue_perm state.executionData _).mem_iff.mpr (mem_cons_of_mem _ mem)
    · obtain ⟨forced, _, _, stack⟩ := stack
      exact stack.mem_iff.mpr (mem_append_right _ mem)

theorem DeliveryRun.represents {start : RunExecutionData} {deliveries : List InputDelivery}
    (multiple : 1 < workflow.numberOfInputs nodeName)
    (noWaiting : start.executionData.waitingExecution = .empty)
    (noSources : start.executionData.waitingExecutionSource = .empty)
    (run : DeliveryRun workflow nodeName (fun state delivery =>
        RoomyFor state.executionData nodeName delivery.inputIndex)
      start deliveries last) :
    HoldsDeliveries workflow nodeName start deliveries last ∧
      ∃ buffer, Represents last.executionData nodeName buffer ∧
        buffer.Waiting (workflow.numberOfInputs nodeName) := by
  induction run with
  | start =>
    refine ⟨?_, .empty, ?_, waiting_empty _⟩
    · exact
        { held := ⟨[], by simp, fun _ => rfl, by simp⟩
          sameNodes := by rw [noWaiting, noSources]; rfl
          sameEntries := by rw [noWaiting, noSources]; rfl }
    · exact
        { items := by
            rw [noWaiting]
            exact WaitingSlots.encodes_empty rfl
          sources := by
            rw [noSources]
            exact WaitingSlots.encodes_empty rfl
          together := by rw [noWaiting, noSources]; rfl }
  | @step deliveries delivery middle last _ inside roomyFor ok ih =>
    obtain ⟨holds, buffer, represents, waiting⟩ := ih
    have roomy := (roomyFor_iff represents).mp roomyFor
    have delivered := delivered_of_call represents waiting multiple inside ok
    obtain ⟨newForced, newBlank, newOrder, changed⟩ :=
      delivered.heldBy_perm represents waiting inside roomy
    obtain ⟨forced, blank, order, held⟩ := holds.held
    refine ⟨?_, _, delivered.represents, waiting_deliver _ waiting⟩
    refine
      { held := ⟨forced ++ newForced, ?_, ?_, ?_⟩
        sameNodes := delivered.represents.together
        sameEntries := by
          rw [delivered.represents.items, delivered.represents.sources,
            keys_mapValues, keys_mapValues] }
    · intro input mem
      rcases mem_append.mp mem with mem | mem
      · exact blank input mem
      · exact newBlank input mem
    · intro isV1
      rw [order isV1, newOrder isV1]
      rfl
    · refine changed.trans ?_
      refine ((held.append_right newForced).cons delivery.held).trans ?_
      rw [map_append, map_singleton]
      simp only [append_assoc]
      refine perm_middle.symm.trans ?_
      refine List.Perm.append_left _ ?_
      exact perm_middle.symm

end Runs

section Example

namespace JoinExample

def connectTo (inputIndex : Int) : INodeConnections :=
  OrderedMap.empty.set .main
    [some [{ node := "merge"
             type := .main
             index := inputIndex }]]

def workflow : Workflow :=
  { nodes := Workflow.setNodes [{ name := "left" }, { name := "other" },
      { name := "right" }, { name := "merge" }]
    connectionsBySourceNode := ((OrderedMap.empty.set "left" (connectTo 0)).set
      "other" (connectTo 0)).set "right" (connectTo 1)
    executionOrder := some .v1 }

def deliver (name : String) (inputIndex : Nat) : InputDelivery :=
  { inputIndex := inputIndex
    output :=
      { parentNodeName := name
        outputIndex := 0
        nodeSuccessData := some [.value [{ json := [("from", .string name)] }]]
        runIndex := 0 }
    items := [{ json := [("from", .string name)] }]
    delivers := rfl }

def stateAfter (deliveries : List InputDelivery) : RunExecutionData :=
  deliveries.foldl (fun state delivery =>
      (StateExcept.exec (delivery.call workflow "merge") state).2) {}

end JoinExample

open JoinExample

end Example

end N8n
