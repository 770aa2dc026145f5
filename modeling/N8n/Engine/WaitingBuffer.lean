import N8n.Engine.AddNode
import N8n.Library.FoldExcept
import N8n.Library.JoinBuffer

/-!
# Waiting entries as a join buffer

The waiting entries of a node, in `waitingExecution` and
`waitingExecutionSource` together, represent a join buffer whose slots hold
data with its source.  `addNodeToBeExecuted` for a node with several main
inputs is a delivery to that buffer.
-/

namespace N8n

open SortedMap StateExcept

/-- What a filled slot of a waiting entry stands for. -/
structure Holding where
  items : List INodeExecutionData
  source : ISourceData

section Encoding

variable {α : Type}

/-- A row of a buffer as an array, with `null` in the free slots. -/
def slotsBy (field : Holding → α) (row : List (Option Holding)) : SlotArray α :=
  row.map fun slot => slot.elim .null fun holding => .value (field holding)

/-- A row of a buffer as `{ main: [...] }`. -/
def mainBy (field : Holding → α) (row : List (Option Holding)) :
    OrderedMap NodeConnectionType (SlotArray α) :=
  OrderedMap.empty.set .main (slotsBy field row)

variable {field : Holding → α} {row : List (Option Holding)} {input : Nat} {holding : Holding}

@[simp] theorem length_slotsBy : (slotsBy field row).length = row.length := by
  simp [slotsBy]

@[simp] theorem slotsBy_replicate (width : Nat) :
    slotsBy field (List.replicate width none) = SlotArray.nulls width := by
  simp [slotsBy, SlotArray.nulls]

@[simp] theorem get?_mainBy : (mainBy field row).get? .main = some (slotsBy field row) := by
  simp [mainBy]

theorem mainBy_set (slots : SlotArray α) :
    (mainBy field row).set .main slots = OrderedMap.empty.set .main slots :=
  rfl

theorem put_slotsBy (inside : input < row.length) :
    (slotsBy field row).put input (.value (field holding)) =
      slotsBy field (row.set input (some holding)) := by
  rw [SlotArray.put_ofNat_of_lt (by simpa using inside), slotsBy, slotsBy, List.map_set]
  rfl

theorem value?_at'_slotsBy : ((slotsBy field row).at' input).value? =
      (row[input]?.join).map field := by
  rw [SlotArray.at'_ofNat, Slot.value?_read, List.getD_eq_getElem?_getD, slotsBy, List.getElem?_map]
  cases row[input]? with
  | none => rfl
  | some slot => cases slot <;> rfl

theorem all_not_isNull_slotsBy : (slotsBy field row).all (!·.isNull) = row.all Option.isSome := by
  rw [slotsBy, List.all_map]
  congr 1
  funext slot
  cases slot <;> rfl

end Encoding

namespace WaitingSlots

variable {α : Type} {waiting : WaitingSlots α} {nodeName : String}
  {field : Holding → α} {buffer : JoinBuffer Holding} {index : Nat}

def Encodes (waiting : WaitingSlots α) (nodeName : String)
    (field : Holding → α) (buffer : JoinBuffer Holding) : Prop :=
  waiting.entriesOf nodeName = buffer.mapValues (mainBy field)

@[simp] theorem entriesOf_delete : entriesOf (waiting.delete nodeName) nodeName = .empty := by
  simp [entriesOf, OrderedMap.get?_delete]

theorem encodes_empty (absent : waiting.get? nodeName = none) :
    waiting.Encodes nodeName field .empty := by
  rw [Encodes, entriesOf, absent]
  rfl

theorem Encodes.setMain (encodes : waiting.Encodes nodeName field buffer)
    (index : Nat) (row : List (Option Holding)) :
    (waiting.setMain nodeName index (slotsBy field row)).Encodes nodeName
      field (buffer.set index row) := by
  rw [Encodes, WaitingSlots.setMain, entriesOf_set_self, encodes, mapValues_set]
  rfl

variable {row : List (Option Holding)}

theorem Encodes.main_eq_ok (encodes : waiting.Encodes nodeName field buffer)
    (found : buffer.get? index = some row) :
    waiting.main nodeName index = .ok (slotsBy field row) := by
  rw [main, encodes, get?_mapValues, found]
  simp

theorem Encodes.writeSlot_eq_ok {input : Nat}
    (encodes : waiting.Encodes nodeName field buffer) (holding : Holding)
    (found : buffer.get? index = some row) (inside : input < row.length) :
    ∃ written, waiting.writeSlot nodeName index input (.value (field holding)) = .ok written ∧
      written.Encodes nodeName field (buffer.set index (row.set input (some holding))) ∧
      written.has nodeName = true := by
  have entry : (waiting.entriesOf nodeName).get? index = some (mainBy field row) := by
    rw [encodes, get?_mapValues, found]
    rfl
  refine ⟨waiting.set nodeName ((waiting.entriesOf nodeName).set index
    (mainBy field (row.set input (some holding)))), ?_, ?_, ?_⟩
  · rw [writeSlot, encodes.main_eq_ok found, entry]
    simp only [bind, Except.bind, Option.getD_some, mainBy_set, put_slotsBy inside]
    rfl
  · rw [Encodes, entriesOf_set_self, encodes, mapValues_set]
  · simp [OrderedMap.has]

theorem Encodes.deleteEntry (encodes : waiting.Encodes nodeName field buffer) :
    (waiting.deleteEntry nodeName index (buffer.delete index).isEmpty).Encodes
      nodeName field (buffer.delete index) := by
  rw [Encodes, WaitingSlots.deleteEntry]
  split
  next last =>
    rw [entriesOf_delete]
    apply ext_entries
    change [] = (buffer.delete index).entries.map _
    rw [isEmpty_iff.mp last]
    rfl
  · rw [entriesOf_set_self, encodes, mapValues_delete]

end WaitingSlots

/-- Both objects of the execution data encode the buffer. -/
structure Represents (data : ExecutionData) (nodeName : String)
    (buffer : JoinBuffer Holding) : Prop where
  items : data.waitingExecution.Encodes nodeName Holding.items buffer
  sources : data.waitingExecutionSource.Encodes nodeName Holding.source buffer
  together : data.waitingExecution.has nodeName = data.waitingExecutionSource.has nodeName

namespace Represents

variable {data : ExecutionData} {nodeName : String} {buffer : JoinBuffer Holding}

theorem startWaiting (represents : Represents data nodeName buffer) :
    Represents (data.startWaiting nodeName) nodeName buffer := by
  rw [ExecutionData.startWaiting]
  split
  · exact represents
  next absent =>
    have none : data.waitingExecution.get? nodeName = none := by
      simpa [OrderedMap.has] using absent
    have empty : buffer.mapValues (mainBy Holding.items) = .empty := by
      rw [← represents.items, WaitingSlots.entriesOf, none]
      rfl
    obtain rfl : buffer = .empty := by
      apply ext_entries
      have entries := congrArg SortedMap.entries empty
      simpa [SortedMap.mapValues] using entries
    exact
      { items := by simp [WaitingSlots.Encodes]; rfl
        sources := by simp [WaitingSlots.Encodes]; rfl
        together := by simp [OrderedMap.has] }

theorem prepare (represents : Represents data nodeName buffer) (width key : Nat) :
    Represents (data.prepareWaitingToExecution nodeName width key) nodeName
      (buffer.set key (List.replicate width none)) := by
  have items := represents.items.setMain key (List.replicate width none)
  have sources := represents.sources.setMain key (List.replicate width none)
  rw [slotsBy_replicate] at items sources
  exact
    { items := items
      sources := sources
      together := by
        simp [ExecutionData.prepareWaitingToExecution, WaitingSlots.setMain, OrderedMap.has] }

theorem deleteWaiting (represents : Represents data nodeName buffer) (key : Nat) :
    Represents (data.deleteWaiting nodeName key) nodeName (buffer.delete key) := by
  have last : ((data.waitingExecution.entriesOf nodeName).delete key).isEmpty =
      (buffer.delete key).isEmpty := by
    rw [represents.items, ← mapValues_delete, isEmpty_mapValues]
  rw [ExecutionData.deleteWaiting, last]
  refine
    { items := represents.items.deleteEntry
      sources := represents.sources.deleteEntry
      together := ?_ }
  simp only [WaitingSlots.deleteEntry]
  split <;> simp [OrderedMap.has, OrderedMap.get?_delete]

end Represents

section Delivery

variable {workflow : Workflow} {connectionData : IConnection}
  {output : ParentOutput} {items : List INodeExecutionData}
  {state last : RunExecutionData} {buffer : JoinBuffer Holding} {input : Nat}

theorem findWaitingIndex_mapValues (input : Nat) (rows : List (Nat × List (Option Holding))) :
    findWaitingIndex input (rows.map fun row => (row.1, mainBy Holding.items row.2)) =
      .ok ((rows.find? fun row => (row.2[input]?.join).isNone).map Prod.fst) := by
  induction rows with
  | nil => rfl
  | cons row rows ih =>
    simp only [List.map_cons, findWaitingIndex, get?_mainBy, value?_at'_slotsBy, Option.isNone_map]
    cases taken : (row.2[input]?.join).isNone with
    | true => simp [taken]
    | false => simp [taken, ih]

theorem startWaiting_nodeExecutionStack (data : ExecutionData) (nodeName : String) :
    (data.startWaiting nodeName).nodeExecutionStack =
      data.nodeExecutionStack := by
  rw [ExecutionData.startWaiting]
  split <;> rfl

variable {width waitingNodeIndex : Nat}

theorem openWaitingEntry_spec
    (represents : Represents state.executionData connectionData.node buffer)
    (inputs : workflow.numberOfInputs connectionData.node = width)
    (index : connectionData.index = input)
    (ok : StateExcept.exec (openWaitingEntry workflow connectionData)
      state = (.ok waitingNodeIndex, last)) :
    ∃ data, last = { state with executionData := data } ∧
      data.nodeExecutionStack = state.executionData.nodeExecutionStack ∧
      waitingNodeIndex = (buffer.receivingRow width input).1 ∧
      Represents data connectionData.node (buffer.set (buffer.receivingRow width input).1
          (buffer.receivingRow width input).2) := by
  obtain ⟨_, started, start, ok⟩ := exec_bind_eq_ok.mp ok
  obtain ⟨data, equal, rfl⟩ := Engine.exec_updateExecutionData_eq_ok.mp start
  cases equal
  have started := represents.startWaiting
  have stack := startWaiting_nodeExecutionStack state.executionData connectionData.node
  have found := findWaitingIndex_mapValues input buffer.entries
  rw [exec_get_bind] at ok
  rw [started.items, index] at ok
  obtain ⟨outcome, _, search, ok⟩ := exec_bind_eq_ok.mp ok
  rw [exec_ofExcept, SortedMap.mapValues, found] at search
  obtain ⟨equal, rfl⟩ := Prod.mk.inj search
  cases equal
  cases opened : buffer.entries.find? fun row => (row.2[input]?.join).isNone with
  | some row =>
    rw [opened] at ok
    obtain ⟨equal, rfl⟩ := Prod.mk.inj ok
    cases equal
    have receiving : buffer.receivingRow width input = row := by
      rw [JoinBuffer.receivingRow, JoinBuffer.openRow, opened]
      rfl
    have stored := get?_eq_some_iff.mpr (List.mem_of_find?_eq_some opened)
    refine ⟨_, rfl, stack, by rw [receiving], ?_⟩
    rw [receiving, set_of_get? stored]
    exact started
  | none =>
    rw [opened] at ok
    obtain ⟨_, prepared, prepare, ok⟩ := exec_bind_eq_ok.mp ok
    obtain ⟨data, equal, rfl⟩ := Engine.exec_updateExecutionData_eq_ok.mp prepare
    cases equal
    obtain ⟨equal, rfl⟩ := Prod.mk.inj ok
    cases equal
    have receiving : buffer.receivingRow width input =
        (buffer.size, List.replicate width none) := by
      rw [JoinBuffer.receivingRow, JoinBuffer.openRow, opened]
      rfl
    refine ⟨_, rfl, stack, ?_, ?_⟩
    · rw [receiving]
      exact size_mapValues
    · rw [receiving, inputs, size_mapValues]
      exact started.prepare width buffer.size

variable {row : List (Option Holding)}

theorem writeWaiting_spec (represents : Represents state.executionData connectionData.node buffer)
    (found : buffer.get? waitingNodeIndex = some row)
    (inside : input < row.length) (index : connectionData.index = input)
    (delivers : output.dataSlot = .value items) (ok : StateExcept.exec
      (writeWaiting connectionData output waitingNodeIndex) state = (.ok ⟨⟩, last)) :
    ∃ data, last = { state with executionData := data } ∧
      data.nodeExecutionStack = state.executionData.nodeExecutionStack ∧
      Represents data connectionData.node (buffer.set waitingNodeIndex
          (row.set input (some ⟨items, output.source⟩))) := by
  have sourceSlot : output.sourceSlot = .value output.source := by
    rw [ParentOutput.dataSlot] at delivers
    rw [ParentOutput.sourceSlot]
    cases present : output.nodeSuccessData with
    | none =>
      rw [present] at delivers
      cases delivers
    | some nodeSuccessData => rfl
  obtain ⟨writtenItems, itemsWritten, itemsEncode, itemsHas⟩ :=
    represents.items.writeSlot_eq_ok ⟨items, output.source⟩ found inside
  obtain ⟨writtenSources, sourcesWritten, sourcesEncode, sourcesHas⟩ :=
    represents.sources.writeSlot_eq_ok ⟨items, output.source⟩ found inside
  obtain ⟨_, middle, first, second⟩ := exec_bind_eq_ok.mp ok
  obtain ⟨data, equal, rfl⟩ := Engine.exec_updateExecutionData_eq_ok.mp first
  rw [delivers, index, itemsWritten] at equal
  cases equal
  obtain ⟨data, equal, rfl⟩ := Engine.exec_updateExecutionData_eq_ok.mp second
  rw [sourceSlot, index, sourcesWritten] at equal
  cases equal
  exact ⟨_, rfl, rfl,
    { items := itemsEncode
      sources := sourcesEncode
      together := itemsHas.trans sourcesHas.symm }⟩

/-- Only items that start other nodes were added to the stack. -/
structure Forces (workflow : Workflow) (output : ParentOutput)
    (before after : RunExecutionData) : Prop where
  waiting : after.executionData.waitingExecution = before.executionData.waitingExecution
  sources : after.executionData.waitingExecutionSource = before.executionData.waitingExecutionSource
  stack : ∃ forced : List IExecuteData, (∀ item ∈ forced, ∃ node, item = emptyItem node output) ∧
      (workflow.executionOrder = some .v1 → forced = []) ∧
        after.executionData.nodeExecutionStack.Perm
          (forced ++ before.executionData.nodeExecutionStack)

instance : Std.Refl (Forces workflow output) where
  refl _ :=
    { waiting := rfl
      sources := rfl
      stack := ⟨[], by simp, fun _ => rfl, List.Perm.refl _⟩ }

instance : IsTrans RunExecutionData (Forces workflow output) where
  trans _ _ _ first second := by
    obtain ⟨firstForced, firstItems, firstOrder, firstStack⟩ := first.stack
    obtain ⟨secondForced, secondItems, secondOrder, secondStack⟩ := second.stack
    refine
      { waiting := second.waiting.trans first.waiting
        sources := second.sources.trans first.sources
        stack := ⟨secondForced ++ firstForced, ?_, ?_, ?_⟩ }
    · intro item mem
      rcases List.mem_append.mp mem with mem | mem
      · exact secondItems item mem
      · exact firstItems item mem
    · intro order
      rw [firstOrder order, secondOrder order]
      rfl
    · rw [List.append_assoc]
      exact secondStack.trans (firstStack.append_left secondForced)

theorem itemToAdd_eq_some {runData : IRunData} {nodeToAdd : String} {item : IExecuteData}
    (ok : itemToAdd workflow runData output nodeToAdd = .ok (some item)) :
    ∃ node, item = emptyItem node output := by
  obtain ⟨stays, _, ok⟩ := Except.bind_eq_ok_iff.mp ok
  cases stays with
  | true => cases ok
  | false =>
    obtain ⟨needed, _, ok⟩ := Except.bind_eq_ok_iff.mp ok
    cases needed with
    | false => cases ok
    | true =>
      simp only [if_true] at ok
      split at ok
      next node _ =>
        exact ⟨node, (Option.some.inj (Except.ok.inj ok)).symm⟩
      · cases ok

theorem forcedItem_eq_some {checkOutputNodes : List String}
    {inputNode : String} {item : IExecuteData}
    (ok : forcedItem workflow state output checkOutputNodes inputNode = .ok (some item)) :
    (∃ node, item = emptyItem node output) ∧ workflow.executionOrder ≠ some .v1 := by
  obtain ⟨covered, uncovered, ok⟩ := Except.bind_eq_ok_iff.mp ok
  cases covered with
  | true => cases ok
  | false =>
    constructor
    · simp only [Bool.false_eq_true, if_false] at ok
      split at ok
      · cases ok
      · exact itemToAdd_eq_some ok
    · intro order
      rw [inputIsCovered] at uncovered
      split at uncovered
      · cases uncovered
      · obtain ⟨_, _, uncovered⟩ := Except.bind_eq_ok_iff.mp uncovered
        have outcome := Except.ok.inj uncovered
        simp [Workflow.isLegacyExecutionOrder, order] at outcome

theorem enqueue_perm (data : ExecutionData) (item : IExecuteData) :
    (data.enqueue workflow item).nodeExecutionStack.Perm (item :: data.nodeExecutionStack) := by
  rw [ExecutionData.enqueue]
  split
  · exact List.Perm.refl _
  · exact (List.perm_append_singleton item data.nodeExecutionStack)

theorem followInputs_forces (workflow : Workflow) (output : ParentOutput)
    (nodeName : String) (nodeWasWaiting : Bool) :
    StateExcept.Always (Forces workflow output)
      (followInputs workflow output nodeName nodeWasWaiting) := by
  refine StateExcept.Always.ite (StateExcept.Always.pure _) ?_
  refine StateExcept.Always.bind (StateExcept.Always.ofExcept _) ?_
  intro checkOutputNodes
  refine StateExcept.Always.forM fun inputData _ => ?_
  refine StateExcept.Always.modifyOrThrow ?_
  intro before after ok
  obtain ⟨outcome, forced, ok⟩ := Except.bind_eq_ok_iff.mp ok
  match outcome, forced, ok with
  | none, _, ok =>
    cases ok
    exact Std.Refl.refl before
  | some item, forced, ok =>
    cases ok
    obtain ⟨isEmpty, legacy⟩ := forcedItem_eq_some forced
    exact
      { waiting := rfl
        sources := rfl
        stack := ⟨[item], by simpa using isEmpty, fun order => absurd order legacy,
          enqueue_perm before.executionData item⟩ }

def joinedItem (node : INode) (row : List (Option Holding)) : IExecuteData :=
  { node := node
    data := mainBy Holding.items row
    source := some (mainBy Holding.source row) }

/-- The call delivered to the buffer: a complete row went to the stack, and
otherwise the stack only got forced items. -/
structure Delivered (workflow : Workflow) (output : ParentOutput)
    (nodeName : String) (before after : ExecutionData)
    (delivery : JoinBuffer Holding × Option (List (Option Holding))) :
    Prop where
  represents : Represents after nodeName delivery.1
  stack : match delivery.2 with
    | some row => ∃ node, workflow.getNode nodeName = some node ∧ after.nodeExecutionStack =
          (before.enqueue workflow (joinedItem node row)).nodeExecutionStack
    | none => ∃ forced : List IExecuteData,
        (∀ item ∈ forced, ∃ node, item = emptyItem node output) ∧
          (workflow.executionOrder = some .v1 → forced = []) ∧
            after.nodeExecutionStack.Perm (forced ++ before.nodeExecutionStack)

theorem releaseWaiting_spec {data released : ExecutionData} {key : Nat}
    {nodeName : String} (output : ParentOutput)
    (represents : Represents data nodeName (buffer.set key row))
    (ok : releaseWaiting workflow nodeName key data = .ok released) :
    Delivered workflow output nodeName data released (buffer.delete key, some row) := by
  have items : (data.waitingExecution.entriesOf nodeName).get? key =
      some (mainBy Holding.items row) := by
    rw [represents.items]
    simp
  have sources : (data.waitingExecutionSource.entriesOf nodeName).get? key =
      some (mainBy Holding.source row) := by
    rw [represents.sources]
    simp
  rw [releaseWaiting, items, sources] at ok
  cases found : workflow.getNode nodeName with
  | none =>
    rw [found] at ok
    cases ok
  | some node =>
    rw [found] at ok
    cases ok
    have enqueued : Represents (data.enqueue workflow (joinedItem node row))
        nodeName (buffer.set key row) :=
      { items := represents.items
        sources := represents.sources
        together := represents.together }
    have deleted := enqueued.deleteWaiting key
    rw [delete_set] at deleted
    exact
      { represents := deleted
        stack := ⟨node, found, rfl⟩ }

theorem rewriteWaiting_spec {data rewritten : ExecutionData} {key : Nat} {holding : Holding}
    (represents : Represents data connectionData.node (buffer.set key row))
    (filled : row[input]? = some (some holding))
    (index : connectionData.index = input)
    (delivers : output.dataSlot = .value holding.items)
    (ok : rewriteWaiting workflow connectionData output key data = .ok rewritten) :
    Represents rewritten connectionData.node (buffer.set key row) ∧
      rewritten.nodeExecutionStack = data.nodeExecutionStack := by
  have stored : (buffer.set key row).get? key = some row := get?_set_self buffer key row
  have same : row.set input (some holding) = row := by
    apply List.ext_getElem?
    intro position
    rw [List.getElem?_set]
    split
    next equal =>
      subst equal
      rw [filled, if_pos (List.getElem?_eq_some_iff.mp filled).1]
    · rfl
  rw [rewriteWaiting, represents.items.main_eq_ok stored,
    represents.sources.main_eq_ok stored, delivers, index] at ok
  cases ok
  have prepared := represents.prepare (workflow.numberOfInputs connectionData.node) key
  rw [set_set] at prepared
  have items := prepared.items.setMain key row
  have sources := prepared.sources.setMain key row
  rw [set_set] at items sources
  refine ⟨⟨?_, sources, by simp [WaitingSlots.setMain, OrderedMap.has]⟩, rfl⟩
  rw [put_slotsBy (List.getElem?_eq_some_iff.mp filled).1, same]
  exact items

theorem addToWaiting_delivered
    (represents : Represents state.executionData connectionData.node buffer)
    (waiting : buffer.Waiting width)
    (inputs : workflow.numberOfInputs connectionData.node = width)
    (index : connectionData.index = input) (inside : input < width)
    (delivers : output.dataSlot = .value items)
    (ok : StateExcept.exec (addToWaiting workflow connectionData output) state = (.ok ⟨⟩, last)) :
    Delivered workflow output connectionData.node state.executionData last.executionData
      (buffer.deliver width input ⟨items, output.source⟩) := by
  rw [addToWaiting, exec_get_bind] at ok
  obtain ⟨waitingNodeIndex, opened, opening, ok⟩ := exec_bind_eq_ok.mp ok
  obtain ⟨openedData, rfl, openedStack, rfl, openedRepresents⟩ :=
    openWaitingEntry_spec represents inputs index opening
  obtain ⟨_, written, writing, ok⟩ := exec_bind_eq_ok.mp ok
  have length := JoinBuffer.receivingRow_length input waiting
  obtain ⟨writtenData, rfl, writtenStack, writtenRepresents⟩ :=
    writeWaiting_spec openedRepresents (get?_set_self _ _ _)
      (by rw [length]; exact inside) index delivers writing
  rw [set_set, ← JoinBuffer.filledRow] at writtenRepresents
  rw [exec_get_bind] at ok
  obtain ⟨slots, _, reading, ok⟩ := exec_bind_eq_ok.mp ok
  rw [exec_ofExcept, writtenRepresents.items.main_eq_ok (get?_set_self _ _ _)] at reading
  obtain ⟨equal, rfl⟩ := Prod.mk.inj reading
  cases equal
  rw [all_not_isNull_slotsBy] at ok
  rw [JoinBuffer.deliver]
  have enqueued : (writtenData.enqueue workflow = fun item =>
      { writtenData with
        nodeExecutionStack := (state.executionData.enqueue workflow
          item).nodeExecutionStack }) := by
    funext item
    rw [ExecutionData.enqueue, ExecutionData.enqueue, writtenStack, openedStack]
  split at ok
  next full =>
    rw [if_pos full]
    obtain ⟨releasedData, released, rfl⟩ := Engine.exec_updateExecutionData_eq_ok.mp ok
    have delivered := releaseWaiting_spec output writtenRepresents released
    refine ⟨delivered.represents, ?_⟩
    obtain ⟨node, found, stack⟩ := delivered.stack
    refine ⟨node, found, ?_⟩
    rw [stack, enqueued]
  next notFull =>
    rw [if_neg notFull]
    obtain ⟨_, followed, following, ok⟩ := exec_bind_eq_ok.mp ok
    have forces : Forces workflow output { state with executionData := writtenData } followed := by
      have always := followInputs_forces workflow output connectionData.node
        (state.executionData.waitingExecution.has connectionData.node)
        { state with executionData := writtenData }
      rwa [following] at always
    obtain ⟨rewrittenData, rewritten, rfl⟩ := Engine.exec_updateExecutionData_eq_ok.mp ok
    have followedRepresents : Represents followed.executionData connectionData.node _ :=
      { items := by
          rw [WaitingSlots.Encodes, forces.waiting]
          exact writtenRepresents.items
        sources := by
          rw [WaitingSlots.Encodes, forces.sources]
          exact writtenRepresents.sources
        together := by
          rw [forces.waiting, forces.sources]
          exact writtenRepresents.together }
    have filled : (buffer.filledRow width input ⟨items, output.source⟩)[input]? =
          some (some ⟨items, output.source⟩) := by
      rw [JoinBuffer.filledRow, List.getElem?_set_self]
      rw [length]
      exact inside
    obtain ⟨represented, rewrittenStack⟩ := rewriteWaiting_spec
      followedRepresents filled index delivers rewritten
    refine ⟨represented, ?_⟩
    obtain ⟨forced, forcedItems, order, stack⟩ := forces.stack
    refine ⟨forced, forcedItems, order, ?_⟩
    rw [rewrittenStack]
    simp only [writtenStack, openedStack] at stack
    exact stack

end Delivery

end N8n
