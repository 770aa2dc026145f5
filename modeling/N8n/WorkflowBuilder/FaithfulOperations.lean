import Mathlib.Data.List.Induction
import N8n.WorkflowBuilder.RemovedConnection

/-!
# Faithful operations

A call of `applyOperations` is faithful if every operation leaves the objects
of the caller as they are and does to the connections what its name says.
The code is so exactly if no operation writes to an object which the caller
still holds, no connection is repeated, and a node that is removed has the
same connections under its id as under its name.
-/

namespace N8n.OperationsProcessor

open List OrderedMap

/-! ## Calls -/

/-- The tables of the operation are objects of the heap. -/
def WorkflowOperation.Held (heap : Heap) : WorkflowOperation → Prop
  | .setConnections connections => heap.Holds connections
  | .mergeConnections connections => heap.Holds connections
  | _ => True

structure Call where
  heap : Heap
  workflow : SimpleWorkflow
  operations : List WorkflowOperation
  closed : heap.Closed
  held : heap.Holds workflow.connections
  operationsHeld : ∀ operation ∈ operations, operation.Held heap
  uniqueIds : (workflow.nodes.map INode.id).Nodup
  uniqueNames : (workflow.nodes.map INode.name).Nodup
  keyedByName : ∀ source ∈ workflow.connections.keys, source ∈ workflow.nodes.map INode.name

/-- The state after some operations of the call. -/
def Call.after (call : Call) (operations : List WorkflowOperation) : State :=
  applyOperations call.heap call.workflow operations

def Call.EveryStep (call : Call) (holds : State → WorkflowOperation → Prop) : Prop :=
  ∀ before operation later, call.operations = before ++ operation :: later →
      holds (call.after before) operation

/-! ## What the operations are for -/

/-- `connections[source][type][index]` in a state. -/
def State.connectionsAt (state : State) (source type : String) (index : Nat) : List IConnection :=
  OperationsProcessor.connectionsAt state.heap state.workflow.connections source type index

def namesOf (nodes : List INode) (nodeIds : List String) : List String :=
  (nodes.filter fun node => node.id ∈ nodeIds).map INode.name

/-- No node has a removed id, and the connections are those which neither
start nor end at a removed node. -/
structure RemovesNodes (nodeIds : List String) (before after : State) : Prop
    where
  nodes : ∀ node ∈ after.workflow.nodes, node.id ∉ nodeIds
  connections : ∀ source type index, after.connectionsAt source type index =
      (before.connectionsAt source type index).filter fun conn =>
        ¬ (source ∈ namesOf before.workflow.nodes nodeIds ∨
          conn.node ∈ namesOf before.workflow.nodes nodeIds)

/-- Each output has the union of the old and the new connections, without
repetition. -/
def MergesConnections (connections : IConnections) (before after : State) : Prop :=
  ∀ source type index, (after.connectionsAt source type index).Nodup ∧
      ∀ conn, conn ∈ after.connectionsAt source type index ↔
        conn ∈ before.connectionsAt source type index ∨
          conn ∈ connectionsAt before.heap connections source type index

/-- If the connection is there, then it is the one that is gone. -/
def RemovesConnection (source target type : String) (sourceOutputIndex : Nat)
    (targetInputIndex : Int) (before after : State) : Prop :=
  ⟨target, type, targetInputIndex⟩ ∈ before.connectionsAt source type sourceOutputIndex →
    ∀ other otherType index, after.connectionsAt other otherType index =
      if other = source ∧ otherType = type ∧ index = sourceOutputIndex then
        (before.connectionsAt other otherType index).filter fun conn =>
          conn ≠ ⟨target, type, targetInputIndex⟩
      else before.connectionsAt other otherType index

def WorkflowOperation.Does : WorkflowOperation → State → State → Prop
  | .removeNode nodeIds => RemovesNodes nodeIds
  | .mergeConnections connections => MergesConnections connections
  | .removeConnection source target type sourceOutputIndex targetInputIndex =>
    RemovesConnection source target type sourceOutputIndex targetInputIndex
  | _ => fun _ _ => True

/-- One operation does what it is for, and all objects of the caller are as
they were when the call began. -/
structure FaithfulStep (start : Heap) (state : State)
    (operation : WorkflowOperation) : Prop where
  unchanged : start.Unchanged (applyOperation state operation).heap
  does : operation.Does state (applyOperation state operation)

/-- The call changes nothing of the caller and its operations are faithful. -/
structure Call.Faithful (call : Call) : Prop where
  unchanged : call.heap.Unchanged (call.after call.operations).heap
  steps : call.EveryStep (FaithfulStep call.heap)

/-! ## When the code is faithful -/

/-- Seen from each connection, the removed ids stand for the removed nodes. -/
def IdsAreNames (state : State) (nodeIds : List String) : Prop :=
  ∀ source type index, ∀ conn ∈ state.connectionsAt source type index,
    source ∈ nodeIds ∨ conn.node ∈ nodeIds ↔ source ∈ namesOf state.workflow.nodes nodeIds ∨
        conn.node ∈ namesOf state.workflow.nodes nodeIds

/-- Neither the old connections of an output nor the new ones that it does
not have repeat themselves. -/
def NoRepetition (state : State) (connections : IConnections) : Prop :=
  ∀ source type index, (state.connectionsAt source type index).Nodup ∧
    ((connectionsAt state.heap connections source type index).filter
      fun conn => conn ∉ state.connectionsAt source type index).Nodup

def SoundStep (start : Heap) (state : State) : WorkflowOperation → Prop
  | .removeNode nodeIds => IdsAreNames state nodeIds
  | .mergeConnections connections =>
    KeepsAll start state connections ∧ NoRepetition state connections
  | .removeConnection source _ type sourceOutputIndex _ =>
    OwnsOutputs start state source type sourceOutputIndex
  | _ => True

theorem filter_eq_filter_iff {α : Type} {left right : α → Bool}
    {list : List α} : list.filter left = list.filter right ↔
      ∀ item ∈ list, left item = right item := by
  constructor
  · intro same item listed
    have both : item ∈ list.filter left ↔ item ∈ list.filter right := by
      rw [same]
    rw [mem_filter, mem_filter] at both
    exact Bool.eq_iff_iff.mpr (and_congr_right_iff.mp both listed)
  · exact filter_congr

section Steps

variable {start : Heap} {state : State}

theorem removesNodes_iff (owned : Owned start state.heap state.workflow.connections)
    (nodeIds : List String) :
    RemovesNodes nodeIds state (applyRemoveNodeOperation state nodeIds) ↔
      IdsAreNames state nodeIds := by
  have built : ∀ source type index,
      (applyRemoveNodeOperation state nodeIds).connectionsAt source type index =
        (state.connectionsAt source type index).filter fun conn =>
          ¬ (source ∈ nodeIds ∨ conn.node ∈ nodeIds) := by
    intro source type index
    refine ((removeNode_spec owned nodeIds).2 source type index).trans ?_
    by_cases removed : source ∈ nodeIds
    · simp [removed]
    · simp [removed, State.connectionsAt]
  have same : IdsAreNames state nodeIds ↔ ∀ source type index,
      (applyRemoveNodeOperation state nodeIds).connectionsAt source type index =
        (state.connectionsAt source type index).filter fun conn =>
          ¬ (source ∈ namesOf state.workflow.nodes nodeIds ∨
            conn.node ∈ namesOf state.workflow.nodes nodeIds) := by
    simp only [IdsAreNames, built, filter_eq_filter_iff, decide_not,
      Bool.not_inj_iff, decide_eq_decide]
  rw [same]
  constructor
  · exact fun removes => removes.connections
  · intro connections
    refine ⟨?_, connections⟩
    intro node listed
    have kept := (mem_filter.mp listed).2
    exact of_decide_eq_true kept

theorem nodup_append_additions (old new : List IConnection) :
    (old ++ additions old new).Nodup ↔ old.Nodup ∧ (additions old new).Nodup := by
  rw [nodup_append]
  constructor
  · exact fun both => ⟨both.1, both.2.1⟩
  · rintro ⟨oldNodup, newNodup⟩
    refine ⟨oldNodup, newNodup, ?_⟩
    rintro conn inOld other inNew rfl
    have absent := (mem_filter.mp inNew).2
    exact of_decide_eq_true absent inOld

theorem mergesConnections_iff {connections : IConnections}
    (owned : Owned start state.heap state.workflow.connections)
    (holds : start.Holds connections) (keeps : KeepsAll start state connections) :
    MergesConnections connections state (applyMergeConnectionsOperation state connections) ↔
      NoRepetition state connections := by
  have merged := (merge_spec owned holds keeps).2
  refine forall_congr' fun source => forall_congr' fun type =>
    forall_congr' fun index => ?_
  have content : (applyMergeConnectionsOperation state
      connections).connectionsAt source type index = state.connectionsAt source type index ++
          additions (state.connectionsAt source type index)
            (connectionsAt state.heap connections source type index) :=
    merged source type index
  rw [content, nodup_append_additions]
  have isUnion : ∀ conn, conn ∈ state.connectionsAt source type index ++
      additions (state.connectionsAt source type index)
        (connectionsAt state.heap connections source type index) ↔
      conn ∈ state.connectionsAt source type index ∨
        conn ∈ connectionsAt state.heap connections source type index := by
    intro conn
    simp only [additions, mem_append, mem_filter, decide_eq_true_eq]
    tauto
  exact ⟨fun both => both.1, fun once => ⟨once, isUnion⟩⟩

variable {operation : WorkflowOperation}

theorem owned_step (owned : Owned start state.heap state.workflow.connections)
    (held : operation.Held start) (sound : SoundStep start state operation) :
    Owned start (applyOperation state operation).heap
      (applyOperation state operation).workflow.connections := by
  cases operation with
  | clear => exact owned.empty
  | removeNode nodeIds => exact (removeNode_spec owned nodeIds).1
  | addNodes nodes => exact owned
  | updateNode nodeId updates => exact owned
  | setConnections connections => exact owned.replaced held
  | mergeConnections connections =>
    exact (merge_spec owned held sound.1).1
  | removeConnection source target type sourceOutputIndex
      targetInputIndex => exact (removeConnection_spec owned sound).1
  | setName name => exact owned

theorem faithfulStep_iff (owned : Owned start state.heap state.workflow.connections)
    (held : operation.Held start) :
    FaithfulStep start state operation ↔ SoundStep start state operation := by
  have unchanged : SoundStep start state operation →
      start.Unchanged (applyOperation state operation).heap :=
    fun sound => (owned_step owned held sound).toUnchanged
  cases operation with
  | removeNode nodeIds =>
    rw [show SoundStep start state (.removeNode nodeIds) =
      IdsAreNames state nodeIds from rfl, ← removesNodes_iff owned]
    exact ⟨fun faithful => faithful.does,
      fun removes => ⟨unchanged ((removesNodes_iff owned _).mp removes), removes⟩⟩
  | mergeConnections connections =>
    constructor
    · intro faithful
      have keeps := keepsAll_of_unchanged owned held faithful.unchanged
      exact ⟨keeps, (mergesConnections_iff owned held keeps).mp faithful.does⟩
    · intro sound
      exact ⟨unchanged sound, (mergesConnections_iff owned held sound.1).mpr sound.2⟩
  | removeConnection source target type sourceOutputIndex targetInputIndex =>
    constructor
    · exact fun faithful =>
        ownsOutputs_of_unchanged owned faithful.unchanged
    · intro sound
      exact ⟨unchanged sound, fun _ => (removeConnection_spec owned sound).2⟩
  | clear | addNodes | updateNode | setConnections | setName =>
    exact ⟨fun _ => True.intro, fun sound => ⟨unchanged sound, sound⟩⟩

end Steps

/-! ## The whole call -/

theorem Call.after_append (call : Call) (before : List WorkflowOperation)
    (operation : WorkflowOperation) :
    call.after (before ++ [operation]) = applyOperation (call.after before) operation := by
  simp [Call.after, applyOperations]

theorem Call.owned_after (call : Call) {holds : State → WorkflowOperation → Prop}
    (sound : ∀ {state operation}, Owned call.heap state.heap state.workflow.connections →
      operation.Held call.heap → holds state operation → SoundStep call.heap state operation)
    (steps : call.EveryStep holds) {before later : List WorkflowOperation}
    (split : call.operations = before ++ later) :
    Owned call.heap (call.after before).heap (call.after before).workflow.connections := by
  induction before using List.reverseRecOn generalizing later with
  | nil => exact .atStart call.closed call.held
  | append_singleton before operation ih =>
    rw [append_assoc] at split
    have owned := ih split
    have held : operation.Held call.heap := call.operationsHeld operation (by rw [split]; simp)
    rw [call.after_append]
    exact owned_step owned held (sound owned held (steps before operation later split))

/-- A call is faithful exactly if each of its steps is sound. -/
theorem applyOperations_faithful_iff (call : Call) :
    call.Faithful ↔ call.EveryStep (SoundStep call.heap) := by
  have held : ∀ {before operation later},
      call.operations = before ++ operation :: later → operation.Held call.heap := by
    intro before operation later split
    exact call.operationsHeld operation (by rw [split]; simp)
  constructor
  · intro faithful before operation later split
    have owned := call.owned_after (fun owned held step => (faithfulStep_iff owned held).mp step)
      faithful.steps split
    exact (faithfulStep_iff owned (held split)).mp (faithful.steps before operation later split)
  · intro sound
    refine ⟨?_, ?_⟩
    · have owned := call.owned_after (fun _ _ step => step) sound (append_nil call.operations).symm
      exact owned.toUnchanged
    · intro before operation later split
      have owned := call.owned_after (fun _ _ step => step) sound split
      exact (faithfulStep_iff owned (held split)).mpr (sound before operation later split)

namespace CallExample

theorem closed_of_objects {heap : Heap}
    (outputs : ∀ table ∈ heap.tables.objects, ∀ entry ∈ table.entries, entry.2 < heap.outputs.size)
    (lists : ∀ outputs ∈ heap.outputs.objects, ∀ output ∈ outputs,
      ∀ list ∈ output, list < heap.lists.size) : heap.Closed where
  outputs := by
    intro table type ref found
    rw [get?_eq_some_iff, ObjectStore.read, getD_eq_getElem?_getD] at found
    cases object : heap.tables.objects[table]? with
    | none =>
      rw [object] at found
      cases found
    | some entries =>
      rw [object] at found
      exact outputs entries (mem_of_getElem? object) _ found
  lists := by
    intro outputs index ref found
    rw [listIn, ObjectStore.read, getD_eq_getElem?_getD] at found
    cases object : heap.outputs.objects[outputs]? with
    | none =>
      rw [object] at found
      cases found
    | some entries =>
      rw [object] at found
      exact lists entries (mem_of_getElem? object) (some ref)
        (mem_of_getElem? (Option.join_eq_some_iff.mp found)) ref rfl

/-- The first table belongs to the workflow, the second to an operation. -/
def heap : Heap where
  lists := ⟨[[⟨"AI Agent", "main", 0⟩], [⟨"Summary", "main", 0⟩]]⟩
  outputs := ⟨[[some 0], [some 1]]⟩
  tables := ⟨[empty.set "main" 0, empty.set "main" 1]⟩

def workflow : SimpleWorkflow where
  nodes := [{ id := "1", name := "Chat Trigger" },
    { id := "2", name := "AI Agent" }, { id := "3", name := "Summary" }]
  connections := empty.set "Chat Trigger" 0
  name := "Chat"

def call (operation : WorkflowOperation) (held : operation.Held heap) : Call where
  heap := heap
  workflow := workflow
  operations := [operation]
  closed := closed_of_objects (by decide) (by decide)
  held := by
    intro source table found
    rw [get?_eq_some_iff] at found
    cases mem_singleton.mp found
    decide
  operationsHeld := by
    intro other listed
    cases mem_singleton.mp listed
    exact held
  uniqueIds := by decide
  uniqueNames := by decide
  keyedByName := by decide

def merging : Call :=
  call (.mergeConnections (empty.set "Chat Trigger" 1)) (by
    intro source table found
    rw [get?_eq_some_iff] at found
    cases mem_singleton.mp found
    decide)

def removing : Call := call (.removeNode ["2"]) True.intro

/-- The merge appends to the list of the workflow that was passed in, and
the connection to the removed agent stays. -/
theorem not_faithful_merging_removing : ¬ merging.Faithful ∧ ¬ removing.Faithful := by
  constructor
  · intro faithful
    have same := faithful.unchanged.lists 0 (by decide)
    revert same
    decide +kernel
  · intro faithful
    have step := faithful.steps [] (.removeNode ["2"]) [] rfl
    have gone := step.does.connections "Chat Trigger" "main" 0
    revert gone
    decide +kernel

end CallExample

end N8n.OperationsProcessor
