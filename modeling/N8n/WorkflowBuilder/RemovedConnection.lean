import N8n.WorkflowBuilder.RemovedNodes

/-!
# Removing a connection

The list of the output is replaced by a new one without the connection, in
the array that is there; a type or a source that is left without connections
is dropped.  Each of these writes goes to an object of the call exactly if
the array does.
-/

namespace N8n.OperationsProcessor

open OrderedMap

section Filter

variable {start heap : Heap} {connections : IConnections}
  {source type : String} {outputs index list table : Nat}

def filteredHeap (heap : Heap) (outputs index : Nat) (remaining : List IConnection) : Heap :=
  { heap with
    lists := (heap.lists.allocate remaining).1
    outputs := heap.outputs.write outputs
      ((heap.outputs.read outputs).set index (some heap.lists.size)) }

theorem join_getElem?_set {outputs : List (Option Nat)} {index : Nat}
    (entry : (outputs[index]?).join = some list) (new other : Nat) :
    ((outputs.set index (some new))[other]?).join =
      if other = index then some new else (outputs[other]?).join := by
  have inside : index < outputs.length := by
    by_contra outside
    rw [List.getElem?_eq_none (Nat.le_of_not_lt outside)] at entry
    cases entry
  have same := join_getElem?_setOutput outputs index new other
  rwa [setOutput, if_pos inside] at same

theorem filteredHeap_owned (owned : Owned start heap connections)
    (reached : outputsRef? heap connections source type = some outputs)
    (own : start.outputs.size ≤ outputs)
    (entry : listIn heap outputs index = some list) (remaining : List IConnection) :
    Owned start (filteredHeap heap outputs index remaining) connections := by
  apply (owned.allocateList remaining).putList reached own
  · rw [ObjectStore.size_allocate]
    exact Nat.lt_succ_self _
  · intro _ other otherType otherIndex found
    have inside : heap.lists.size < heap.lists.size := list_inside owned.closed found
    omega
  · exact join_getElem?_set entry heap.lists.size

theorem filteredHeap_connectionsAt (owned : Owned start heap connections)
    (reached : outputsRef? heap connections source type = some outputs)
    (own : start.outputs.size ≤ outputs)
    (entry : listIn heap outputs index = some list)
    (remaining : List IConnection) (other otherType : String) (otherIndex : Nat) :
    connectionsAt (filteredHeap heap outputs index remaining) connections
        other otherType otherIndex =
      if other = source ∧ otherType = type ∧ otherIndex = index then remaining
      else connectionsAt heap connections other otherType otherIndex := by
  have added := owned.allocateList remaining
  have path := added.listRef?_writeOutputs reached own
    ((heap.outputs.read outputs).set index (some heap.lists.size)) other
    otherType otherIndex
  have kept : contents (heap.lists.allocate remaining).1
      (listRef? heap connections other otherType otherIndex) =
        connectionsAt heap connections other otherType otherIndex := by
    exact contents_kept (.allocate (.refl _ _) le_rfl remaining)
      fun list found => list_inside owned.closed found
  refine (congrArg (contents (heap.lists.allocate remaining).1) path).trans ?_
  by_cases here : other = source ∧ otherType = type
  · obtain ⟨rfl, rfl⟩ := here
    rw [if_pos ⟨rfl, rfl⟩, join_getElem?_set entry]
    by_cases same : otherIndex = index
    · rw [if_pos same, if_pos ⟨rfl, rfl, same⟩]
      exact heap.lists.read_allocate_self remaining
    · rw [if_neg same, if_neg fun all => same all.2.2, ← kept, listRef?_of_outputsRef? reached]
      rfl
  · rw [if_neg here, if_neg fun all => here ⟨all.1, all.2.1⟩]
    exact kept

/-! ## Dropping what is left without connections -/

theorem deleteType_connectionsAt (owned : Owned start heap connections)
    (place : connections.get? source = some table) (own : start.tables.size ≤ table)
    (nothing : ∀ index, connectionsAt heap connections source type index = [])
    (other otherType : String) (index : Nat) :
    connectionsAt { heap with
        tables := heap.tables.write table ((heap.tables.read table).delete type) }
      connections other otherType index = connectionsAt heap connections other otherType index := by
  rw [connectionsAt_eq, connectionsAt_eq, owned.listRef?_writeTable place own]
  by_cases same : other = source
  · subst other
    rw [if_pos rfl, get?_delete]
    by_cases here : type = otherType
    · subst otherType
      rw [if_pos rfl, ← connectionsAt_eq, nothing]
      rfl
    · rw [if_neg here]
      simp only [listRef?]
      rw [outputsRef?_of_get? place]
  · rw [if_neg same]

theorem deleteSource_connectionsAt
    (nothing : ∀ type index, connectionsAt heap connections source type index = [])
    (other type : String) (index : Nat) :
    connectionsAt heap (connections.delete source) other type index =
      connectionsAt heap connections other type index := by
  by_cases same : source = other
  · subst other
    rw [nothing, connectionsAt_eq]
    simp [listRef?, outputsRef?, get?_delete, contents]
  · have apart : (connections.delete source).get? other = connections.get? other := by
      rw [get?_delete, if_neg same]
    rw [connectionsAt_eq, connectionsAt_eq]
    simp only [listRef?, outputsRef?]
    rw [apart]

end Filter

/-! ## The operation -/

section Operation

variable {start : Heap} {state : State} {source target type : String}
  {sourceOutputIndex : Nat} {targetInputIndex : Int} {table outputs list : Nat}

/-- Some output of the array leads to a connection. -/
def HasConnections (heap : Heap) (outputs : Nat) : Bool :=
  (heap.outputs.read outputs).any fun output =>
    output.any fun list => !(heap.lists.read list).isEmpty

theorem contents_of_not_hasConnections {heap : Heap}
    (nothing : HasConnections heap outputs = false) (index : Nat) :
    contents heap.lists (listIn heap outputs index) = [] := by
  cases entry : listIn heap outputs index with
  | none => rfl
  | some list =>
    simp only [HasConnections, List.any_eq_false] at nothing
    have listed : some list ∈ heap.outputs.read outputs :=
      List.mem_of_getElem? (Option.join_eq_some_iff.mp entry)
    have isEmpty := nothing (some list) listed
    simpa [contents] using isEmpty

theorem removeConnection_missing
    (missing : listRef? state.heap state.workflow.connections source type
      sourceOutputIndex = none) :
    applyRemoveConnectionOperation state source target type
      sourceOutputIndex targetInputIndex = state := by
  unfold applyRemoveConnectionOperation
  cases place : state.workflow.connections.get? source with
  | none => rfl
  | some table =>
    simp only
    cases found : (state.heap.tables.read table).get? type with
    | none => rfl
    | some outputs =>
      simp only
      rw [listRef?_of_outputsRef? ((outputsRef?_of_get? place).trans found)] at missing
      rw [missing]

theorem removeConnection_found (place : state.workflow.connections.get? source = some table)
    (found : (state.heap.tables.read table).get? type = some outputs)
    (entry : listIn state.heap outputs sourceOutputIndex = some list) :
    applyRemoveConnectionOperation state source target type sourceOutputIndex targetInputIndex =
      let remaining := (state.heap.lists.read list).filter fun conn =>
        conn ≠ ⟨target, type, targetInputIndex⟩
      let filtered := filteredHeap state.heap outputs sourceOutputIndex remaining
      let left := (state.heap.tables.read table).delete type
      if remaining.isEmpty && !HasConnections filtered outputs then
        { heap := { filtered with
            tables := filtered.tables.write table left }
          workflow := { state.workflow with
            connections :=
              if left.entries.isEmpty then
                state.workflow.connections.delete source
              else state.workflow.connections } }
      else { state with heap := filtered } := by
  have same : (fun conn : IConnection =>
      !(conn.node = target && conn.type = type && conn.index = targetInputIndex)) =
      fun conn => decide (conn ≠ ⟨target, type, targetInputIndex⟩) := by
    funext conn
    cases conn
    simp [Bool.and_assoc]
  unfold applyRemoveConnectionOperation
  simp only [place, found, entry]
  rw [same]
  rfl

/-- The array that the operation writes to belongs to the call. -/
def OwnsOutputs (start : Heap) (state : State) (source type : String) (index : Nat) : Prop :=
  ∀ outputs, outputsRef? state.heap state.workflow.connections source type = some outputs →
    (listIn state.heap outputs index).isSome → start.outputs.size ≤ outputs

theorem dropEmpty {heap : Heap} {connections : IConnections} (owned : Owned start heap connections)
    (place : connections.get? source = some table) (own : start.tables.size ≤ table)
    (nothing : ∀ index, connectionsAt heap connections source type index = []) :
    let left := (heap.tables.read table).delete type
    let dropped := { heap with tables := heap.tables.write table left }
    let remaining :=
      if left.entries.isEmpty then connections.delete source else connections
    Owned start dropped remaining ∧ ∀ other otherType index,
      connectionsAt dropped remaining other otherType index =
        connectionsAt heap connections other otherType index := by
  intro left dropped remaining
  have same : ∀ other otherType index, connectionsAt dropped connections other otherType index =
        connectionsAt heap connections other otherType index :=
    deleteType_connectionsAt owned place own nothing
  by_cases isEmpty : left.entries.isEmpty
  · have isDeleted : remaining = connections.delete source := if_pos isEmpty
    have leftNothing : ∀ otherType index,
        connectionsAt dropped connections source otherType index = [] := by
      intro otherType index
      have absent : left.get? otherType = none := by
        rw [get?_eq_none_iff, keys, List.isEmpty_iff.mp isEmpty]
        exact List.not_mem_nil
      rw [connectionsAt_eq, owned.listRef?_writeTable place own, if_pos rfl, absent]
      rfl
    rw [isDeleted]
    refine ⟨(owned.deleteType place own).deleteSource source, ?_⟩
    intro other otherType index
    exact (deleteSource_connectionsAt leftNothing other otherType index).trans
      (same other otherType index)
  · have isKept : remaining = connections := if_neg isEmpty
    rw [isKept]
    exact ⟨owned.deleteType place own, same⟩

/-- Removing a connection from an array of the call removes this connection
from this output and nothing else. -/
theorem removeConnection_spec (owned : Owned start state.heap state.workflow.connections)
    (own : OwnsOutputs start state source type sourceOutputIndex) :
    let after := applyRemoveConnectionOperation state source target type
      sourceOutputIndex targetInputIndex
    Owned start after.heap after.workflow.connections ∧ ∀ other otherType index,
        connectionsAt after.heap after.workflow.connections other otherType index =
          if other = source ∧ otherType = type ∧ index = sourceOutputIndex then
            (connectionsAt state.heap state.workflow.connections other
              otherType index).filter fun conn =>
                conn ≠ ⟨target, type, targetInputIndex⟩
          else connectionsAt state.heap state.workflow.connections other otherType index := by
  cases path : listRef? state.heap state.workflow.connections source type sourceOutputIndex with
  | none =>
    rw [removeConnection_missing path]
    refine ⟨owned, fun other otherType index => ?_⟩
    split
    next here =>
      obtain ⟨rfl, rfl, rfl⟩ := here
      rw [connectionsAt_eq, path]
      rfl
    next => rfl
  | some list =>
    obtain ⟨outputs, reached, entry⟩ := listRef?_eq_some.mp path
    obtain ⟨table, place, found⟩ := outputsRef?_eq_some.mp reached
    have ownOutputs : start.outputs.size ≤ outputs := own outputs reached (by rw [entry]; rfl)
    have ownTable : start.tables.size ≤ table := by
      by_contra callers
      have := owned.outputs_old (Nat.lt_of_not_le callers) found
      omega
    have isOwned := filteredHeap_owned owned reached ownOutputs entry
    have filters := filteredHeap_connectionsAt owned reached ownOutputs entry
    have old : connectionsAt state.heap state.workflow.connections source
        type sourceOutputIndex = state.heap.lists.read list := by
      rw [connectionsAt_eq, path]
      rfl
    rw [removeConnection_found place found entry]
    simp only
    split
    next isEmpty =>
      rw [Bool.and_eq_true, Bool.not_eq_true'] at isEmpty
      let remaining := (state.heap.lists.read list).filter fun conn =>
        conn ≠ ⟨target, type, targetInputIndex⟩
      have nothing : ∀ index, connectionsAt
          (filteredHeap state.heap outputs sourceOutputIndex remaining)
          state.workflow.connections source type index = [] := by
        intro index
        have there : outputsRef? (filteredHeap state.heap outputs sourceOutputIndex remaining)
            state.workflow.connections source type = some outputs := reached
        rw [connectionsAt_eq, listRef?_of_outputsRef? there]
        exact contents_of_not_hasConnections isEmpty.2 index
      obtain ⟨keeps, shows⟩ := dropEmpty (isOwned remaining) place ownTable nothing
      refine ⟨keeps, fun other otherType index => ?_⟩
      refine (shows other otherType index).trans ?_
      rw [filters]
      split
      next here =>
        obtain ⟨rfl, rfl, rfl⟩ := here
        rw [old]
      next => rfl
    next =>
      refine ⟨isOwned _, fun other otherType index => ?_⟩
      rw [filters]
      split
      next here =>
        obtain ⟨rfl, rfl, rfl⟩ := here
        rw [old]
      next => rfl

theorem ownsOutputs_of_unchanged (owned : Owned start state.heap state.workflow.connections)
    (unchanged : start.Unchanged (applyRemoveConnectionOperation state source
      target type sourceOutputIndex targetInputIndex).heap) :
    OwnsOutputs start state source type sourceOutputIndex := by
  intro outputs reached isList
  obtain ⟨list, entry⟩ := Option.isSome_iff_exists.mp isList
  obtain ⟨table, place, found⟩ := outputsRef?_eq_some.mp reached
  by_contra callers
  have written : start.Unchanged (applyRemoveConnectionOperation state source
      target type sourceOutputIndex targetInputIndex).heap →
      ObjectStore.KeepsBelow start.outputs.size start.outputs (state.heap.outputs.write outputs
          ((state.heap.outputs.read outputs).set sourceOutputIndex
            (some state.heap.lists.size))) := by
    rw [removeConnection_found place found entry]
    simp only
    split
    next => exact fun same => same.outputs
    next => exact fun same => same.outputs
  have same := owned.outputs.object_eq_of_write (Nat.lt_of_not_le callers)
    owned.outputsSize (written unchanged)
  have new := join_getElem?_set entry state.heap.lists.size sourceOutputIndex
  rw [same, if_pos rfl] at new
  have inside := owned.closed.lists (show listIn state.heap outputs
    sourceOutputIndex = some state.heap.lists.size from new)
  omega

end Operation

end N8n.OperationsProcessor
