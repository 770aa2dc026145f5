import N8n.WorkflowBuilder.MergeConnections

/-!
# The merge as a whole

The loop through the sources closes the merge.  Its guards say that the call
owns whatever the merge adds something to; they are the exact condition under
which the caller's objects stay as they are, and then each output leads to
its old connections followed by the new ones that it did not have.
-/

namespace N8n.OperationsProcessor

open OrderedMap

/-! ## Tables of the caller -/

theorem slot_eq_newTable (heap : Heap) (connections : IConnections)
    (source type : String) (index : Nat) :
    slot heap connections source type index =
      match connections.get? source with
      | none => none
      | some table => ((newTable heap table).types type).slots index := by
  cases place : connections.get? source with
  | none => simp [slot, listRef?, outputsRef?, place]
  | some table =>
    have path : outputsRef? heap connections source type =
        (heap.tables.read table).get? type := outputsRef?_of_get? place
    simp only [newTable]
    cases found : (heap.tables.read table).get? type with
    | none =>
      exact congrArg (fun view => view.slots index) (typeView_of_missing (path.trans found))
    | some outputs => exact slot_of_outputsRef? (path.trans found) index

theorem newTable_old {start heap : Heap} {connections : IConnections}
    (owned : Owned start heap connections) {table : Nat}
    (old : table < start.tables.size) :
    newTable heap table = newTable start table := by
  simp only [newTable, owned.entry_old old, SourceView.mk.injEq, true_and]
  funext type
  cases found : (start.tables.read table).get? type with
  | none => rfl
  | some outputs => exact newOutputs_old owned (owned.began.outputs found)

section Sources

variable {start : Heap} {merged : Heap × IConnections} {entry : String × Nat}

theorem guards_newTable (owned : Owned start merged.1 merged.2)
    (old : entry.2 < start.tables.size) {existing : Nat}
    (place : merged.2.get? entry.1 = some existing) :
    KeepsSource start entry.2 (sourceView merged entry.1) ↔
      ∀ item ∈ (merged.1.tables.read entry.2).ownEntries, KeepsType start existing item.2
          (typeView merged.1 merged.2 entry.1 item.1) := by
  simp only [KeepsSource, sourceView, place, mem_ownEntries, owned.entry_old old, get?_eq_some_iff]
  exact ⟨fun guarded item listed => guarded item.1 item.2 listed,
    fun guarded type outputs listed => guarded (type, outputs) listed⟩

theorem outputs_newTable (owned : Owned start merged.1 merged.2)
    (old : entry.2 < start.tables.size) :
    ∀ item ∈ (merged.1.tables.read entry.2).ownEntries, item.2 < start.outputs.size := by
  intro item listed
  rw [mem_ownEntries] at listed
  exact owned.outputs_old old (get?_eq_some_iff.mpr listed)

theorem sourceView_set (owned : Owned start merged.1 merged.2)
    (old : entry.2 < start.tables.size) (source : String) :
    sourceView (merged.1, merged.2.set entry.1 entry.2) source =
      if source = entry.1 then newTable start entry.2
      else sourceView merged source := by
  by_cases same : source = entry.1
  · subst same
    rw [if_pos rfl]
    simp only [sourceView, newTable, get?_set_self, SourceView.mk.injEq, true_and]
    funext type
    have path : outputsRef? merged.1 (merged.2.set entry.1 entry.2) entry.1
        type = (start.tables.read entry.2).get? type := by
      rw [outputsRef?_of_get? (get?_set_self _ _ _), owned.entry_old old]
    cases found : (start.tables.read entry.2).get? type with
    | none => exact typeView_of_missing (path.trans found)
    | some outputs =>
      rw [typeView_of_outputsRef? (path.trans found)]
      exact newOutputs_old owned (owned.began.outputs found)
  · rw [if_neg same]
    have apart : (merged.2.set entry.1 entry.2).get? source = merged.2.get? source :=
      get?_set_ne _ _ (Ne.symm same)
    simp only [sourceView, apart, SourceView.mk.injEq, true_and]
    funext type
    unfold typeView slot listRef? outputsRef?
    rw [apart]

theorem mergeSource_spec (owned : Owned start merged.1 merged.2) (old : entry.2 < start.tables.size)
    (guarded : KeepsSource start entry.2 (sourceView merged entry.1)) :
    Owned start (mergeSource merged entry).1 (mergeSource merged entry).2 ∧
      ∀ source, sourceView (mergeSource merged entry) source =
        if source = entry.1 then mergeSourceView start entry.2 (sourceView merged entry.1)
        else sourceView merged source := by
  cases place : merged.2.get? entry.1 with
  | none =>
    have result : mergeSource merged entry = (merged.1, merged.2.set entry.1 entry.2) := by
      simp only [mergeSource, place]
    have view : mergeSourceView start entry.2 (sourceView merged entry.1) =
        newTable start entry.2 := by
      simp only [mergeSourceView, sourceView, place]
    rw [result, view]
    refine ⟨?_, sourceView_set owned old⟩
    apply owned.setSource
    · exact Nat.lt_of_lt_of_le old owned.tablesSize
    · intro notBelow
      omega
    · intro type outputs found
      exact owned.outputs_old old found
  | some existing =>
    have result : mergeSource merged entry = ((merged.1.tables.read entry.2).ownEntries.foldl
          (mergeType existing) merged.1, merged.2) := by
      simp only [mergeSource, place]
    have begins : MergesSource start merged.1 merged.2 entry.1 existing
        merged.1 := ⟨owned, place, fun _ _ _ => rfl⟩
    obtain ⟨ends, acted, frame⟩ := mergeType_actsLocally.foldl
      (outputs_newTable owned old) (ownKeys_nodup _) begins
      ((guards_newTable owned old place).mp guarded)
    rw [result]
    refine ⟨ends.toOwned, fun source => ?_⟩
    by_cases same : source = entry.1
    · subst same
      rw [if_pos rfl]
      simp only [mergeSourceView, sourceView, place, SourceView.mk.injEq, true_and]
      funext type
      cases found : (start.tables.read entry.2).get? type with
      | none =>
        apply frame
        rw [← owned.entry_old old, get?_eq_none_iff] at found
        exact fun listed => found (mem_ownKeys.mp listed)
      | some outputs =>
        rw [← owned.entry_old old, get?_eq_some_iff] at found
        exact acted (type, outputs) (mem_ownEntries.mpr found)
    · rw [if_neg same]
      simp only [sourceView, SourceView.mk.injEq, true_and]
      exact funext fun type => ends.frame source type same

theorem mergeSource_spoils (owned : Owned start merged.1 merged.2)
    (old : entry.2 < start.tables.size)
    (unguarded : ¬ KeepsSource start entry.2 (sourceView merged entry.1)) :
    Spoilt start (mergeSource merged entry).1 := by
  cases place : merged.2.get? entry.1 with
  | none =>
    simp only [KeepsSource, sourceView, place] at unguarded
    exact (unguarded True.intro).elim
  | some existing =>
    have begins : MergesSource start merged.1 merged.2 entry.1 existing
        merged.1 := ⟨owned, place, fun _ _ _ => rfl⟩
    by_contra sound
    simp only [mergeSource, place] at sound
    apply unguarded
    rw [guards_newTable owned old place]
    exact mergeType_actsLocally.guards_of_not_spoilt
      (fun old merges fails => mergeType_spoils merges old fails)
      (fun spoilt => spoilt.of_grows (mergeType_grows start _ _ _))
      (outputs_newTable owned old) (ownKeys_nodup _) begins sound

theorem mergeSource_actsLocally : ActsLocally mergeSource Prod.fst sourceView
      (fun entry => mergeSourceView start entry.2)
      (fun entry => KeepsSource start entry.2)
      (fun merged => Owned start merged.1 merged.2)
      (fun entry => entry.2 < start.tables.size) where
  preserved old owned guarded := (mergeSource_spec owned old guarded).1
  acts old owned guarded := ((mergeSource_spec owned old guarded).2 _).trans (if_pos rfl)
  others old owned guarded _ apart :=
    ((mergeSource_spec owned old guarded).2 _).trans (if_neg apart)

end Sources

/-! ## What the outputs lead to -/

theorem additions_nil_left (new : List IConnection) : additions [] new = new := by
  simp [additions]

theorem connections_mergeSlot (new old : Slot) : (mergeSlot new old).connections =
      old.connections ++ additions old.connections new.connections := by
  cases new with
  | none => exact (List.append_nil _).symm
  | some new =>
    cases old with
    | none => exact (additions_nil_left _).symm
    | some old => rfl

theorem connections_mergeTypeView {start : Heap} {outputs : Nat} {old : TypeView}
    (missing : old.outputs = none → ∀ index, old.slots index = none) (index : Nat) :
    ((mergeTypeView start outputs old).slots index).connections =
      (old.slots index).connections ++ additions (old.slots index).connections
          (slotIn start outputs index).connections := by
  cases place : old.outputs with
  | none =>
    simp only [mergeTypeView, place, missing place]
    exact (additions_nil_left _).symm
  | some existing =>
    simp only [mergeTypeView, place]
    exact connections_mergeSlot _ _

theorem typeView_missing (heap : Heap) (connections : IConnections) (source type : String)
    (missing : (typeView heap connections source type).outputs = none)
    (index : Nat) :
    (typeView heap connections source type).slots index = none := by
  rw [typeView_of_missing missing]

variable {merged : Heap × IConnections}

theorem sourceView_missing {source : String}
    (missing : merged.2.get? source = none) (type : String) :
    (sourceView merged source).types type = { outputs := none, slots := fun _ => none } := by
  apply typeView_of_missing
  simp [outputsRef?, missing]

theorem connections_mergeSourceView {start : Heap} {source : String}
    (table : Nat) (type : String) (index : Nat) :
    (((mergeSourceView start table (sourceView merged source)).types
      type).slots index).connections = (slot merged.1 merged.2 source type index).connections ++
          additions (slot merged.1 merged.2 source type index).connections
            (((newTable start table).types type).slots index).connections := by
  cases place : merged.2.get? source with
  | none =>
    have nothing : slot merged.1 merged.2 source type index = none :=
      congrArg (fun view => view.slots index) (sourceView_missing place type)
    have table_new : mergeSourceView start table
        (sourceView merged source) = newTable start table := by
      simp only [mergeSourceView, sourceView, place]
    rw [nothing, table_new]
    exact (additions_nil_left _).symm
  | some existing =>
    simp only [mergeSourceView, sourceView, place, newTable]
    cases found : (start.tables.read table).get? type with
    | none => exact (List.append_nil _).symm
    | some outputs =>
      exact connections_mergeTypeView (typeView_missing merged.1 merged.2 source type) index

section Merge

variable {start : Heap} {state : State} {connections : IConnections}

/-- The merge adds to own objects only. -/
def KeepsAll (start : Heap) (state : State) (connections : IConnections) : Prop :=
  ∀ source table, connections.get? source = some table → KeepsSource start table
      (sourceView (state.heap, state.workflow.connections) source)

theorem guards_merge : KeepsAll start state connections ↔
      ∀ entry ∈ connections.ownEntries, KeepsSource start entry.2
        (sourceView (state.heap, state.workflow.connections) entry.1) := by
  simp only [KeepsAll, mem_ownEntries, get?_eq_some_iff]
  exact ⟨fun guarded entry listed => guarded entry.1 entry.2 listed,
    fun guarded source table listed => guarded (source, table) listed⟩

theorem entries_held (holds : start.Holds connections) :
    ∀ entry ∈ connections.ownEntries, entry.2 < start.tables.size := by
  intro entry listed
  rw [mem_ownEntries] at listed
  exact holds entry.1 entry.2 (get?_eq_some_iff.mpr listed)

/-- A merge that adds to own objects only keeps the ownership, and each
output leads to its old connections and the new ones that it did not have. -/
theorem merge_spec (owned : Owned start state.heap state.workflow.connections)
    (holds : start.Holds connections) (guarded : KeepsAll start state connections) :
    Owned start (applyMergeConnectionsOperation state connections).heap
        (applyMergeConnectionsOperation state connections).workflow.connections ∧
      ∀ source type index, connectionsAt (applyMergeConnectionsOperation state connections).heap
          (applyMergeConnectionsOperation state
            connections).workflow.connections source type index =
          connectionsAt state.heap state.workflow.connections source type index ++
            additions (connectionsAt state.heap state.workflow.connections source type index)
              (connectionsAt state.heap connections source type index) := by
  obtain ⟨kept, acted, frame⟩ := mergeSource_actsLocally.foldl
    (entries_held holds) (ownKeys_nodup _) owned
    (guards_merge.mp guarded)
  refine ⟨kept, fun source type index => ?_⟩
  rw [← connections_slot, ← connections_slot, ← connections_slot,
    slot_eq_newTable state.heap connections]
  cases place : connections.get? source with
  | none =>
    have unlisted : source ∉ connections.ownEntries.map Prod.fst := by
      rw [get?_eq_none_iff] at place
      exact fun listed => place (mem_ownKeys.mp listed)
    have same := congrArg (fun view => ((view.types type).slots index).connections)
      (frame source unlisted)
    exact same.trans (List.append_nil _).symm
  | some table =>
    have listed : (source, table) ∈ connections.ownEntries :=
      mem_ownEntries.mpr (get?_eq_some_iff.mp place)
    have merged := congrArg (fun view => ((view.types type).slots index).connections)
      (acted (source, table) listed)
    simp only [newTable_old owned (holds source table place)]
    exact merged.trans (connections_mergeSourceView table type index)

/-- A merge that leaves the caller's objects as they are adds to own objects
only. -/
theorem keepsAll_of_unchanged (owned : Owned start state.heap state.workflow.connections)
    (holds : start.Holds connections) (unchanged : start.Unchanged
      (applyMergeConnectionsOperation state connections).heap) :
    KeepsAll start state connections := by
  rw [guards_merge]
  let spoilt : Heap × IConnections → Prop := fun merged =>
    Spoilt start merged.1
  have lasts : ∀ {merged entry}, spoilt merged → spoilt (mergeSource merged entry) :=
    fun bad => bad.of_grows (mergeSource_grows start _ _)
  have sound : ¬ spoilt (connections.ownEntries.foldl mergeSource
      (state.heap, state.workflow.connections)) :=
    fun bad => bad.2 unchanged
  exact mergeSource_actsLocally.guards_of_not_spoilt
    (fun old owned fails => mergeSource_spoils owned old fails) lasts
    (entries_held holds) (ownKeys_nodup _) owned sound

end Merge

end N8n.OperationsProcessor
