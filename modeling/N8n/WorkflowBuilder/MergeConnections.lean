import N8n.Library.LocalFold
import N8n.WorkflowBuilder.OwnedTables

/-!
# Merging connections

A merge walks through the sources, types and output indices of the
operation.  Each of the three loops acts once under each of its keys, so the
result can be read off from what was there before.  The merge writes to an
object of the caller exactly if one of the guards fails in the state before
it: what the merge adds to an object of the caller stays in it to the end of
the merge.
-/

namespace N8n.OperationsProcessor

open List OrderedMap

/-! ## Views -/

/-- What an output leads to: the reference and the connections. -/
abbrev Slot := Option (Nat × List IConnection)

def Slot.connections : Slot → List IConnection
  | none => []
  | some (_, list) => list

section

variable (heap : Heap)

/-- `outputs[index]` -/
def slotIn (outputs index : Nat) : Slot :=
  (listIn heap outputs index).map fun list => (list, heap.lists.read list)

section

variable (connections : IConnections) (source type : String)

/-- `connections[source][type][index]` -/
def slot (index : Nat) : Slot :=
  (listRef? heap connections source type index).map fun list =>
    (list, heap.lists.read list)

theorem connections_slot (index : Nat) : (slot heap connections source type index).connections =
      connectionsAt heap connections source type index := by
  simp only [slot, connectionsAt]
  cases listRef? heap connections source type index with
  | none => rfl
  | some list => rfl

structure TypeView where
  outputs : Option Nat
  slots : Nat → Slot

def typeView : TypeView where
  outputs := outputsRef? heap connections source type
  slots := slot heap connections source type

end

structure SourceView where
  table : Option Nat
  types : String → TypeView

def sourceView (merged : Heap × IConnections) (source : String) : SourceView where
  table := merged.2.get? source
  types := typeView merged.1 merged.2 source

def newOutputs (outputs : Nat) : TypeView where
  outputs := some outputs
  slots := slotIn heap outputs

def newTable (table : Nat) : SourceView where
  table := some table
  types type :=
    match (heap.tables.read table).get? type with
    | none => { outputs := none, slots := fun _ => none }
    | some outputs => newOutputs heap outputs

end

/-! ## What a merge makes of a view -/

def mergeSlot : Slot → Slot → Slot
  | none, old => old
  | some new, none => some new
  | some (_, new), some (list, old) => some (list, old ++ additions old new)

def mergeTypeView (start : Heap) (outputs : Nat) (old : TypeView) : TypeView :=
  match old.outputs with
  | none => newOutputs start outputs
  | some _ =>
    { old with
      slots := fun index =>
        mergeSlot (slotIn start outputs index) (old.slots index) }

def mergeSourceView (start : Heap) (table : Nat) (old : SourceView) : SourceView :=
  match old.table with
  | none => newTable start table
  | some _ =>
    { old with
      types := fun type =>
        match (start.tables.read table).get? type with
        | none => old.types type
        | some outputs => mergeTypeView start outputs (old.types type) }

/-! ## Guards

The merge adds something to an object only if the call owns it. -/

def KeepsSlot (start : Heap) (outputs : Nat) : Slot → Slot → Prop
  | none, _ => True
  | some _, none => start.outputs.size ≤ outputs
  | some (_, new), some (list, old) =>
    additions old new = [] ∨ start.lists.size ≤ list

def KeepsType (start : Heap) (table outputs : Nat) (old : TypeView) : Prop :=
  match old.outputs with
  | none => start.tables.size ≤ table
  | some existing => ∀ index,
      KeepsSlot start existing (slotIn start outputs index) (old.slots index)

def KeepsSource (start : Heap) (table : Nat) (old : SourceView) : Prop :=
  match old.table with
  | none => True
  | some existing => ∀ type outputs, (start.tables.read table).get? type = some outputs →
        KeepsType start existing outputs (old.types type)

/-! ## Objects that a merge has written to -/

/-- An array that has kept what it had. -/
def SlotsFill (before after : List (Option Nat)) : Prop :=
  before.length ≤ after.length ∧ ∀ index list : Nat,
    (before[index]?).join = some list → (after[index]?).join = some list

theorem SlotsFill.refl (outputs : List (Option Nat)) : SlotsFill outputs outputs :=
  ⟨Nat.le_refl _, fun _ _ entry => entry⟩

theorem SlotsFill.trans {first second third : List (Option Nat)}
    (left : SlotsFill first second) (right : SlotsFill second third) :
    SlotsFill first third :=
  ⟨left.1.trans right.1, fun index list entry =>
    right.2 index list (left.2 index list entry)⟩

theorem SlotsFill.antisymm {first second : List (Option Nat)}
    (left : SlotsFill first second) (right : SlotsFill second first) :
    first = second := by
  have lengths : first.length = second.length := Nat.le_antisymm left.1 right.1
  apply ext_getElem lengths
  intro index inFirst inSecond
  have forth := left.2 index
  have back := right.2 index
  simp only [getElem?_eq_getElem inFirst,
    getElem?_eq_getElem inSecond, Option.join_some] at forth back
  cases entry : first[index] with
  | some list => exact (forth list entry).symm
  | none =>
    cases other : second[index] with
    | none => rfl
    | some list =>
      rw [back list other] at entry
      cases entry

theorem join_getElem?_setOutput (outputs : List (Option Nat)) (index list other : Nat) :
    ((setOutput outputs index list)[other]?).join =
      if other = index then some list else (outputs[other]?).join := by
  simp only [setOutput]
  split
  next inside =>
    by_cases same : other = index
    · subst other
      simp [inside]
    · simp [same, Ne.symm same]
  next outside =>
    rw [append_assoc]
    by_cases before : other < outputs.length
    · rw [getElem?_append_left before, if_neg (by omega)]
    · have nothing : outputs[other]? = none := getElem?_eq_none (Nat.le_of_not_lt before)
      rw [getElem?_append_right (Nat.le_of_not_lt before), nothing]
      by_cases same : other = index
      · subst other
        simp
      · rw [if_neg same]
        by_cases later : index < other
        · rw [getElem?_eq_none (by simp; omega)]
        · rw [getElem?_append_left (by simp; omega)]
          rw [getElem?_replicate]
          split <;> rfl

theorem slotsFill_setOutput {outputs : List (Option Nat)} {index : Nat}
    (free : (outputs[index]?).join = none) (list : Nat) :
    SlotsFill outputs (setOutput outputs index list) := by
  constructor
  · simp only [setOutput]
    split <;> simp
  · intro other kept entry
    rw [join_getElem?_setOutput, if_neg]
    · exact entry
    · rintro rfl
      rw [free] at entry
      cases entry

/-- A table that has kept what it had. -/
def EntriesFill (before after : OrderedMap String Nat) : Prop :=
  before.entries <+: after.entries

theorem EntriesFill.refl (table : OrderedMap String Nat) : EntriesFill table table := prefix_refl _

theorem EntriesFill.trans {first second third : OrderedMap String Nat}
    (left : EntriesFill first second) (right : EntriesFill second third) :
    EntriesFill first third :=
  List.IsPrefix.trans left right

theorem EntriesFill.antisymm {first second : OrderedMap String Nat}
    (left : EntriesFill first second) (right : EntriesFill second first) :
    first = second :=
  ext_entries (List.IsPrefix.eq_of_length_le left (List.IsPrefix.length_le right))

/-- The objects that were there have at most grown. -/
structure Heap.Grows (start before after : Heap) : Prop where
  lists : ObjectStore.GrowsBelow List.IsPrefix start.lists.size before.lists after.lists
  outputs : ObjectStore.GrowsBelow SlotsFill start.outputs.size before.outputs after.outputs
  tables : ObjectStore.GrowsBelow EntriesFill start.tables.size before.tables after.tables

namespace Heap.Grows

variable {start first second third : Heap}

theorem refl (heap : Heap) : Heap.Grows start heap heap where
  lists := .refl prefix_refl _
  outputs := .refl SlotsFill.refl _
  tables := .refl EntriesFill.refl _

theorem trans (left : Heap.Grows start first second) (right : Heap.Grows start second third) :
    Heap.Grows start first third where
  lists := left.lists.trans List.IsPrefix.trans right.lists
  outputs := left.outputs.trans SlotsFill.trans right.outputs
  tables := left.tables.trans EntriesFill.trans right.tables

theorem unchanged (left : Heap.Grows start start second)
    (right : Heap.Grows start second third) (back : start.Unchanged third) :
    start.Unchanged second where
  lists := .of_growsBelow (fun left right => left.eq_of_length_le right.length_le)
    left.lists right.lists back.lists
  outputs := .of_growsBelow SlotsFill.antisymm left.outputs right.outputs back.outputs
  tables := .of_growsBelow EntriesFill.antisymm left.tables right.tables back.tables

end Heap.Grows

theorem mergeAt_grows (start : Heap) (existing outputs : Nat) (heap : Heap) (index : Nat) :
    Heap.Grows start heap (mergeAt existing outputs heap index) := by
  unfold mergeAt
  cases listIn heap outputs index with
  | none => exact .refl heap
  | some new =>
    cases free : listIn heap existing index with
    | none =>
      exact
        { lists := .refl prefix_refl _
          outputs := .write SlotsFill.refl (slotsFill_setOutput free new)
          tables := .refl EntriesFill.refl _ }
    | some list =>
      exact
        { lists := .write prefix_refl (prefix_append _ _)
          outputs := .refl SlotsFill.refl _
          tables := .refl EntriesFill.refl _ }

theorem grows_foldl {ι σ : Type} {start : Heap} (heapOf : σ → Heap)
    {step : σ → ι → σ} (grows : ∀ state item,
      Heap.Grows start (heapOf state) (heapOf (step state item)))
    (items : List ι) (state : σ) :
    Heap.Grows start (heapOf state) (heapOf (items.foldl step state)) := by
  induction items generalizing state with
  | nil => exact .refl _
  | cons item items ih => exact (grows state item).trans (ih _)

theorem mergeOutputs_grows (start heap : Heap) (existing outputs : Nat) :
    Heap.Grows start heap (mergeOutputs heap existing outputs) :=
  grows_foldl id (mergeAt_grows start existing outputs) _ heap

theorem mergeType_grows (start : Heap) (table : Nat) (heap : Heap) (entry : String × Nat) :
    Heap.Grows start heap (mergeType table heap entry) := by
  unfold mergeType
  cases missing : (heap.tables.read table).get? entry.1 with
  | none =>
    have appended : EntriesFill (heap.tables.read table)
        ((heap.tables.read table).set entry.1 entry.2) := by
      rw [get?_eq_none_iff] at missing
      exact ⟨_, (setIn_of_not_mem missing).symm⟩
    exact
      { lists := .refl prefix_refl _
        outputs := .refl SlotsFill.refl _
        tables := .write EntriesFill.refl appended }
  | some existing => exact mergeOutputs_grows start heap existing entry.2

theorem mergeSource_grows (start : Heap) (merged : Heap × IConnections) (entry : String × Nat) :
    Heap.Grows start merged.1 (mergeSource merged entry).1 := by
  unfold mergeSource
  cases merged.2.get? entry.1 with
  | none => exact .refl _
  | some table => exact grows_foldl id (mergeType_grows start table) _ _

/-- An object of the caller has grown. -/
def Spoilt (start heap : Heap) : Prop :=
  Heap.Grows start start heap ∧ ¬ start.Unchanged heap

theorem Spoilt.of_grows {start first second : Heap}
    (spoilt : Spoilt start first) (grows : Heap.Grows start first second) :
    Spoilt start second :=
  ⟨spoilt.1.trans grows, fun back => spoilt.2 (spoilt.1.unchanged grows back)⟩

theorem Owned.grows {start heap : Heap} {connections : IConnections}
    (owned : Owned start heap connections) : Heap.Grows start start heap where
  lists := by
    intro ref below
    exact (owned.lists ref below) ▸ prefix_refl _
  outputs := by
    intro ref below
    rw [owned.outputs ref below]
    exact SlotsFill.refl _
  tables := by
    intro ref below
    rw [owned.tables ref below]
    exact EntriesFill.refl _

/-! ## One output index -/

section Output

variable {start heap first : Heap} {connections : IConnections}
  {source type : String} {existing outputs table : Nat}

theorem slot_of_outputsRef? (reached : outputsRef? heap connections source type = some existing)
    (index : Nat) :
    slot heap connections source type index = slotIn heap existing index := by
  simp only [slot, slotIn]
  rw [listRef?_of_outputsRef? reached]

theorem typeView_of_outputsRef?
    (reached : outputsRef? heap connections source type = some existing) :
    typeView heap connections source type = newOutputs heap existing := by
  simp only [typeView, newOutputs, reached, TypeView.mk.injEq, true_and]
  exact funext fun index => slot_of_outputsRef? reached index

theorem typeView_of_missing (missing : outputsRef? heap connections source type = none) :
    typeView heap connections source type = { outputs := none, slots := fun _ => none } := by
  simp only [typeView, missing, TypeView.mk.injEq, true_and]
  funext index
  simp only [slot, listRef?, missing, Option.bind_none, Option.map_none]

variable {index : Nat}

theorem slotIn_eq_none (outside : (heap.outputs.read outputs).length ≤ index) :
    slotIn heap outputs index = none := by
  simp only [slotIn, listIn, Option.map_eq_none_iff]
  rw [getElem?_eq_none outside]
  rfl

theorem Owned.slotIn_old (owned : Owned start heap connections)
    (old : outputs < start.outputs.size) (index : Nat) :
    slotIn heap outputs index = slotIn start outputs index := by
  simp only [slotIn]
  rw [owned.listIn_old old]
  cases entry : listIn start outputs index with
  | none => rfl
  | some list =>
    simp only [Option.map_some]
    rw [owned.lists list (owned.began.lists entry)]

theorem Owned.slot_writeOutputs (owned : Owned start heap connections)
    (reached : outputsRef? heap connections source type = some existing)
    (own : start.outputs.size ≤ existing) (new : List (Option Nat))
    (other otherType : String) (index : Nat) :
    slot { heap with outputs := heap.outputs.write existing new }
      connections other otherType index =
        if other = source ∧ otherType = type then
          (new[index]?).join.map fun list => (list, heap.lists.read list)
        else slot heap connections other otherType index := by
  simp only [slot]
  rw [owned.listRef?_writeOutputs reached own]
  split <;> rfl

theorem Owned.slot_writeList (owned : Owned start heap connections) {index list : Nat}
    (reached : listRef? heap connections source type index = some list)
    (own : start.lists.size ≤ list) (object : List IConnection)
    (other otherType : String) (otherIndex : Nat) :
    slot { heap with lists := heap.lists.write list object }
      connections other otherType otherIndex =
        if other = source ∧ otherType = type ∧ otherIndex = index then
          some (list, object)
        else slot heap connections other otherType otherIndex := by
  have same : listRef? { heap with lists := heap.lists.write list object }
      connections other otherType otherIndex =
        listRef? heap connections other otherType otherIndex := rfl
  simp only [slot]
  rw [same]
  cases path : listRef? heap connections other otherType otherIndex with
  | none =>
    split
    next at' =>
      obtain ⟨rfl, rfl, rfl⟩ := at'
      rw [reached] at path
      cases path
    next => rfl
  | some found =>
    simp only [Option.map_some]
    rw [owned.read_writeList reached own object path]
    split
    next at' =>
      obtain ⟨rfl, rfl, rfl⟩ := at'
      rw [reached] at path
      cases path
      rfl
    next => rfl

/-- The state of the loop through the output indices of one type. -/
structure MergesOutputs (start first : Heap) (connections : IConnections)
    (source type : String) (existing : Nat) (heap : Heap) : Prop
    extends Owned start heap connections where
  reached : outputsRef? heap connections source type = some existing
  frame : ∀ other otherType, ¬ (other = source ∧ otherType = type) →
    typeView heap connections other otherType = typeView first connections other otherType

theorem mergeAt_spec (merges : MergesOutputs start first connections source type existing heap)
    (old : outputs < start.outputs.size)
    (guarded : KeepsSlot start existing (slotIn start outputs index)
      (slot heap connections source type index)) :
    MergesOutputs start first connections source type existing
        (mergeAt existing outputs heap index) ∧
      ∀ other, slot (mergeAt existing outputs heap index) connections source type other =
          if other = index then mergeSlot (slotIn start outputs index)
            (slot heap connections source type index)
          else slot heap connections source type other := by
  have owned := merges.toOwned
  rw [← owned.slotIn_old old] at guarded ⊢
  unfold mergeAt
  cases entry : listIn heap outputs index with
  | none =>
    have nothing : slotIn heap outputs index = none := by
      simp [slotIn, entry]
    refine ⟨merges, fun other => ?_⟩
    rw [nothing]
    by_cases same : other = index
    · rw [if_pos same, same]
      rfl
    · rw [if_neg same]
  | some new =>
    have something : slotIn heap outputs index = some (new, heap.lists.read new) := by
      simp [slotIn, entry]
    have callers : new < start.lists.size := owned.list_old old entry
    rw [something] at guarded ⊢
    cases place : listIn heap existing index with
    | none =>
      have free : slot heap connections source type index = none := by
        rw [slot_of_outputsRef? merges.reached]
        simp [slotIn, place]
      rw [free] at guarded ⊢
      have own : start.outputs.size ≤ existing := guarded
      refine ⟨⟨?_, merges.reached, ?_⟩, ?_⟩
      · apply owned.putList merges.reached own
        · exact Nat.lt_of_lt_of_le callers owned.listsSize
        · intro notBelow
          omega
        · exact join_getElem?_setOutput _ index new
      · intro other otherType apart
        rw [← merges.frame other otherType apart]
        unfold typeView
        congr 1
        funext otherIndex
        rw [owned.slot_writeOutputs merges.reached own, if_neg apart]
      · intro other
        rw [owned.slot_writeOutputs merges.reached own, if_pos ⟨rfl, rfl⟩, join_getElem?_setOutput]
        split
        next => rfl
        next =>
          rw [slot_of_outputsRef? merges.reached]
          rfl
    | some list =>
      have found : listRef? heap connections source type index = some list := by
        rw [listRef?_of_outputsRef? merges.reached]
        exact place
      have taken : slot heap connections source type index = some (list, heap.lists.read list) := by
        simp [slot, found]
      rw [taken] at guarded ⊢
      rcases guarded with nothing | own
      · simp only [mergeSlot]
        rw [nothing, append_nil, ObjectStore.write_read_self]
        refine ⟨merges, fun other => ?_⟩
        by_cases same : other = index
        · rw [if_pos same, same, taken]
        · rw [if_neg same]
      · refine ⟨⟨owned.writeList own _, merges.reached, ?_⟩, ?_⟩
        · intro other otherType apart
          rw [← merges.frame other otherType apart]
          unfold typeView
          congr 1
          funext otherIndex
          rw [owned.slot_writeList found own, if_neg]
          rintro ⟨rfl, rfl, _⟩
          exact apart ⟨rfl, rfl⟩
        · intro other
          rw [owned.slot_writeList found own]
          by_cases same : other = index
          · rw [if_pos ⟨rfl, rfl, same⟩, if_pos same]
            rfl
          · rw [if_neg (fun path => same path.2.2), if_neg same]

theorem mergeAt_spoils (merges : MergesOutputs start first connections source type existing heap)
    (old : outputs < start.outputs.size)
    (unguarded : ¬ KeepsSlot start existing (slotIn start outputs index)
      (slot heap connections source type index)) :
    Spoilt start (mergeAt existing outputs heap index) := by
  have owned := merges.toOwned
  refine ⟨owned.grows.trans (mergeAt_grows start existing outputs heap index), ?_⟩
  rw [← owned.slotIn_old old, slot_of_outputsRef? merges.reached] at unguarded
  unfold mergeAt
  cases entry : listIn heap outputs index with
  | none =>
    have nothing : slotIn heap outputs index = none := by
      simp [slotIn, entry]
    rw [nothing] at unguarded
    exact (unguarded True.intro).elim
  | some new =>
    have something : slotIn heap outputs index = some (new, heap.lists.read new) := by
      simp [slotIn, entry]
    rw [something] at unguarded
    cases place : listIn heap existing index with
    | none =>
      have free : slotIn heap existing index = none := by
        simp [slotIn, place]
      rw [free] at unguarded
      have callers : existing < start.outputs.size := Nat.lt_of_not_le unguarded
      intro back
      have same := owned.outputs.object_eq_of_write callers owned.outputsSize back.outputs
      have filled := join_getElem?_setOutput (heap.outputs.read existing) index new index
      rw [same, if_pos rfl] at filled
      rw [listIn, filled] at place
      cases place
    | some list =>
      have taken : slotIn heap existing index = some (list, heap.lists.read list) := by
        simp [slotIn, place]
      rw [taken] at unguarded
      simp only [KeepsSlot, not_or] at unguarded
      intro back
      have same := owned.lists.object_eq_of_write
        (Nat.lt_of_not_le unguarded.2) owned.listsSize back.lists
      exact unguarded.1 (append_right_eq_self.mp same)

theorem mergeAt_actsLocally (old : outputs < start.outputs.size) :
    ActsLocally (mergeAt existing outputs) id (fun heap => slot heap connections source type)
      (fun index => mergeSlot (slotIn start outputs index))
      (fun index => KeepsSlot start existing (slotIn start outputs index))
      (MergesOutputs start first connections source type existing)
      (fun _ => True) where
  preserved _ merges guarded := (mergeAt_spec merges old guarded).1
  acts _ merges guarded := ((mergeAt_spec merges old guarded).2 _).trans (if_pos rfl)
  others _ merges guarded _ apart := ((mergeAt_spec merges old guarded).2 _).trans (if_neg apart)

/-! ## One connection type -/

theorem mergeOutputs_spec (merges : MergesOutputs start first connections source type existing heap)
    (old : outputs < start.outputs.size)
    (guarded : ∀ index, KeepsSlot start existing
      (slotIn start outputs index) (slot heap connections source type index)) :
    MergesOutputs start first connections source type existing
        (mergeOutputs heap existing outputs) ∧
      ∀ index, slot (mergeOutputs heap existing outputs) connections source type index =
          mergeSlot (slotIn start outputs index) (slot heap connections source type index) := by
  have acts : ActsLocally (mergeAt existing outputs) id
      (fun heap => slot heap connections source type)
      (fun index => mergeSlot (slotIn start outputs index))
      (fun index => KeepsSlot start existing (slotIn start outputs index))
      (MergesOutputs start first connections source type existing)
      (fun _ => True) := mergeAt_actsLocally old
  have distinct : ((List.range (max (heap.outputs.read outputs).length
      (heap.outputs.read existing).length)).map id).Nodup := by
    simpa using nodup_range
  obtain ⟨kept, acted, frame⟩ := acts.foldl (by simp) distinct merges (fun index _ => guarded index)
  refine ⟨kept, fun index => ?_⟩
  by_cases visited : index < max (heap.outputs.read outputs).length
      (heap.outputs.read existing).length
  · exact acted index (mem_range.mpr visited)
  · have nothing : slotIn start outputs index = none := by
      rw [← merges.toOwned.slotIn_old old]
      exact slotIn_eq_none (by omega)
    rw [nothing]
    exact frame index (by simpa using visited)

theorem guards_of_mergeOutputs
    (merges : MergesOutputs start first connections source type existing heap)
    (old : outputs < start.outputs.size)
    (sound : ¬ Spoilt start (mergeOutputs heap existing outputs)) (index : Nat) :
    KeepsSlot start existing (slotIn start outputs index)
      (slot heap connections source type index) := by
  by_cases visited : index < max (heap.outputs.read outputs).length
      (heap.outputs.read existing).length
  · exact (mergeAt_actsLocally old).guards_of_not_spoilt
      (fun _ merges fails => mergeAt_spoils merges old fails)
      (fun spoilt => spoilt.of_grows (mergeAt_grows start _ _ _ _))
      (by simp) (by simpa using nodup_range) merges sound index
      (mem_range.mpr visited)
  · have nothing : slotIn start outputs index = none := by
      rw [← merges.toOwned.slotIn_old old]
      exact slotIn_eq_none (by omega)
    rw [nothing]
    exact True.intro

/-- The state of the loop through the types of one source. -/
structure MergesSource (start first : Heap) (connections : IConnections)
    (source : String) (table : Nat) (heap : Heap) : Prop
    extends Owned start heap connections where
  reached : connections.get? source = some table
  frame : ∀ other type, other ≠ source →
    typeView heap connections other type = typeView first connections other type

theorem Owned.typeView_writeTable (owned : Owned start heap connections)
    (reached : connections.get? source = some table)
    (own : start.tables.size ≤ table) (new : OrderedMap String Nat)
    (other otherType : String) :
    typeView { heap with tables := heap.tables.write table new } connections other otherType =
        if other = source then
          match new.get? otherType with
          | none => { outputs := none, slots := fun _ => none }
          | some outputs => newOutputs heap outputs
        else typeView heap connections other otherType := by
  simp only [typeView]
  rw [owned.outputsRef?_writeTable reached own]
  by_cases same : other = source
  · subst other
    rw [if_pos rfl, if_pos rfl]
    cases entry : new.get? otherType with
    | none =>
      simp only [TypeView.mk.injEq, true_and]
      funext index
      simp only [slot]
      rw [owned.listRef?_writeTable reached own, if_pos rfl, entry]
      rfl
    | some outputs =>
      simp only [newOutputs, TypeView.mk.injEq, true_and]
      funext index
      simp only [slot]
      rw [owned.listRef?_writeTable reached own, if_pos rfl, entry]
      rfl
  · rw [if_neg same, if_neg same]
    simp only [TypeView.mk.injEq, true_and]
    funext index
    simp only [slot]
    rw [owned.listRef?_writeTable reached own, if_neg same]

theorem newOutputs_old (owned : Owned start heap connections) (old : outputs < start.outputs.size) :
    newOutputs heap outputs = newOutputs start outputs := by
  simp only [newOutputs, TypeView.mk.injEq, true_and]
  funext index
  exact owned.slotIn_old old index

theorem mergeType_spec (merges : MergesSource start first connections source table heap)
    {entry : String × Nat} (old : entry.2 < start.outputs.size)
    (guarded : KeepsType start table entry.2 (typeView heap connections source entry.1)) :
    MergesSource start first connections source table (mergeType table heap entry) ∧
      ∀ type, typeView (mergeType table heap entry) connections source type =
        if type = entry.1 then mergeTypeView start entry.2
          (typeView heap connections source entry.1)
        else typeView heap connections source type := by
  have owned := merges.toOwned
  have here : outputsRef? heap connections source entry.1 = (heap.tables.read table).get? entry.1 :=
    outputsRef?_of_get? merges.reached
  unfold mergeType
  cases place : (heap.tables.read table).get? entry.1 with
  | none =>
    rw [place] at here
    have own : start.tables.size ≤ table := by
      simpa only [KeepsType, typeView, here] using guarded
    refine ⟨⟨?_, merges.reached, ?_⟩, ?_⟩
    · apply owned.setType merges.reached own
      · exact Nat.lt_of_lt_of_le old owned.outputsSize
      · intro notBelow
        omega
      · intro index list notBelow entry
        have := owned.list_old old entry
        omega
    · intro other type apart
      rw [← merges.frame other type apart,
        owned.typeView_writeTable merges.reached own, if_neg apart]
    · intro type
      rw [owned.typeView_writeTable merges.reached own, if_pos rfl, get?_set]
      by_cases same : type = entry.1
      · rw [if_pos same.symm, if_pos same]
        simp only [mergeTypeView, typeView, here]
        exact newOutputs_old owned old
      · rw [if_neg (Ne.symm same), if_neg same]
        have path : outputsRef? heap connections source type = (heap.tables.read table).get? type :=
          outputsRef?_of_get? merges.reached
        cases other : (heap.tables.read table).get? type with
        | none => exact (typeView_of_missing (path.trans other)).symm
        | some outputs =>
          exact (typeView_of_outputsRef? (path.trans other)).symm
  | some existing =>
    rw [place] at here
    have slots : ∀ index, KeepsSlot start existing (slotIn start entry.2 index)
        (slot heap connections source entry.1 index) := by
      simpa only [KeepsType, typeView, here] using guarded
    have begins : MergesOutputs start heap connections source entry.1
        existing heap := ⟨owned, here, fun _ _ _ => rfl⟩
    obtain ⟨ends, merged⟩ := mergeOutputs_spec begins old slots
    refine ⟨⟨ends.toOwned, merges.reached, ?_⟩, ?_⟩
    · intro other type apart
      rw [← merges.frame other type apart]
      exact ends.frame other type fun same => apart same.1
    · intro type
      by_cases same : type = entry.1
      · rw [if_pos same, same]
        simp only [mergeTypeView, typeView, here, ends.reached, TypeView.mk.injEq, true_and]
        exact funext merged
      · rw [if_neg same]
        exact ends.frame source type fun path => same path.2

theorem mergeType_spoils (merges : MergesSource start first connections source table heap)
    {entry : String × Nat} (old : entry.2 < start.outputs.size)
    (unguarded : ¬ KeepsType start table entry.2 (typeView heap connections source entry.1)) :
    Spoilt start (mergeType table heap entry) := by
  have owned := merges.toOwned
  have here : outputsRef? heap connections source entry.1 = (heap.tables.read table).get? entry.1 :=
    outputsRef?_of_get? merges.reached
  by_contra sound
  apply unguarded
  cases place : (heap.tables.read table).get? entry.1 with
  | none =>
    rw [place] at here
    simp only [KeepsType, typeView, here]
    by_contra callers
    apply sound
    refine ⟨owned.grows.trans (mergeType_grows start table heap entry), ?_⟩
    intro back
    simp only [mergeType, place] at back
    have same := owned.tables.object_eq_of_write
      (Nat.lt_of_not_le callers) owned.tablesSize back.tables
    rw [← same, get?_set_self] at place
    cases place
  | some existing =>
    rw [place] at here
    simp only [KeepsType, typeView, here]
    have begins : MergesOutputs start heap connections source entry.1
        existing heap := ⟨owned, here, fun _ _ _ => rfl⟩
    simp only [mergeType, place] at sound
    exact guards_of_mergeOutputs begins old sound

theorem mergeType_actsLocally : ActsLocally (mergeType table) Prod.fst
      (fun heap => typeView heap connections source)
      (fun entry => mergeTypeView start entry.2)
      (fun entry => KeepsType start table entry.2)
      (MergesSource start first connections source table)
      (fun entry => entry.2 < start.outputs.size) where
  preserved old merges guarded := (mergeType_spec merges old guarded).1
  acts old merges guarded := ((mergeType_spec merges old guarded).2 _).trans (if_pos rfl)
  others old merges guarded _ apart :=
    ((mergeType_spec merges old guarded).2 _).trans (if_neg apart)

end Output

end N8n.OperationsProcessor
