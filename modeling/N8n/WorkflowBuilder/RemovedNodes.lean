import N8n.WorkflowBuilder.MergedConnections

/-!
# Removing nodes

The connections are built anew without those that start or end at a removed
id.  The builder only adds objects to the heap, so nothing of the caller is
written to, and nothing in the new connections is shared with anyone.
-/

namespace N8n.OperationsProcessor

open ObjectStore OrderedMap Owned

/-- The connections behind an entry of an array of outputs. -/
def contents (lists : ObjectStore (List IConnection)) : Option Nat → List IConnection
  | none => []
  | some list => lists.read list

theorem connectionsAt_eq (heap : Heap) (connections : IConnections)
    (source type : String) (index : Nat) :
    connectionsAt heap connections source type index =
      contents heap.lists (listRef? heap connections source type index) := by
  cases found : listRef? heap connections source type index with
  | none | some list => simp [connectionsAt, contents, found]

theorem connections_slotIn (heap : Heap) (outputs index : Nat) :
    (slotIn heap outputs index).connections = contents heap.lists (listIn heap outputs index) := by
  simp only [slotIn]
  cases listIn heap outputs index with
  | none => rfl
  | some list => rfl

theorem contents_kept {limit : Nat} {before after : ObjectStore (List IConnection)}
    (kept : ObjectStore.KeepsBelow limit before after) {entry : Option Nat}
    (inside : ∀ list, entry = some list → list < limit) :
    contents after entry = contents before entry := by
  cases entry with
  | none => rfl
  | some list => exact kept list (inside list rfl)

/-! ## The outputs of one connection type -/

section Outputs

variable {nodesToRemove : List String}

/-- Outputs built anew, with lists that did not exist before. -/
structure CleansOutputs (nodesToRemove : List String) (before after : Heap)
    (outputs cleaned : List (Option Nat)) : Prop where
  sameOutputs : after.outputs = before.outputs
  sameTables : after.tables = before.tables
  kept : ObjectStore.KeepsBelow before.lists.size before.lists after.lists
  grows : before.lists.size ≤ after.lists.size
  fresh : ∀ index list : Nat, (cleaned[index]?).join = some list →
    before.lists.size ≤ list ∧ list < after.lists.size
  once : ∀ index other list : Nat, (cleaned[index]?).join = some list →
    (cleaned[other]?).join = some list → index = other
  filtered : ∀ index : Nat, contents after.lists (cleaned[index]?).join =
    (contents before.lists (outputs[index]?).join).filter fun conn =>
      conn.node ∉ nodesToRemove

theorem cleanOutputs_spec {heap : Heap} {outputs : List (Option Nat)}
    (valid : ∀ index list : Nat, (outputs[index]?).join = some list → list < heap.lists.size) :
    CleansOutputs nodesToRemove heap (cleanOutputs nodesToRemove heap outputs).1 outputs
      (cleanOutputs nodesToRemove heap outputs).2 := by
  induction outputs generalizing heap with
  | nil =>
    exact
      { sameOutputs := rfl
        sameTables := rfl
        kept := .refl _ _
        grows := le_rfl
        fresh := fun _ _ found => by cases found
        once := fun _ _ _ found => by cases found
        filtered := fun _ => rfl }
  | cons output outputs ih =>
    cases output with
    | none =>
      have rest := ih fun index list found => valid (index + 1) list found
      exact { rest with
          fresh := by
            intro index list found
            cases index with
            | zero => cases found
            | succ index => exact rest.fresh index list found
          once := by
            intro index other list left right
            cases index with
            | zero => cases left
            | succ index =>
              cases other with
              | zero => cases right
              | succ other =>
                rw [rest.once index other list left right]
          filtered := by
            intro index
            cases index with
            | zero => rfl
            | succ index => exact rest.filtered index }
    | some list =>
      let object := (heap.lists.read list).filter fun conn =>
        conn.node ∉ nodesToRemove
      let added : Heap := { heap with lists := (heap.lists.allocate object).1 }
      have one : added.lists.size = heap.lists.size + 1 := heap.lists.size_allocate object
      have rest : CleansOutputs nodesToRemove added
          (cleanOutputs nodesToRemove added outputs).1 outputs
          (cleanOutputs nodesToRemove added outputs).2 := by
        apply ih
        intro index other found
        have before := valid (index + 1) other found
        omega
      have first : ObjectStore.KeepsBelow heap.lists.size heap.lists
          added.lists := .allocate (.refl _ _) le_rfl object
      have size := rest.grows
      rw [one] at size
      have later : ∀ index other : Nat,
          ((cleanOutputs nodesToRemove added outputs).2[index]?).join =
            some other → heap.lists.size < other := by
        intro index other found
        have new := (rest.fresh index other found).1
        omega
      exact
        { sameOutputs := rest.sameOutputs
          sameTables := rest.sameTables
          kept := first.trans (rest.kept.mono (by omega))
          grows := Nat.le_of_succ_le size
          fresh := by
            intro index other found
            cases index with
            | zero =>
              cases found
              exact ⟨le_rfl, size⟩
            | succ index =>
              have new := later index other found
              exact ⟨Nat.le_of_lt new, (rest.fresh index other found).2⟩
          once := by
            intro index other reached left right
            cases index with
            | zero =>
              cases left
              cases other with
              | zero => rfl
              | succ other => exact (later other _ right).ne rfl |>.elim
            | succ index =>
              cases other with
              | zero =>
                cases right
                exact (later index _ left).ne rfl |>.elim
              | succ other =>
                rw [rest.once index other reached left right]
          filtered := by
            intro index
            cases index with
            | zero =>
              have kept := rest.kept heap.lists.size (by omega)
              exact kept.trans (heap.lists.read_allocate_self object)
            | succ index =>
              refine (rest.filtered index).trans ?_
              congr 1
              exact contents_kept first fun other found =>
                valid (index + 1) other found }

theorem cleanOutputs_owned {start heap : Heap} {connections : IConnections}
    (owned : Owned start heap connections) (outputs : List (Option Nat)) :
    Owned start (cleanOutputs nodesToRemove heap outputs).1 connections := by
  induction outputs generalizing heap with
  | nil => exact owned
  | cons output outputs ih =>
    cases output with
    | none => exact ih owned
    | some list => exact ih (owned.allocateList _)

end Outputs

/-! ## One connection type -/

section Types

variable {start base first heap : Heap} {connections : IConnections}
  {nodesToRemove : List String} {source : String} {table : Nat}
  {entry : String × Nat}

theorem cleanedOutputs (closed : heap.Closed) (nodesToRemove : List String) (outputs : Nat) :
    CleansOutputs nodesToRemove heap (cleanOutputs nodesToRemove heap (heap.outputs.read outputs)).1
      (heap.outputs.read outputs)
      (cleanOutputs nodesToRemove heap (heap.outputs.read outputs)).2 :=
  cleanOutputs_spec fun _ _ found => closed.lists found

/-- The heap before the new outputs are put into the table. -/
def cleanedHeap (nodesToRemove : List String) (heap : Heap) (outputs : Nat) : Heap :=
  let cleaned := cleanOutputs nodesToRemove heap (heap.outputs.read outputs)
  { cleaned.1 with
    outputs := (cleaned.1.outputs.allocate cleaned.2).1 }

theorem cleanType_eq (closed : heap.Closed) : cleanType nodesToRemove table heap entry =
      { cleanedHeap nodesToRemove heap entry.2 with
        tables := (cleanedHeap nodesToRemove heap entry.2).tables.write table
          (((cleanedHeap nodesToRemove heap entry.2).tables.read table).set
            entry.1 heap.outputs.size) } := by
  have spec := cleanedOutputs closed nodesToRemove entry.2
  rw [← spec.sameOutputs]
  rfl

theorem cleanedHeap_owned (owned : Owned start heap connections)
    (nodesToRemove : List String) (outputs : Nat) :
    Owned start (cleanedHeap nodesToRemove heap outputs) connections := by
  have spec := cleanedOutputs owned.closed nodesToRemove outputs
  apply (cleanOutputs_owned owned _).allocateOutputs
  exact fun index list found => (spec.fresh index list found).2

theorem outputsRef?_cleanedHeap (owned : Owned start heap connections)
    (nodesToRemove : List String) (outputs : Nat) (source type : String) :
    outputsRef? (cleanedHeap nodesToRemove heap outputs) connections source
      type = outputsRef? heap connections source type := by
  have spec := cleanedOutputs owned.closed nodesToRemove outputs
  unfold outputsRef? cleanedHeap
  rw [← spec.sameTables]

theorem listRef?_cleanedHeap (owned : Owned start heap connections)
    (nodesToRemove : List String) (outputs : Nat)
    (source type : String) (index : Nat) :
    listRef? (cleanedHeap nodesToRemove heap outputs) connections source type
      index = listRef? heap connections source type index := by
  have spec := cleanedOutputs owned.closed nodesToRemove outputs
  have closed : Heap.Closed (cleanOutputs nodesToRemove heap
      (heap.outputs.read outputs)).1 := (cleanOutputs_owned owned _).closed
  refine (listRef?_allocateOutputs closed _ source type index).trans ?_
  unfold listRef? outputsRef? listIn
  rw [spec.sameOutputs, spec.sameTables]

theorem listIn_cleanedHeap (owned : Owned start heap connections)
    (nodesToRemove : List String) (outputs index : Nat) :
    listIn (cleanedHeap nodesToRemove heap outputs) heap.outputs.size index =
      ((cleanOutputs nodesToRemove heap (heap.outputs.read outputs)).2[index]?).join := by
  have spec := cleanedOutputs owned.closed nodesToRemove outputs
  have ref : heap.outputs.size = (cleanOutputs nodesToRemove heap
      (heap.outputs.read outputs)).1.outputs.size :=
    congrArg ObjectStore.size spec.sameOutputs.symm
  simp only [listIn, cleanedHeap]
  rw [ref, read_allocate_self]

theorem cleanType_owned (owned : Owned start heap connections)
    (reached : connections.get? source = some table)
    (own : start.tables.size ≤ table) :
    Owned start (cleanType nodesToRemove table heap entry) connections := by
  have spec := cleanedOutputs owned.closed nodesToRemove entry.2
  have built := cleanedHeap_owned owned nodesToRemove entry.2
  rw [cleanType_eq owned.closed]
  apply built.setType reached own
  · rw [← spec.sameOutputs]
    simp [cleanedHeap]
  · intro _ other type found
    rw [outputsRef?_cleanedHeap owned] at found
    have := outputs_inside owned.closed found
    omega
  · intro index list _ found
    rw [listIn_cleanedHeap owned] at found
    have fresh := spec.fresh index list found
    constructor
    · intro other type otherIndex path
      rw [listRef?_cleanedHeap owned] at path
      have := list_inside owned.closed path
      omega
    · intro other again
      rw [listIn_cleanedHeap owned] at again
      exact spec.once other index list again found

theorem cleanType_connectionsAt (owned : Owned start heap connections)
    (reached : connections.get? source = some table)
    (own : start.tables.size ≤ table) (other type : String) (index : Nat) :
    connectionsAt (cleanType nodesToRemove table heap entry) connections other type index =
      if other = source ∧ type = entry.1 then
        (contents heap.lists (listIn heap entry.2 index)).filter fun conn =>
          conn.node ∉ nodesToRemove
      else connectionsAt heap connections other type index := by
  have spec := cleanedOutputs owned.closed nodesToRemove entry.2
  have built := cleanedHeap_owned owned nodesToRemove entry.2
  have unmoved : ∀ other type index, contents (cleanedHeap nodesToRemove heap entry.2).lists
        (listRef? heap connections other type index) =
          connectionsAt heap connections other type index := by
    intro other type index
    exact contents_kept spec.kept fun list found =>
      list_inside owned.closed found
  rw [cleanType_eq owned.closed, connectionsAt_eq, built.listRef?_writeTable reached own]
  by_cases same : other = source
  · subst other
    rw [if_pos rfl]
    by_cases here : type = entry.1
    · subst type
      rw [get?_set_self, if_pos ⟨rfl, rfl⟩, Option.bind_some, listIn_cleanedHeap owned]
      exact spec.filtered index
    · rw [get?_set_ne _ _ (Ne.symm here), if_neg fun both => here both.2, ← unmoved,
        ← listRef?_cleanedHeap owned nodesToRemove entry.2]
      simp only [listRef?]
      rw [outputsRef?_of_get? reached]
  · rw [if_neg same, if_neg fun both => same both.1, listRef?_cleanedHeap owned, unmoved]

/-- The state of the loop through the types of one source.  For `apart`
whatever existed before the operation belongs to the caller. -/
structure CleansSource (start base first : Heap) (connections : IConnections)
    (source : String) (table : Nat) (heap : Heap) : Prop where
  owned : Owned start heap connections
  apart : Owned base heap connections
  reached : connections.get? source = some table
  frame : ∀ other type index, other ≠ source → connectionsAt heap connections other type index =
      connectionsAt first connections other type index

theorem cleanType_actsLocally (own : start.tables.size ≤ table) (new : base.tables.size ≤ table) :
    ActsLocally (cleanType nodesToRemove table) Prod.fst
      (fun heap type => connectionsAt heap connections source type)
      (fun entry _ index =>
        (slotIn base entry.2 index).connections.filter fun conn =>
          conn.node ∉ nodesToRemove)
      (fun _ _ => True) (CleansSource start base first connections source table)
      (fun entry => entry.2 < base.outputs.size) where
  preserved _ cleans _ :=
    { owned := cleanType_owned cleans.owned cleans.reached own
      apart := cleanType_owned cleans.apart cleans.reached new
      reached := cleans.reached
      frame := by
        intro other type index apart
        rw [cleanType_connectionsAt cleans.owned cleans.reached own,
          if_neg fun both => apart both.1]
        exact cleans.frame other type index apart }
  acts old cleans _ := by
    funext index
    rw [cleanType_connectionsAt cleans.owned cleans.reached own,
      if_pos ⟨rfl, rfl⟩, ← connections_slotIn, cleans.apart.slotIn_old old]
  others _ cleans _ _ apart := by
    funext index
    rw [cleanType_connectionsAt cleans.owned cleans.reached own, if_neg fun both => apart both.2]

end Types

/-! ## All sources -/

section Sources

variable {start base heap : Heap} {connections : IConnections}
  {built : Heap × IConnections} {nodesToRemove : List String} {entry : String × Nat}

theorem Owned.newSource (owned : Owned start heap connections) (source : String) :
    Owned start { heap with tables := (heap.tables.allocate .empty).1 }
      (connections.set source heap.tables.size) := by
  apply owned.allocateTable.setSource
  · rw [size_allocate]
    exact Nat.lt_succ_self _
  · intro _ other found
    have := owned.inside found
    omega
  · intro type outputs found
    rw [read_allocate_self, get?_empty] at found
    cases found

theorem Owned.newSource_connectionsAt (source other type : String) (index : Nat) :
    connectionsAt { heap with tables := (heap.tables.allocate .empty).1 }
      (connections.set source heap.tables.size) other type index =
        if other = source then []
        else connectionsAt heap connections other type index := by
  have path : outputsRef? { heap with tables := (heap.tables.allocate .empty).1 }
      (connections.set source heap.tables.size) other type =
        outputsRef? heap (connections.set source heap.tables.size) other
          type := outputsRef?_allocateTable other type
  rw [connectionsAt_eq, connectionsAt_eq]
  simp only [listRef?]
  rw [path]
  by_cases same : other = source
  · subst other
    rw [if_pos rfl, outputsRef?_of_get? (get?_set_self _ _ _), read_of_size_le le_rfl]
    rfl
  · rw [if_neg same]
    simp only [outputsRef?]
    rw [get?_set_ne _ _ (Ne.symm same)]
    rfl

/-- The state of the loop through the sources. -/
structure Cleans (start base : Heap) (built : Heap × IConnections) : Prop
    where
  owned : Owned start built.1 built.2
  apart : Owned base built.1 built.2

/-- What the new table of a source leads to. -/
def cleanedView (nodesToRemove : List String) (base : Heap) (table : Nat)
    (type : String) (index : Nat) : List IConnection :=
  (((newTable base table).types type).slots index).connections.filter
    fun conn => conn.node ∉ nodesToRemove

theorem cleanSource_spec (limit : start.tables.size ≤ base.tables.size)
    (cleans : Cleans start base built) (old : entry.2 < base.tables.size)
    (keeps : entry.1 ∉ nodesToRemove) :
    Cleans start base (cleanSource nodesToRemove built entry) ∧ ∀ source type index,
        connectionsAt (cleanSource nodesToRemove built entry).1
          (cleanSource nodesToRemove built entry).2 source type index =
            if source = entry.1 then
              cleanedView nodesToRemove base entry.2 type index
            else connectionsAt built.1 built.2 source type index := by
  have new : base.tables.size ≤ built.1.tables.size := cleans.apart.tablesSize
  have result : cleanSource nodesToRemove built entry =
      ((built.1.tables.read entry.2).ownEntries.foldl (cleanType nodesToRemove built.1.tables.size)
        { built.1 with tables := (built.1.tables.allocate .empty).1 },
        built.2.set entry.1 built.1.tables.size) := by
    simp only [cleanSource, if_neg keeps, ref_allocate]
  have begins : CleansSource start base
      { built.1 with tables := (built.1.tables.allocate .empty).1 }
      (built.2.set entry.1 built.1.tables.size) entry.1
      built.1.tables.size
      { built.1 with tables := (built.1.tables.allocate .empty).1 } :=
    { owned := cleans.owned.newSource entry.1
      apart := cleans.apart.newSource entry.1
      reached := get?_set_self _ _ _
      frame := fun _ _ _ _ => rfl }
  obtain ⟨ends, acted, frame⟩ := (cleanType_actsLocally (limit.trans new) new).foldl
      (outputs_newTable cleans.apart old) (ownKeys_nodup _) begins
      (fun _ _ => True.intro)
  rw [result]
  refine ⟨⟨ends.owned, ends.apart⟩, fun source type index => ?_⟩
  by_cases same : source = entry.1
  · subst same
    simp only [cleanedView, newTable]
    have entries := cleans.apart.entry_old old
    cases found : (base.tables.read entry.2).get? type with
    | none =>
      rw [← entries, get?_eq_none_iff] at found
      have untouched := congrFun (frame type fun listed =>
        found (mem_ownKeys.mp listed)) index
      rw [newSource_connectionsAt, if_pos rfl] at untouched
      exact untouched
    | some outputs =>
      rw [← entries, get?_eq_some_iff] at found
      exact congrFun (acted (type, outputs) (mem_ownEntries.mpr found)) index
  · rw [if_neg same]
    refine (ends.frame source type index same).trans ?_
    rw [newSource_connectionsAt, if_neg same]

theorem cleanSource_actsLocally (limit : start.tables.size ≤ base.tables.size) :
    ActsLocally (cleanSource nodesToRemove) Prod.fst
      (fun built source type => connectionsAt built.1 built.2 source type)
      (fun entry old => if entry.1 ∈ nodesToRemove then old
        else cleanedView nodesToRemove base entry.2)
      (fun _ _ => True) (Cleans start base)
      (fun entry => entry.2 < base.tables.size) where
  preserved {built entry} old cleans _ := by
    by_cases removed : entry.1 ∈ nodesToRemove
    · simpa only [cleanSource, if_pos removed] using cleans
    · exact (cleanSource_spec limit cleans old removed).1
  acts {built entry} old cleans _ := by
    by_cases removed : entry.1 ∈ nodesToRemove
    · simp only [cleanSource, if_pos removed]
    · rw [if_neg removed]
      funext type index
      rw [(cleanSource_spec limit cleans old removed).2, if_pos rfl]
  others {built entry} old cleans _ other apart := by
    by_cases removed : entry.1 ∈ nodesToRemove
    · simp only [cleanSource, if_pos removed]
    · funext type index
      rw [(cleanSource_spec limit cleans old removed).2, if_neg apart]

/-- Removing nodes owns all that it builds, and keeps the connections without
a removed id at either end. -/
theorem removeNode_spec {state : State} (owned : Owned start state.heap state.workflow.connections)
    (nodeIds : List String) :
    Owned start (applyRemoveNodeOperation state nodeIds).heap
        (applyRemoveNodeOperation state nodeIds).workflow.connections ∧
      ∀ source type index, connectionsAt (applyRemoveNodeOperation state nodeIds).heap
          (applyRemoveNodeOperation state nodeIds).workflow.connections
          source type index = if source ∈ nodeIds then []
            else (connectionsAt state.heap state.workflow.connections source
              type index).filter fun conn => conn.node ∉ nodeIds := by
  have begins : Cleans start state.heap (state.heap, .empty) :=
    { owned := owned.empty
      apart := .atStart owned.closed fun _ _ found => by cases found }
  have held : state.heap.Holds state.workflow.connections :=
    fun _ _ found => owned.inside found
  obtain ⟨ends, acted, frame⟩ :=
    (cleanSource_actsLocally owned.tablesSize).foldl (entries_held held)
      (ownKeys_nodup _) begins (fun _ _ => True.intro)
  refine ⟨ends.owned, fun source type index => ?_⟩
  rw [← connections_slot state.heap, slot_eq_newTable state.heap]
  cases place : state.workflow.connections.get? source with
  | none =>
    rw [get?_eq_none_iff] at place
    have untouched := congrFun (congrFun (frame source fun listed =>
      place (mem_ownKeys.mp listed)) type) index
    refine untouched.trans ?_
    split <;> rfl
  | some table =>
    have listed : (source, table) ∈
        state.workflow.connections.ownEntries :=
      mem_ownEntries.mpr (get?_eq_some_iff.mp place)
    have cleaned := congrFun (congrFun (acted (source, table) listed) type) index
    refine cleaned.trans ?_
    by_cases removed : source ∈ nodeIds
    · rw [if_pos removed, if_pos removed]
      rfl
    · rw [if_neg removed, if_neg removed]
      rfl

end Sources

end N8n.OperationsProcessor
