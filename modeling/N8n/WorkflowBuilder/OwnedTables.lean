import N8n.WorkflowBuilder.OperationsProcessor

/-!
# Tables that a call owns

The objects that were there when a call began belong to the caller, who may
share them at will.  The objects that the call makes are reached by one path
of its result only, so a write to one of them shows at one place.  `Owned`
carries both facts through the operations; each write that an operation makes
has its lemma here.
-/

namespace N8n.OperationsProcessor

open ObjectStore OrderedMap

/-! ## Paths to the objects of a call -/

/-- The objects from the limit on are reached by one path only. -/
def Unshared {κ : Type} (limit : Nat) (path : κ → Option Nat) : Prop :=
  ∀ ref, limit ≤ ref → ∀ p q, path p = some ref → path q = some ref → p = q

namespace Unshared

variable {κ : Type} {limit : Nat} {path after : κ → Option Nat}

theorem of_new (unshared : Unshared limit path) (new : κ → Nat → Prop)
    (origin : ∀ p ref, limit ≤ ref → after p = some ref → path p = some ref ∨ new p ref)
    (unused : ∀ p q ref, limit ≤ ref → path p = some ref → ¬ new q ref)
    (once : ∀ p q ref, limit ≤ ref → new p ref → new q ref → p = q) :
    Unshared limit after := by
  intro ref own p q leftPath rightPath
  rcases origin p ref own leftPath with left | left
  · rcases origin q ref own rightPath with right | right
    · exact unshared ref own p q left right
    · exact (unused p q ref own left right).elim
  · rcases origin q ref own rightPath with right | right
    · exact (unused q p ref own right left).elim
    · exact once p q ref own left right

theorem of_old (unshared : Unshared limit path)
    (origin : ∀ p ref, limit ≤ ref → after p = some ref →
      path p = some ref) : Unshared limit after := by
  intro ref own p q left right
  exact unshared ref own p q (origin p ref own left) (origin q ref own right)

end Unshared

/-- The references inside the heap lead to objects. -/
structure Heap.Closed (heap : Heap) : Prop where
  outputs : ∀ {table type ref},
    (heap.tables.read table).get? type = some ref → ref < heap.outputs.size
  lists : ∀ {outputs index ref}, listIn heap outputs index = some ref → ref < heap.lists.size

/-- The tables of the sources are objects of the heap. -/
def Heap.Holds (heap : Heap) (connections : IConnections) : Prop :=
  ∀ source table, connections.get? source = some table → table < heap.tables.size

/-- The objects that were there are as they were. -/
structure Heap.Unchanged (start heap : Heap) : Prop where
  lists : ObjectStore.KeepsBelow start.lists.size start.lists heap.lists
  outputs : ObjectStore.KeepsBelow start.outputs.size start.outputs heap.outputs
  tables : ObjectStore.KeepsBelow start.tables.size start.tables heap.tables

theorem Heap.Unchanged.refl (heap : Heap) : heap.Unchanged heap := ⟨.refl _ _, .refl _ _, .refl _ _⟩

/-- The heap has grown by new objects only. -/
structure Heap.Extends (start heap : Heap) : Prop
    extends start.Unchanged heap where
  listsSize : start.lists.size ≤ heap.lists.size
  outputsSize : start.outputs.size ≤ heap.outputs.size
  tablesSize : start.tables.size ≤ heap.tables.size

theorem Heap.Extends.refl (heap : Heap) : heap.Extends heap :=
  { toUnchanged := .refl heap
    listsSize := le_rfl
    outputsSize := le_rfl
    tablesSize := le_rfl }

/-- The caller's objects are as they were, and the objects that the call has
made are reached by one path of its result. -/
structure Owned (start heap : Heap) (connections : IConnections) : Prop
    extends start.Extends heap where
  began : start.Closed
  closed : heap.Closed
  inside : ∀ {source table}, connections.get? source = some table → table < heap.tables.size
  oneTable : Unshared start.tables.size connections.get?
  oneOutputs : Unshared start.outputs.size fun path : String × String =>
    outputsRef? heap connections path.1 path.2
  oneList : Unshared start.lists.size fun path : String × String × Nat =>
    listRef? heap connections path.1 path.2.1 path.2.2

section Paths

variable {heap : Heap} {connections : IConnections}
  {source type : String} {index table outputs list : Nat}

theorem outputsRef?_eq_some : outputsRef? heap connections source type = some outputs ↔
      ∃ table, connections.get? source = some table ∧
        (heap.tables.read table).get? type = some outputs :=
  Option.bind_eq_some_iff

theorem listRef?_eq_some : listRef? heap connections source type index = some list ↔
      ∃ outputs, outputsRef? heap connections source type = some outputs ∧
        listIn heap outputs index = some list :=
  Option.bind_eq_some_iff

theorem outputsRef?_of_get? (found : connections.get? source = some table) :
    outputsRef? heap connections source type = (heap.tables.read table).get? type := by
  simp [outputsRef?, found]

theorem listRef?_of_outputsRef? (found : outputsRef? heap connections source type = some outputs) :
    listRef? heap connections source type index = listIn heap outputs index := by
  simp [listRef?, found]

theorem outputs_inside (closed : heap.Closed)
    (found : outputsRef? heap connections source type = some outputs) :
    outputs < heap.outputs.size := by
  obtain ⟨table, _, entry⟩ := outputsRef?_eq_some.mp found
  exact closed.outputs entry

theorem list_inside (closed : heap.Closed)
    (found : listRef? heap connections source type index = some list) :
    list < heap.lists.size := by
  obtain ⟨outputs, _, entry⟩ := listRef?_eq_some.mp found
  exact closed.lists entry

end Paths

namespace Owned

variable {start heap : Heap} {connections : IConnections}

theorem ofCaller (extension : start.Extends heap) (began : start.Closed)
    (closed : heap.Closed) (holds : start.Holds connections) :
    Owned start heap connections :=
  have outputsOld : ∀ source type ref, outputsRef? heap connections source type = some ref →
        ref < start.outputs.size := by
    intro source type ref found
    obtain ⟨table, place, entry⟩ := outputsRef?_eq_some.mp found
    rw [extension.tables table (holds source table place)] at entry
    exact began.outputs entry
  have listsOld : ∀ source type index ref,
      listRef? heap connections source type index = some ref → ref < start.lists.size := by
    intro source type index ref found
    obtain ⟨outputs, path, entry⟩ := listRef?_eq_some.mp found
    unfold listIn at entry
    rw [extension.outputs outputs (outputsOld source type outputs path)] at entry
    exact began.lists entry
  { toExtends := extension
    began := began
    closed := closed
    inside := fun found =>
      Nat.lt_of_lt_of_le (holds _ _ found) extension.tablesSize
    oneTable := by
      intro ref own source _ found
      have := holds source ref found
      omega
    oneOutputs := by
      intro ref own path _ found
      have := outputsOld path.1 path.2 ref found
      omega
    oneList := by
      intro ref own path _ found
      have := listsOld path.1 path.2.1 path.2.2 ref found
      omega }

theorem atStart (closed : start.Closed) (holds : start.Holds connections) :
    Owned start start connections :=
  .ofCaller (.refl start) closed closed holds

theorem replaced (owned : Owned start heap connections)
    {others : IConnections} (holds : start.Holds others) :
    Owned start heap others :=
  .ofCaller owned.toExtends owned.began owned.closed holds

theorem empty (owned : Owned start heap connections) : Owned start heap .empty :=
  owned.replaced fun _ _ found => by cases found

/-! ## Objects of the caller -/

variable {table : Nat}

theorem entry_old (owned : Owned start heap connections) (old : table < start.tables.size) :
    heap.tables.read table = start.tables.read table :=
  owned.tables table old

variable {outputs : Nat} {type : String}

theorem outputs_old (owned : Owned start heap connections) (old : table < start.tables.size)
    (entry : (heap.tables.read table).get? type = some outputs) :
    outputs < start.outputs.size := by
  rw [owned.entry_old old] at entry
  exact owned.began.outputs entry

theorem listIn_old (owned : Owned start heap connections)
    (old : outputs < start.outputs.size) (index : Nat) :
    listIn heap outputs index = listIn start outputs index := by
  simp only [listIn]
  rw [owned.outputs outputs old]

variable {list : Nat} {index : Nat}

theorem list_old (owned : Owned start heap connections) (old : outputs < start.outputs.size)
    (entry : listIn heap outputs index = some list) :
    list < start.lists.size := by
  rw [owned.listIn_old old] at entry
  exact owned.began.lists entry

/-! ## New objects -/

theorem allocateList (owned : Owned start heap connections) (object : List IConnection) :
    Owned start { heap with lists := (heap.lists.allocate object).1 }
      connections :=
  { owned with
    lists := owned.lists.allocate owned.listsSize object
    listsSize := by
      have before := owned.listsSize
      rw [size_allocate]
      omega
    closed :=
      { outputs := fun entry => owned.closed.outputs entry
        lists := by
          intro outputs index ref entry
          have before : ref < heap.lists.size :=
            owned.closed.lists (show listIn heap outputs index = _ from entry)
          rw [size_allocate]
          omega } }

theorem listIn_allocate_of_lt (inside : outputs < heap.outputs.size)
    (object : List (Option Nat)) (index : Nat) :
    listIn { heap with outputs := (heap.outputs.allocate object).1 }
      outputs index = listIn heap outputs index := by
  simp only [listIn]
  rw [read_allocate_of_lt inside]

theorem listRef?_allocateOutputs (closed : heap.Closed)
    (object : List (Option Nat)) (source type : String) (index : Nat) :
    listRef? { heap with outputs := (heap.outputs.allocate object).1 }
      connections source type index = listRef? heap connections source type index := by
  have path : outputsRef? { heap with outputs := (heap.outputs.allocate object).1 }
      connections source type = outputsRef? heap connections source type :=
    rfl
  simp only [listRef?]
  rw [path]
  cases found : outputsRef? heap connections source type with
  | none => rfl
  | some outputs =>
    exact listIn_allocate_of_lt (outputs_inside closed found) object index

theorem allocateOutputs (owned : Owned start heap connections) {object : List (Option Nat)}
    (valid : ∀ index ref : Nat, (object[index]?).join = some ref → ref < heap.lists.size) :
    Owned start { heap with outputs := (heap.outputs.allocate object).1 }
      connections :=
  { owned with
    outputs := owned.outputs.allocate owned.outputsSize object
    outputsSize := by
      have before := owned.outputsSize
      rw [size_allocate]
      omega
    closed :=
      { outputs := by
          intro table type ref entry
          have before : ref < heap.outputs.size := owned.closed.outputs
              (show (heap.tables.read table).get? type = _ from entry)
          rw [size_allocate]
          omega
        lists := by
          intro outputs index ref entry
          rcases Nat.lt_trichotomy outputs heap.outputs.size with
            inside | same | outside
          · rw [listIn_allocate_of_lt inside] at entry
            exact owned.closed.lists entry
          · subst same
            simp only [listIn, read_allocate_self] at entry
            exact valid index ref entry
          · simp only [listIn] at entry
            rw [read_of_size_le (by rw [size_allocate]; exact outside)] at entry
            cases entry }
    oneList := by
      apply owned.oneList.of_old
      intro path ref _ found
      rwa [listRef?_allocateOutputs owned.closed] at found }

theorem outputsRef?_allocateTable (source type : String) :
    outputsRef? { heap with tables := (heap.tables.allocate .empty).1 }
      connections source type = outputsRef? heap connections source type := by
  simp only [outputsRef?]
  congr 1
  funext table
  exact congrArg (OrderedMap.get? · type) (heap.tables.read_allocate_default table)

theorem allocateTable (owned : Owned start heap connections) :
    Owned start { heap with tables := (heap.tables.allocate .empty).1 }
      connections :=
  { owned with
    tables := owned.tables.allocate owned.tablesSize .empty
    tablesSize := by
      have before := owned.tablesSize
      rw [size_allocate]
      omega
    closed :=
      { owned.closed with
        outputs := by
          intro table type ref entry
          rw [show ((heap.tables.allocate .empty).1.read table) = heap.tables.read table from
              heap.tables.read_allocate_default table] at entry
          exact owned.closed.outputs entry }
    inside := by
      intro source table found
      have before := owned.inside found
      rw [size_allocate]
      omega
    oneOutputs := by
      apply owned.oneOutputs.of_old
      intro path ref _ found
      rwa [outputsRef?_allocateTable] at found
    oneList := by
      apply owned.oneList.of_old
      intro path ref _ found
      obtain ⟨outputs, reached, entry⟩ := listRef?_eq_some.mp found
      rw [outputsRef?_allocateTable] at reached
      exact listRef?_eq_some.mpr ⟨outputs, reached, entry⟩ }

/-! ## Writes -/

variable {source : String}

theorem setSource (owned : Owned start heap connections) (valid : table < heap.tables.size)
    (unused : start.tables.size ≤ table → ∀ other, connections.get? other ≠ some table)
    (hangs : ∀ type outputs, (heap.tables.read table).get? type = some outputs →
        outputs < start.outputs.size) :
    Owned start heap (connections.set source table) :=
  have origin : ∀ other type outputs, start.outputs.size ≤ outputs →
      outputsRef? heap (connections.set source table) other type = some outputs →
      outputsRef? heap connections other type = some outputs := by
    intro other type outputs own found
    obtain ⟨reached, path, entry⟩ := outputsRef?_eq_some.mp found
    rw [get?_set] at path
    split at path
    · cases path
      have old := hangs type outputs entry
      omega
    · exact outputsRef?_eq_some.mpr ⟨reached, path, entry⟩
  { owned with
    inside := by
      intro other reached path
      rw [get?_set] at path
      split at path
      · cases path
        exact valid
      · exact owned.inside path
    oneTable := by
      apply owned.oneTable.of_new fun other ref =>
        other = source ∧ ref = table
      · intro other ref _ path
        rw [get?_set] at path
        split at path
        next same =>
          cases path
          exact .inr ⟨same.symm, rfl⟩
        next => exact .inl path
      · rintro other _ ref own path ⟨rfl, rfl⟩
        exact unused own other path
      · rintro left right ref _ ⟨rfl, _⟩ ⟨rfl, _⟩
        rfl
    oneOutputs := by
      apply owned.oneOutputs.of_old
      intro path ref own found
      exact origin path.1 path.2 ref own found
    oneList := by
      apply owned.oneList.of_old
      rintro ⟨other, type, index⟩ ref own found
      obtain ⟨outputs, reached, entry⟩ := listRef?_eq_some.mp found
      have old : start.outputs.size ≤ outputs := by
        by_contra below
        have := owned.list_old (Nat.lt_of_not_le below) entry
        omega
      exact listRef?_eq_some.mpr ⟨outputs, origin other type outputs old reached, entry⟩ }

theorem outputsRef?_writeTable (owned : Owned start heap connections) (found : connections.get? source = some table)
    (own : start.tables.size ≤ table) (new : OrderedMap String Nat)
    (other type : String) :
    outputsRef? { heap with tables := heap.tables.write table new }
      connections other type = if other = source then new.get? type
        else outputsRef? heap connections other type := by
  by_cases same : other = source
  · subst other
    rw [if_pos rfl, outputsRef?_of_get? found]
    rw [read_write_self (owned.inside found)]
  · rw [if_neg same]
    simp only [outputsRef?]
    cases reached : connections.get? other with
    | none => rfl
    | some otherTable =>
      have apart : otherTable ≠ table := by
        rintro rfl
        exact same (owned.oneTable _ own other source reached found)
      simp only [Option.bind_some]
      rw [read_write_ne apart]

theorem listRef?_writeTable (owned : Owned start heap connections) (found : connections.get? source = some table)
    (own : start.tables.size ≤ table) (new : OrderedMap String Nat)
    (other type : String) (index : Nat) :
    listRef? { heap with tables := heap.tables.write table new } connections other type index =
        if other = source then
          (new.get? type).bind fun outputs => listIn heap outputs index
        else listRef? heap connections other type index := by
  simp only [listRef?]
  rw [owned.outputsRef?_writeTable found own]
  split <;> rfl

theorem closed_writeTable (owned : Owned start heap connections) {new : OrderedMap String Nat}
    (valid : ∀ type ref, new.get? type = some ref → ref < heap.outputs.size) :
    Heap.Closed { heap with tables := heap.tables.write table new } :=
  { owned.closed with
    outputs := by
      intro other type ref entry
      by_cases same : other = table
      · subst other
        by_cases inside : table < heap.tables.size
        · rw [read_write_self inside] at entry
          exact valid type ref entry
        · rw [read_of_size_le (by simpa using inside)] at entry
          cases entry
      · rw [read_write_ne same] at entry
        exact owned.closed.outputs entry }

theorem setType (owned : Owned start heap connections) (found : connections.get? source = some table)
    (own : start.tables.size ≤ table) (valid : outputs < heap.outputs.size)
    (unused : start.outputs.size ≤ outputs → ∀ other otherType,
      outputsRef? heap connections other otherType ≠ some outputs)
    (hangs : ∀ index list, start.lists.size ≤ list →
      listIn heap outputs index = some list → (∀ other otherType otherIndex,
          listRef? heap connections other otherType otherIndex ≠ some list) ∧
        ∀ otherIndex, listIn heap outputs otherIndex = some list → otherIndex = index) :
    Owned start { heap with
      tables := heap.tables.write table ((heap.tables.read table).set type outputs) } connections :=
  { owned with
    tables := owned.tables.write own _
    tablesSize := by
      rw [size_write]
      exact owned.tablesSize
    inside := by
      intro other reached path
      rw [size_write]
      exact owned.inside path
    closed := by
      apply owned.closed_writeTable
      intro other ref entry
      rw [get?_set] at entry
      split at entry
      · cases entry
        exact valid
      · exact owned.closed.outputs entry
    oneOutputs := by
      apply owned.oneOutputs.of_new fun path ref =>
        path = (source, type) ∧ ref = outputs
      · rintro ⟨other, otherType⟩ ref _ path
        rw [owned.outputsRef?_writeTable found own] at path
        split at path
        next same =>
          subst same
          rw [get?_set] at path
          split at path
          next same =>
            cases path
            exact .inr ⟨by rw [same], rfl⟩
          next =>
            left
            rw [outputsRef?_of_get? found]
            exact path
        next => exact .inl path
      · rintro path _ ref own path' ⟨rfl, rfl⟩
        exact unused own path.1 path.2 path'
      · rintro left right ref _ ⟨rfl, _⟩ ⟨rfl, _⟩
        rfl
    oneList := by
      apply owned.oneList.of_new fun path ref =>
        path.1 = source ∧ path.2.1 = type ∧ listIn heap outputs path.2.2 = some ref
      · rintro ⟨other, otherType, index⟩ ref _ path
        rw [owned.listRef?_writeTable found own] at path
        split at path
        next same =>
          subst same
          rw [get?_set] at path
          split at path
          next same => exact .inr ⟨rfl, same.symm, path⟩
          next =>
            left
            simp only [listRef?]
            rw [outputsRef?_of_get? found]
            exact path
        next => exact .inl path
      · rintro path ⟨other, otherType, index⟩ ref own path' ⟨_, _, entry⟩
        exact (hangs index ref own entry).1 path.1 path.2.1 path.2.2 path'
      · rintro ⟨_, _, left⟩ ⟨_, _, right⟩ ref own ⟨rfl, rfl, leftEntry⟩ ⟨rfl, rfl, rightEntry⟩
        rw [(hangs right ref own rightEntry).2 left leftEntry] }

theorem deleteType (owned : Owned start heap connections) (found : connections.get? source = some table)
    (own : start.tables.size ≤ table) :
    Owned start { heap with
      tables := heap.tables.write table ((heap.tables.read table).delete type) } connections :=
  { owned with
    tables := owned.tables.write own _
    tablesSize := by
      rw [size_write]
      exact owned.tablesSize
    inside := by
      intro other reached path
      rw [size_write]
      exact owned.inside path
    closed := by
      apply owned.closed_writeTable
      intro other ref entry
      rw [get?_delete] at entry
      split at entry
      · cases entry
      · exact owned.closed.outputs entry
    oneOutputs := by
      apply owned.oneOutputs.of_old
      rintro ⟨other, otherType⟩ ref _ path
      rw [owned.outputsRef?_writeTable found own] at path
      split at path
      next same =>
        subst same
        rw [get?_delete] at path
        split at path
        · cases path
        · rw [outputsRef?_of_get? found]
          exact path
      next => exact path
    oneList := by
      apply owned.oneList.of_old
      rintro ⟨other, otherType, index⟩ ref _ path
      rw [owned.listRef?_writeTable found own] at path
      split at path
      next same =>
        subst same
        rw [get?_delete] at path
        split at path
        · cases path
        · simp only [listRef?]
          rw [outputsRef?_of_get? found]
          exact path
      next => exact path }

theorem deleteSource (owned : Owned start heap connections)
    (source : String) : Owned start heap (connections.delete source) :=
  have origin : ∀ {other table}, (connections.delete source).get? other = some table →
        connections.get? other = some table := by
    intro other table path
    rw [get?_delete] at path
    split at path
    · cases path
    · exact path
  { owned with
    inside := fun path => owned.inside (origin path)
    oneTable := owned.oneTable.of_old fun _ _ _ path => origin path
    oneOutputs := by
      apply owned.oneOutputs.of_old
      intro path ref _ found
      obtain ⟨table, reached, entry⟩ := outputsRef?_eq_some.mp found
      exact outputsRef?_eq_some.mpr ⟨table, origin reached, entry⟩
    oneList := by
      apply owned.oneList.of_old
      intro path ref _ found
      obtain ⟨outputs, reached, entry⟩ := listRef?_eq_some.mp found
      obtain ⟨table, source, type⟩ := outputsRef?_eq_some.mp reached
      exact listRef?_eq_some.mpr
        ⟨outputs, outputsRef?_eq_some.mpr ⟨table, origin source, type⟩, entry⟩ }

theorem listRef?_writeOutputs (owned : Owned start heap connections)
    (found : outputsRef? heap connections source type = some outputs)
    (own : start.outputs.size ≤ outputs) (new : List (Option Nat))
    (other otherType : String) (index : Nat) :
    listRef? { heap with outputs := heap.outputs.write outputs new }
      connections other otherType index =
        if other = source ∧ otherType = type then (new[index]?).join
        else listRef? heap connections other otherType index := by
  by_cases same : other = source ∧ otherType = type
  · obtain ⟨rfl, rfl⟩ := same
    rw [if_pos ⟨rfl, rfl⟩]
    have reached : outputsRef? { heap with outputs := heap.outputs.write outputs new }
        connections other otherType = some outputs := found
    rw [listRef?_of_outputsRef? reached]
    simp only [listIn]
    rw [read_write_self (outputs_inside owned.closed found)]
  · rw [if_neg same]
    simp only [listRef?]
    have unmoved : outputsRef? { heap with outputs := heap.outputs.write outputs new }
        connections other otherType = outputsRef? heap connections other otherType := rfl
    rw [unmoved]
    cases reached : outputsRef? heap connections other otherType with
    | none => rfl
    | some otherOutputs =>
      have apart : otherOutputs ≠ outputs := by
        rintro rfl
        have path := owned.oneOutputs _ own (other, otherType) (source, type) reached found
        simp only [Prod.mk.injEq] at path
        exact same path
      simp only [Option.bind_some, listIn]
      rw [read_write_ne apart]

theorem putList (owned : Owned start heap connections) {new : List (Option Nat)}
    (found : outputsRef? heap connections source type = some outputs)
    (own : start.outputs.size ≤ outputs) (valid : list < heap.lists.size)
    (unused : start.lists.size ≤ list → ∀ other otherType otherIndex,
      listRef? heap connections other otherType otherIndex ≠ some list)
    (entries : ∀ other, (new[other]?).join =
      if other = index then some list else listIn heap outputs other) :
    Owned start { heap with outputs := heap.outputs.write outputs new }
      connections :=
  { owned with
    outputs := owned.outputs.write own _
    outputsSize := by
      rw [size_write]
      exact owned.outputsSize
    closed :=
      { outputs := by
          intro table type ref entry
          rw [size_write]
          exact owned.closed.outputs entry
        lists := by
          intro other otherIndex ref entry
          simp only [listIn] at entry
          by_cases same : other = outputs
          · subst other
            rw [read_write_self (outputs_inside owned.closed found), entries] at entry
            split at entry
            · cases entry
              exact valid
            · exact owned.closed.lists entry
          · rw [read_write_ne same] at entry
            exact owned.closed.lists entry }
    oneList := by
      apply owned.oneList.of_new fun path ref =>
        path = (source, type, index) ∧ ref = list
      · rintro ⟨other, otherType, otherIndex⟩ ref _ path
        rw [owned.listRef?_writeOutputs found own] at path
        split at path
        next same =>
          obtain ⟨rfl, rfl⟩ := same
          rw [entries] at path
          split at path
          next same =>
            cases path
            subst same
            exact .inr ⟨rfl, rfl⟩
          next =>
            left
            rw [listRef?_of_outputsRef? found]
            exact path
        next => exact .inl path
      · rintro path _ ref own path' ⟨rfl, rfl⟩
        exact unused own path.1 path.2.1 path.2.2 path'
      · rintro left right ref _ ⟨rfl, _⟩ ⟨rfl, _⟩
        rfl }

theorem writeList (owned : Owned start heap connections)
    (own : start.lists.size ≤ list) (object : List IConnection) :
    Owned start { heap with lists := heap.lists.write list object }
      connections :=
  { owned with
    lists := owned.lists.write own object
    listsSize := by
      rw [size_write]
      exact owned.listsSize
    closed :=
      { outputs := fun entry => owned.closed.outputs entry
        lists := by
          intro outputs index ref entry
          rw [size_write]
          exact owned.closed.lists (show listIn heap outputs index = _ from entry) } }

theorem read_writeList (owned : Owned start heap connections)
    (found : listRef? heap connections source type index = some list)
    (own : start.lists.size ≤ list) (object : List IConnection)
    {other otherType : String} {otherIndex reached : Nat}
    (path : listRef? heap connections other otherType otherIndex = some reached) :
    (heap.lists.write list object).read reached =
      if other = source ∧ otherType = type ∧ otherIndex = index then object
      else heap.lists.read reached := by
  split
  next same =>
    obtain ⟨rfl, rfl, rfl⟩ := same
    rw [found] at path
    cases path
    exact read_write_self (list_inside owned.closed found) object
  next apart =>
    apply read_write_ne
    rintro rfl
    have one := owned.oneList _ own (other, otherType, otherIndex) (source, type, index) path found
    simp only [Prod.mk.injEq] at one
    exact apart one

end Owned

end N8n.OperationsProcessor
