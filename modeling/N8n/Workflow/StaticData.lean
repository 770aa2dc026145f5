import N8n.Library.JsonValue
import N8n.Library.Machine
import N8n.Library.OrderedMap

/-!
# Static data

Proxies around the objects of the static data set `__dataChanged` when
something is written or deleted, and a save resets it.  The objects that the
data were loaded with have a proxy, those that are assigned later have none.
-/

namespace N8n

/-- An object of the static data: the top level or one of the others. -/
inductive StaticDataRef where
  | root
  | cell (index : Nat)
deriving DecidableEq

/-- What is stored under a key: a value that is no object, or an object with or
without a proxy around it. -/
inductive StaticDataSlot where
  | value (value : JsonValue)
  | object (target : StaticDataRef) (observed : Bool)
deriving DecidableEq

/-- `isContext` marks the objects that `getStaticData` has created. -/
structure StaticDataCell where
  isArray : Bool := false
  isContext : Bool := false
  entries : OrderedMap String StaticDataSlot := .empty

structure StaticDataHeap where
  root : StaticDataCell := {}
  cells : List StaticDataCell := []

/-- What is found at the end of a path of keys. -/
inductive StaticDataLeaf where
  | value (value : JsonValue)
  | array
  | object
deriving DecidableEq

abbrev StaticDataContents := List String → Option StaticDataLeaf

/-- A call of `saveStaticData` that waits for the database. -/
inductive StaticDataSave where
  | called
  | serialized (contents : StaticDataContents)
  | written

/-- A plain value, or an object that was read before. -/
inductive AssignedValue where
  | plain (value : JsonValue)
  | held (object : Nat)

inductive StaticDataEvent where
  | getStaticData (type : String) (nodeName : Option String)
  | read (object : Nat) (key : String)
  | write (object : Nat) (key : String) (value : AssignedValue)
  | delete (object : Nat) (key : String)
  | saveStaticData
  | saveAccess (save : Nat) (succeeds : Bool)

namespace StaticDataHeap

section

variable (heap : StaticDataHeap)

def cell? : StaticDataRef → Option StaticDataCell
  | .root => some heap.root
  | .cell index => heap.cells[index]?

variable (target : StaticDataRef)

def entry (key : String) : Option StaticDataSlot :=
  (heap.cell? target).bind fun cell => cell.entries.get? key

def changeCell (change : StaticDataCell → StaticDataCell) : StaticDataHeap :=
  match target with
  | .root => { heap with root := change heap.root }
  | .cell index => { heap with cells := heap.cells.modify index change }

def setEntry (key : String) (slot : StaticDataSlot) : StaticDataHeap :=
  heap.changeCell target fun cell =>
    { cell with entries := cell.entries.set key slot }

def deleteEntry (key : String) : StaticDataHeap :=
  heap.changeCell target fun cell =>
    { cell with entries := cell.entries.delete key }

/-- A new object, with a proxy if it is observed. -/
def addCell (observed : Bool) (cell : StaticDataCell) : StaticDataHeap × StaticDataSlot :=
  ({ heap with cells := heap.cells ++ [cell] }, .object (.cell heap.cells.length) observed)

end

mutual

/-- Objects for a plain value and for what is in it. -/
def allocate (observed : Bool) (heap : StaticDataHeap) : JsonValue → StaticDataHeap × StaticDataSlot
  | .array items =>
    let (heap, entries) := allocateItems observed heap 0 .empty items
    heap.addCell observed { isArray := true, entries }
  | .object fields =>
    let (heap, entries) := allocateFields observed heap .empty fields
    heap.addCell observed { entries }
  | .null => (heap, .value .null)
  | .bool value => (heap, .value (.bool value))
  | .number value => (heap, .value (.number value))
  | .string value => (heap, .value (.string value))

def allocateItems (observed : Bool) (heap : StaticDataHeap) (index : Nat)
    (entries : OrderedMap String StaticDataSlot) :
    List JsonValue → StaticDataHeap × OrderedMap String StaticDataSlot
  | [] => (heap, entries)
  | item :: items =>
    let (heap, slot) := allocate observed heap item
    allocateItems observed heap (index + 1) (entries.set (toString index) slot) items

def allocateFields (observed : Bool) (heap : StaticDataHeap)
    (entries : OrderedMap String StaticDataSlot) :
    List (String × JsonValue) → StaticDataHeap × OrderedMap String StaticDataSlot
  | [] => (heap, entries)
  | (key, value) :: fields =>
    let (heap, slot) := allocate observed heap value
    allocateFields observed heap (entries.set key slot) fields

end

section

variable (heap : StaticDataHeap)

/-- The empty objects of `getStaticData` are not counted. -/
def isCounted : StaticDataRef → Bool
  | .root => true
  | .cell index => (heap.cells[index]?).any fun cell =>
    !(cell.isContext && cell.entries.entries.isEmpty)

def leaf? : StaticDataSlot → Option StaticDataLeaf
  | .value value => some (.value value)
  | .object target _ =>
    if heap.isCounted target then
      (heap.cell? target).map fun cell =>
        if cell.isArray then .array else .object
    else none

def lookup (heap : StaticDataHeap) : StaticDataSlot → List String → Option StaticDataLeaf
  | slot, [] => heap.leaf? slot
  | .value _, _ :: _ => none
  | .object target _, key :: path =>
    match heap.entry target key with
    | none => none
    | some slot => lookup heap slot path

/-- What the static data contain, by the paths of their keys. -/
def contents : StaticDataContents :=
  heap.lookup (.object .root true)

def isEmptyObject : StaticDataSlot → Bool
  | .value _ => false
  | .object target _ =>
    (heap.cell? target).any fun cell => cell.entries.entries.isEmpty

end

end StaticDataHeap

/-- The static data of a workflow with the objects that have been read, and
with what the database has. -/
structure StaticData where
  heap : StaticDataHeap
  dataChanged : Bool := false
  held : List (StaticDataRef × Bool) := [(.root, true)]
  saved : StaticDataContents
  saves : List StaticDataSave := []

namespace StaticData

/-- The constructor of the workflow puts a proxy around each object. -/
def create (fields : List (String × JsonValue)) : StaticData :=
  let (heap, entries) := StaticDataHeap.allocateFields true {} .empty fields
  let heap := { heap with root := { entries } }
  { heap, saved := heap.contents }

def dataChangedKey : String := "__dataChanged"

/-- The key under which `getStaticData` finds the object of its context; it
throws for another type or without a node. -/
def contextKey (type : String) (nodeName : Option String) : Option String :=
  if type = "global" then some "global"
  else if type = "node" then nodeName.map fun name => "node:" ++ name
  else none

section

variable (data : StaticData)

def hold : StaticDataSlot → StaticData
  | .value _ => data
  | .object target observed =>
    { data with held := data.held ++ [(target, observed)] }

/-- The new object gets a proxy, and its assignment marks nothing because it is
empty. -/
def createContext (key : String) : StaticData :=
  let (heap, slot) := data.heap.addCell true { isContext := true }
  { data with heap := heap.setEntry .root key slot }.hold slot

def getStaticData (type : String) (nodeName : Option String) : StaticData :=
  match contextKey type nodeName with
  | none => data
  | some key =>
    match data.heap.entry .root key with
    | some slot => data.hold slot
    | none => data.createContext key

/-- The value as it is stored, with its objects. -/
def assigned : AssignedValue → Option (StaticDataHeap × StaticDataSlot)
  | .plain value => some (data.heap.allocate false value)
  | .held object => data.held[object]?.map fun held =>
    (data.heap, .object held.1 held.2)

/-- Whether the proxy sets the flag when a value is written.  On the top level
an empty object that is new does not count. -/
def marks (heap : StaticDataHeap) (held : StaticDataRef × Bool) (key : String)
    (slot : StaticDataSlot) : Bool :=
  match held with
  | (_, false) => false
  | (.cell _, true) => true
  | (.root, true) =>
    !(heap.entry .root key = none && heap.isEmptyObject slot)

/-- The trap asks `null` for its keys if it is new on the top level. -/
def throws (heap : StaticDataHeap) (held : StaticDataRef × Bool)
    (key : String) (slot : StaticDataSlot) : Bool :=
  held = (.root, true) && heap.entry .root key = none && slot = .value .null

variable (held : StaticDataRef × Bool)

/-- The objects behind a write, and whether it sets the flag. -/
def write (key : String) (assigned : StaticDataHeap × StaticDataSlot) : StaticDataHeap × Bool :=
  let (heap, slot) := assigned
  if throws heap held key slot then (data.heap, false)
  else (heap.setEntry held.1 key slot, marks heap held key slot)

def delete (key : String) : StaticDataHeap × Bool :=
  (data.heap.deleteEntry held.1 key, held.2)

def apply (change : StaticDataHeap × Bool) : StaticData :=
  { data with
    heap := change.1
    dataChanged := data.dataChanged || change.2 }

/-- What a write or delete changes.  The flag itself is not written. -/
def change? : StaticDataEvent → Option (StaticDataHeap × Bool)
  | .write object key value => do
    let held ← data.held[object]?
    let assigned ← data.assigned value
    if key = dataChangedKey then none
    else some (data.write held key assigned)
  | .delete object key => do
    let held ← data.held[object]?
    if key = dataChangedKey then none else some (data.delete held key)
  | _ => none

def isWorkflowIdValid (id : String) : Bool := id.length ≤ 16

/-- The next step of a save.  It resets the flag when it has written, and one
that fails is only logged. -/
def continueSave (save : Nat) : StaticDataSave → Bool → StaticData
  | .called, true =>
    { data with
      saves := data.saves.set save (.serialized data.heap.contents) }
  | .serialized contents, true =>
    { data with saved := contents, saves := data.saves.set save .written }
  | .written, _ =>
    { data with dataChanged := false, saves := data.saves.eraseIdx save }
  | _, false => { data with saves := data.saves.eraseIdx save }

def step (workflowId : String) : Machine StaticData StaticDataEvent
  | data, .getStaticData type nodeName => some (data.getStaticData type nodeName)
  | data, .read object key =>
    data.held[object]?.map fun held =>
      ((data.heap.entry held.1 key).map data.hold).getD data
  | data, .saveStaticData =>
    if data.dataChanged && isWorkflowIdValid workflowId then
      some { data with saves := data.saves ++ [.called] }
    else some data
  | data, .saveAccess save succeeds =>
    data.saves[save]?.map fun phase => data.continueSave save phase succeeds
  | data, .write object key value =>
    (data.change? (.write object key value)).map data.apply
  | data, .delete object key =>
    (data.change? (.delete object key)).map data.apply

/-- Whenever the flag is not set, the database has what the static data
contain. -/
def NothingLost : Prop :=
  data.dataChanged = false → data.saved = data.heap.contents

/-- A change sets the flag, or the flag is set, or nothing is changed. -/
def IsNoticed (change : StaticDataHeap × Bool) : Prop :=
  data.dataChanged = true ∨ change.2 = true ∨ change.1.contents = data.heap.contents

/-- Changes are noticed, and saves write and reset the flag only while the
static data are as they were serialized. -/
def KeepsChanges : StaticDataEvent → Prop
  | .saveAccess save succeeds =>
    match data.saves[save]?, succeeds with
    | some (.serialized contents), true =>
      data.dataChanged = true ∨ contents = data.heap.contents
    | some .written, _ => data.saved = data.heap.contents
    | _, _ => True
  | event => ∀ change, data.change? event = some change → data.IsNoticed change

end

variable {data next : StaticData} {heap : StaticDataHeap} {key : String}

section

variable (heap : StaticDataHeap) (key : String)

def addContext : StaticDataHeap :=
  { root := { heap.root with
      entries := heap.root.entries.set key (.object (.cell heap.cells.length) true) }
    cells := heap.cells ++ [{ isContext := true }] }

theorem cell?_addContext {index : Nat} (other : index ≠ heap.cells.length) :
    (addContext heap key).cell? (.cell index) = heap.cell? (.cell index) := by
  rw [StaticDataHeap.cell?, StaticDataHeap.cell?, addContext]
  rcases Nat.lt_or_gt_of_ne other with old | beyond
  · rw [List.getElem?_append_left old]
  · have outside : (heap.cells ++ [({ isContext := true } : StaticDataCell)]).length ≤ index := by
      rw [List.length_append]
      exact beyond
    rw [List.getElem?_eq_none outside, List.getElem?_eq_none (Nat.le_of_lt beyond)]

theorem cell?_addContext_new :
    (addContext heap key).cell? (.cell heap.cells.length) = some { isContext := true } := by
  rw [StaticDataHeap.cell?, addContext]
  simp

theorem lookup_context (observed : Bool) (path : List String) :
    (addContext heap key).lookup (.object (.cell heap.cells.length) observed) path = none := by
  have cell := cell?_addContext_new heap key
  cases path with
  | nil =>
    rw [StaticDataHeap.lookup, StaticDataHeap.leaf?, if_neg]
    rw [StaticDataHeap.cell?] at cell
    simp [StaticDataHeap.isCounted, cell]
  | cons first path =>
    rw [StaticDataHeap.lookup, StaticDataHeap.entry, cell]
    rfl

end

theorem lookup_missing {index : Nat} (missing : heap.cells[index]? = none)
    (observed : Bool) (path : List String) :
    heap.lookup (.object (.cell index) observed) path = none := by
  have cell : heap.cell? (.cell index) = none := missing
  cases path with
  | nil => simp [StaticDataHeap.lookup, StaticDataHeap.leaf?, cell]
  | cons first path =>
    rw [StaticDataHeap.lookup, StaticDataHeap.entry, cell]
    rfl

theorem lookup_addContext (new : heap.root.entries.get? key = none)
    (slot : StaticDataSlot) (path : List String) :
    (addContext heap key).lookup slot path = heap.lookup slot path := by
  induction path generalizing slot with
  | nil =>
    cases slot with
    | value value => rfl
    | object target observed =>
      cases target with
      | root => rfl
      | cell index =>
        by_cases isNew : index = heap.cells.length
        · subst isNew
          rw [lookup_context, lookup_missing (by simp)]
        · have same := cell?_addContext heap key isNew
          rw [StaticDataHeap.lookup, StaticDataHeap.lookup,
            StaticDataHeap.leaf?, StaticDataHeap.leaf?, same]
          rw [StaticDataHeap.cell?, StaticDataHeap.cell?] at same
          rw [StaticDataHeap.isCounted, StaticDataHeap.isCounted, same]
  | cons first path ih =>
    cases slot with
    | value value => rfl
    | object target observed =>
      cases target with
      | root =>
        rw [StaticDataHeap.lookup, StaticDataHeap.lookup]
        have found : (addContext heap key).entry .root first =
            if key = first then
              some (.object (.cell heap.cells.length) true)
            else heap.entry .root first :=
          OrderedMap.get?_set _ _ _ _
        rw [found]
        by_cases same : key = first
        · subst same
          have missing : heap.entry .root key = none := new
          rw [if_pos rfl, missing]
          exact lookup_context heap key true path
        · rw [if_neg same]
          cases heap.entry .root first with
          | none => rfl
          | some slot => exact ih slot
      | cell index =>
        by_cases isNew : index = heap.cells.length
        · subst isNew
          rw [lookup_context, lookup_missing (by simp)]
        · rw [StaticDataHeap.lookup, StaticDataHeap.lookup,
            StaticDataHeap.entry, StaticDataHeap.entry,
            cell?_addContext heap key isNew]
          cases (heap.cell? (.cell index)).bind fun cell =>
              cell.entries.get? first with
          | none => rfl
          | some slot => exact ih slot

theorem contents_createContext (new : data.heap.entry .root key = none) :
    (data.createContext key).heap.contents = data.heap.contents := by
  funext path
  exact lookup_addContext new _ path

theorem NothingLost.getStaticData (nothingLost : NothingLost data)
    (type : String) (nodeName : Option String) :
    NothingLost (data.getStaticData type nodeName) := by
  have held (slot : StaticDataSlot) : NothingLost (data.hold slot) := by
    cases slot with
    | value value | object target observed => exact nothingLost
  rw [StaticData.getStaticData]
  split
  · exact nothingLost
  · split
    · exact held _
    next new =>
      intro unchanged
      rw [contents_createContext new]
      exact nothingLost unchanged

variable {change : StaticDataHeap × Bool}

theorem NothingLost.apply (nothingLost : NothingLost data) (noticed : data.IsNoticed change) :
    NothingLost (data.apply change) := by
  intro unchanged
  obtain ⟨before, unmarked⟩ := Bool.or_eq_false_iff.mp unchanged
  rcases noticed with changed | marked | same
  · rw [before] at changed
    cases changed
  · rw [unmarked] at marked
    cases marked
  · exact (nothingLost before).trans same.symm

theorem isNoticed_of_nothingLost (nothingLost : NothingLost data)
    (later : NothingLost (data.apply change)) : data.IsNoticed change := by
  cases before : data.dataChanged with
  | true => exact .inl before
  | false =>
    cases marked : change.2 with
    | true => exact .inr (.inl marked)
    | false =>
      have unchanged : (data.apply change).dataChanged = false := by
        simp [StaticData.apply, before, marked]
      exact .inr (.inr ((later unchanged).symm.trans (nothingLost before)))

theorem nothingLost_start (fields : List (String × JsonValue)) : NothingLost (create fields) :=
  fun _ => rfl

theorem NothingLost.continueSave (nothingLost : NothingLost data)
    {save : Nat} {phase : StaticDataSave} {succeeds : Bool}
    (found : data.saves[save]? = some phase)
    (keeps : KeepsChanges data (.saveAccess save succeeds)) :
    NothingLost (data.continueSave save phase succeeds) := by
  simp only [KeepsChanges, found] at keeps
  cases phase with
  | called =>
    cases succeeds with
    | true | false => exact nothingLost
  | serialized contents =>
    cases succeeds with
    | true =>
      intro unchanged
      rcases keeps with changed | same
      · rw [show data.dataChanged = false from unchanged] at changed
        cases changed
      · exact same
    | false => exact nothingLost
  | written =>
    cases succeeds with
    | true | false => exact fun _ => keeps

theorem keepsChanges_of_continueSave {save : Nat} {phase : StaticDataSave}
    {succeeds : Bool} (found : data.saves[save]? = some phase)
    (later : NothingLost (data.continueSave save phase succeeds)) :
    KeepsChanges data (.saveAccess save succeeds) := by
  simp only [KeepsChanges, found]
  cases phase with
  | called => trivial
  | serialized contents =>
    cases succeeds with
    | true =>
      cases unchanged : data.dataChanged with
      | true => exact .inl rfl
      | false => exact .inr (later unchanged)
    | false => trivial
  | written =>
    cases succeeds with
    | true | false => exact later rfl

variable {event : StaticDataEvent}

theorem NothingLost.step (nothingLost : NothingLost data) {workflowId : String} (keeps : KeepsChanges data event)
    (moved : step workflowId data event = some next) : NothingLost next := by
  cases event with
  | getStaticData type nodeName =>
    cases moved
    exact nothingLost.getStaticData type nodeName
  | read object key =>
    obtain ⟨held, _, rfl⟩ := Option.map_eq_some_iff.mp moved
    cases data.heap.entry held.1 key with
    | none => exact nothingLost
    | some slot =>
      cases slot with
      | value value | object target observed => exact nothingLost
  | write object key value | delete object key =>
    obtain ⟨change, found, rfl⟩ := Option.map_eq_some_iff.mp moved
    exact nothingLost.apply (keeps change found)
  | saveStaticData =>
    simp only [StaticData.step] at moved
    split at moved
    · cases moved
      exact nothingLost
    · cases moved
      exact nothingLost
  | saveAccess save succeeds =>
    obtain ⟨phase, found, rfl⟩ := Option.map_eq_some_iff.mp moved
    exact nothingLost.continueSave found keeps

theorem keepsChanges_of_nothingLost (nothingLost : NothingLost data) {workflowId : String}
    (moved : step workflowId data event = some next)
    (later : NothingLost next) : KeepsChanges data event := by
  cases event with
  | getStaticData type nodeName | read object key | saveStaticData =>
    intro change found
    cases found
  | write object key value | delete object key =>
    obtain ⟨change, found, rfl⟩ := Option.map_eq_some_iff.mp moved
    intro other otherFound
    cases found.symm.trans otherFound
    exact isNoticed_of_nothingLost nothingLost later
  | saveAccess save succeeds =>
    obtain ⟨phase, found, rfl⟩ := Option.map_eq_some_iff.mp moved
    exact keepsChanges_of_continueSave found later

end StaticData

end N8n
