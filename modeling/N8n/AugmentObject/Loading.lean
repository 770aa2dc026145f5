import N8n.AugmentObject.Mirror

/-!
# Plain data on the heap

Loading plain data adds objects that refer to each other only, each to objects
before it and no two to the same one.  They can be added as hidden objects or
as visible ones.
-/

namespace N8n

open Heap List OrderedMap PlainObject

/-- The address of an object without a proxy. -/
def JsValue.address? : JsValue → Option Nat
  | .object (.plain address) => some address
  | _ => none

section Arrays

theorem toString_ne_length (index : Nat) : toString index ≠ "length" := by
  intro equal
  have mem : 'l' ∈ (Nat.repr index).toList := by
    have same : Nat.repr index = "length" := equal
    rw [same]
    decide
  rw [Nat.toList_repr] at mem
  have digit := Nat.isDigit_of_mem_toDigits (by decide) (by decide) mem
  exact absurd digit (by decide)

variable {items : List JsValue} {key : String} {value : JsValue}

theorem mem_of_get?_ofItems (found : (PlainObject.ofItems items).properties.get? key = some value) :
    ∃ index : Nat, key = toString index ∧ items[index]? = some value := by
  obtain ⟨item, mem, equal⟩ := mem_map.mp (mem_of_get?_ofList found)
  obtain ⟨here, there⟩ := Prod.mk.inj equal
  refine ⟨item.2, here.symm, ?_⟩
  rw [← there]
  exact mem_zipIdx_iff_getElem?.mp mem

theorem mem_keys_ofItems : key ∈ (PlainObject.ofItems items).properties.keys ↔
    ∃ index < items.length, key = toString index := by
  rw [PlainObject.ofItems, mem_keys_ofList, map_map]
  constructor
  · intro mem
    obtain ⟨item, itemMem, rfl⟩ := mem_map.mp mem
    have found := mem_zipIdx_iff_getElem?.mp itemMem
    exact ⟨item.2, (List.getElem?_eq_some_iff.mp found).1, rfl⟩
  · rintro ⟨index, bound, rfl⟩
    have found : (items[index], index) ∈ items.zipIdx :=
      mem_zipIdx_iff_getElem?.mpr (by simp [bound])
    exact mem_map_of_mem found

theorem get_ofItems {index : Nat}
    (found : (PlainObject.ofItems items).properties.get? (toString index) = some value) :
    (PlainObject.ofItems items).get (toString index) = value := by
  have own : (PlainObject.ofItems items).shape.own (toString index) = some value := by
    change (if toString index = "length" then _ else _) = _
    rw [if_neg (toString_ne_length index)]
    exact found
  rw [PlainObject.get, Shape.get, own]
  rfl

theorem shape_spread_ofItems (items : List JsValue) :
    (PlainObject.ofItems items).spread.shape = (PlainObject.ofItems items).shape := by
  have sameKeys : ∀ key, key ∈ (PlainObject.ofItems items).spread.properties.keys ↔
        key ∈ (PlainObject.ofItems items).properties.keys := by
    intro key
    rw [spread, mem_keys_ofItems, mem_keys_ofItems]
    simp [PlainObject.ofItems]
  apply Shape.ext
  · simp [spread, shape, PlainObject.ofItems]
  · funext key
    change (PlainObject.ofItems items).spread.properties.get? key =
      (PlainObject.ofItems items).properties.get? key
    cases spread : (PlainObject.ofItems items).spread.properties.get? key with
    | none =>
      rw [get?_eq_none_iff, sameKeys] at spread
      exact (get?_eq_none_iff.mpr spread).symm
    | some value =>
      cases found : (PlainObject.ofItems items).properties.get? key with
      | none =>
        rw [get?_eq_none_iff, ← sameKeys, ← get?_eq_none_iff, spread] at found
        cases found
      | some other =>
        obtain ⟨index, rfl, held⟩ := mem_of_get?_ofItems spread
        rw [getElem?_map] at held
        obtain ⟨position, inRange, read⟩ := Option.map_eq_some_iff.mp held
        obtain ⟨bound, rfl⟩ := List.getElem?_eq_some_iff.mp inRange
        rw [List.getElem_range, get_ofItems found] at read
        rw [read]

end Arrays

/-- New objects from an address on that form a forest with the given roots. -/
structure Grove (start : Nat) (cells : List PlainObject) (roots : List Nat) :
    Prop where
  inner : ∀ (index : Nat) cell key ref, cells[index]? = some cell →
    cell.properties.get? key = some (.object ref) →
    ∃ child, ref = .plain child ∧ start ≤ child ∧ child < start + index
  unique : ∀ (first second : Nat) firstCell secondCell firstKey secondKey child,
    cells[first]? = some firstCell → cells[second]? = some secondCell →
    firstCell.properties.get? firstKey = some (.object (.plain child)) →
    secondCell.properties.get? secondKey = some (.object (.plain child)) →
    first = second ∧ firstKey = secondKey
  dense : ∀ cell ∈ cells, cell.length.isSome = true → cell.spread.shape = cell.shape
  bound : ∀ root ∈ roots, start ≤ root ∧ root < start + cells.length
  free : ∀ root ∈ roots, ∀ (index : Nat) cell key, cells[index]? = some cell →
    cell.properties.get? key ≠ some (.object (.plain root))
  distinct : roots.Nodup

namespace Grove

variable {start : Nat} {cells later : List PlainObject}
  {roots laterRoots : List Nat} {cell : PlainObject}

theorem nil (start : Nat) : Grove start [] [] := by
  constructor <;> simp

theorem append (grove : Grove start cells roots)
    (rest : Grove (start + cells.length) later laterRoots) :
    Grove start (cells ++ later) (roots ++ laterRoots) := by
  have place : ∀ (index : Nat) object, (cells ++ later)[index]? = some object →
      index < cells.length ∧ cells[index]? = some object ∨
        ∃ offset, index = cells.length + offset ∧ later[offset]? = some object := by
    intro index object found
    by_cases early : index < cells.length
    · rw [getElem?_append_left early] at found
      exact .inl ⟨early, found⟩
    · rw [getElem?_append_right (Nat.le_of_not_lt early)] at found
      exact .inr ⟨index - cells.length, by omega, found⟩
  constructor
  · intro index object key ref found held
    rcases place index object found with ⟨early, old⟩ | ⟨offset, rfl, new⟩
    · exact grove.inner index object key ref old held
    · obtain ⟨child, isChild, low, high⟩ := rest.inner offset object key ref new held
      exact ⟨child, isChild, by omega, by omega⟩
  · intro first second firstCell secondCell firstKey secondKey child
      firstFound secondFound firstHeld secondHeld
    rcases place first firstCell firstFound with
      ⟨firstEarly, firstOld⟩ | ⟨firstOffset, rfl, firstNew⟩ <;>
      rcases place second secondCell secondFound with
        ⟨secondEarly, secondOld⟩ | ⟨secondOffset, rfl, secondNew⟩
    · exact grove.unique first second firstCell secondCell firstKey secondKey
        child firstOld secondOld firstHeld secondHeld
    · obtain ⟨_, same, _, high⟩ := grove.inner first firstCell firstKey _ firstOld firstHeld
      obtain ⟨_, same', low, _⟩ :=
        rest.inner secondOffset secondCell secondKey _ secondNew secondHeld
      cases same
      cases same'
      omega
    · obtain ⟨_, same, low, _⟩ := rest.inner firstOffset firstCell firstKey _ firstNew firstHeld
      obtain ⟨_, same', _, high⟩ := grove.inner second secondCell secondKey _ secondOld secondHeld
      cases same
      cases same'
      omega
    · obtain ⟨rfl, sameKey⟩ := rest.unique firstOffset secondOffset firstCell
        secondCell firstKey secondKey child firstNew secondNew firstHeld
        secondHeld
      exact ⟨rfl, sameKey⟩
  · intro object mem isArray
    rcases mem_append.mp mem with old | new
    · exact grove.dense object old isArray
    · exact rest.dense object new isArray
  · intro root mem
    rw [length_append]
    rcases mem_append.mp mem with old | new
    · have bound := grove.bound root old
      omega
    · have bound := rest.bound root new
      omega
  · intro root mem index object key found held
    rcases mem_append.mp mem with old | new <;> rcases place index object found with
        ⟨early, earlier⟩ | ⟨offset, rfl, here⟩
    · exact grove.free root old index object key earlier held
    · obtain ⟨_, same, low, _⟩ := rest.inner offset object key _ here held
      have bound := grove.bound root old
      cases same
      omega
    · obtain ⟨_, same, _, high⟩ := grove.inner index object key _ earlier held
      have bound := rest.bound root new
      cases same
      omega
    · exact rest.free root new offset object key here held
  · apply nodup_append.mpr
    refine ⟨grove.distinct, rest.distinct, ?_⟩
    intro root mem other otherMem equal
    have bound := grove.bound root mem
    have otherBound := rest.bound other otherMem
    omega

theorem node (grove : Grove start cells roots)
    (held : ∀ key ref, cell.properties.get? key = some (.object ref) →
      ∃ root, ref = .plain root ∧ root ∈ roots)
    (unique : ∀ first second child, cell.properties.get? first = some (.object (.plain child)) →
      cell.properties.get? second = some (.object (.plain child)) →
      first = second)
    (dense : cell.length.isSome = true → cell.spread.shape = cell.shape) :
    Grove start (cells ++ [cell]) [start + cells.length] := by
  have place : ∀ (index : Nat) object, (cells ++ [cell])[index]? = some object →
      cells[index]? = some object ∨ index = cells.length ∧ object = cell := by
    intro index object found
    rw [getElem?_append] at found
    split at found
    · exact .inl found
    next late =>
      obtain ⟨bound, same⟩ := List.getElem?_eq_some_iff.mp found
      simp only [List.length_singleton] at bound
      exact .inr ⟨by omega, by rw [← same]; simp⟩
  have inCell : ∀ key child, cell.properties.get? key = some (.object (.plain child)) →
      child ∈ roots := by
    intro key child found
    obtain ⟨_, same, mem⟩ := held key _ found
    cases same
    exact mem
  have notBoth : ∀ (index : Nat) object key other child, cells[index]? = some object →
      object.properties.get? key = some (.object (.plain child)) →
      cell.properties.get? other ≠ some (.object (.plain child)) := by
    intro index object key other child found inObject inNew
    exact grove.free child (inCell other child inNew) index object key found inObject
  constructor
  · intro index object key ref found inObject
    rcases place index object found with old | ⟨rfl, rfl⟩
    · exact grove.inner index object key ref old inObject
    · obtain ⟨root, rfl, mem⟩ := held key ref inObject
      have bound := grove.bound root mem
      exact ⟨root, rfl, bound.1, bound.2⟩
  · intro first second firstCell secondCell firstKey secondKey child
      firstFound secondFound firstHeld secondHeld
    rcases place first firstCell firstFound with firstOld | ⟨rfl, rfl⟩ <;>
      rcases place second secondCell secondFound with
        secondOld | ⟨rfl, rfl⟩
    · exact grove.unique first second firstCell secondCell firstKey secondKey
        child firstOld secondOld firstHeld secondHeld
    · exact absurd secondHeld (notBoth first firstCell firstKey secondKey child firstOld firstHeld)
    · exact absurd firstHeld
        (notBoth second secondCell secondKey firstKey child secondOld secondHeld)
    · exact ⟨rfl, unique firstKey secondKey child firstHeld secondHeld⟩
  · intro object mem isArray
    rcases mem_append.mp mem with old | new
    · exact grove.dense object old isArray
    · obtain rfl := mem_singleton.mp new
      exact dense isArray
  · intro root mem
    obtain rfl := mem_singleton.mp mem
    simp
  · intro root mem index object key found inObject
    obtain rfl := mem_singleton.mp mem
    rcases place index object found with old | ⟨rfl, rfl⟩
    · obtain ⟨_, same, _, high⟩ := grove.inner index object key _ old inObject
      have bound := (List.getElem?_eq_some_iff.mp old).1
      cases same
      omega
    · have bound := grove.bound _ (inCell key _ inObject)
      omega
  · exact nodup_singleton _

end Grove

section Load

def rootsOf (values : List JsValue) : List Nat := values.filterMap JsValue.address?

/-- Loaded values refer to new objects only. -/
structure Loads (start : Nat) (cells : List PlainObject)
    (values : List JsValue) : Prop where
  grove : Grove start cells (rootsOf values)
  plain : ∀ value ∈ values, ∀ ref, value = .object ref → ∃ address, ref = .plain address
  defined : .undefined ∉ values

theorem mem_rootsOf {values : List JsValue} {address : Nat} :
    address ∈ rootsOf values ↔ .object (.plain address) ∈ values := by
  rw [rootsOf, mem_filterMap]
  constructor
  · rintro ⟨value, mem, found⟩
    cases value with
    | object ref =>
      cases ref with
      | plain other =>
        cases found
        exact mem
      | proxy other => cases found
    | _ => cases found
  · intro mem
    exact ⟨_, mem, rfl⟩

variable {entries : List (String × JsValue)}

theorem key_unique_of_nodup {first second : String} {child : Nat}
    (distinct : (rootsOf (entries.map Prod.snd)).Nodup)
    (firstMem : (first, .object (.plain child)) ∈ entries)
    (secondMem : (second, .object (.plain child)) ∈ entries) :
    first = second := by
  induction entries with
  | nil => cases firstMem
  | cons entry entries ih =>
    have later : ∀ key, (key, JsValue.object (.plain child)) ∈ entries →
        child ∈ rootsOf (entries.map Prod.snd) := by
      intro key mem
      exact mem_rootsOf.mpr (mem_map_of_mem mem)
    have notBoth : ∀ key other, (key, JsValue.object (.plain child)) = entry →
        (other, JsValue.object (.plain child)) ∉ entries := by
      rintro key other rfl mem
      have clash : child ∉ rootsOf (entries.map Prod.snd) := (nodup_cons.mp distinct).1
      exact clash (later other mem)
    have distinctLater : (rootsOf (entries.map Prod.snd)).Nodup := by
      have fewer : (rootsOf (entries.map Prod.snd)).Sublist
          (rootsOf ((entry :: entries).map Prod.snd)) :=
        (sublist_cons_self _ _).filterMap _
      exact fewer.nodup distinct
    rcases mem_cons.mp firstMem with firstHere | firstLater <;>
      rcases mem_cons.mp secondMem with secondHere | secondLater
    · exact (Prod.mk.inj (firstHere.trans secondHere.symm)).1
    · exact absurd secondLater (notBoth first second firstHere)
    · exact absurd firstLater (notBoth second first secondHere)
    · exact ih distinctLater firstLater secondLater

variable {cells : List PlainObject} {start : Nat}

theorem Loads.node {cell : PlainObject} (loads : Loads start cells (entries.map Prod.snd))
    (properties : cell.properties = ofList entries)
    (dense : cell.length.isSome = true → cell.spread.shape = cell.shape) :
    Loads start (cells ++ [cell]) [.object (.plain (start + cells.length))] := by
  have mem : ∀ key value, cell.properties.get? key = some value → (key, value) ∈ entries := by
    intro key value found
    rw [properties] at found
    exact mem_of_get?_ofList found
  constructor
  · apply loads.grove.node
    · intro key ref found
      have here : JsValue.object ref ∈ entries.map Prod.snd := mem_map_of_mem (mem key _ found)
      obtain ⟨address, rfl⟩ := loads.plain _ here ref rfl
      exact ⟨address, rfl, mem_rootsOf.mpr here⟩
    · intro first second child firstFound secondFound
      exact key_unique_of_nodup loads.grove.distinct
        (mem first _ firstFound) (mem second _ secondFound)
    · exact dense
  · intro value isNew ref equal
    obtain rfl := mem_singleton.mp isNew
    cases equal
    exact ⟨_, rfl⟩
  · simp

theorem Loads.scalar (start : Nat) {value : JsValue}
    (scalar : value.isObject = false) (defined : value ≠ .undefined) :
    Loads start [] [value] := by
  have noRoot : rootsOf [value] = [] := by
    cases value with
    | object ref => cases scalar
    | _ => rfl
  constructor
  · rw [noRoot]
    exact Grove.nil start
  · intro other mem ref equal
    obtain rfl := mem_singleton.mp mem
    subst other
    cases scalar
  · simpa using defined.symm

theorem unwrap_of_loads {value : JsValue}
    (loads : Loads start cells [value]) (targetOf : Nat → Nat) :
    value.unwrap targetOf = value := by
  cases value with
  | object ref =>
    obtain ⟨root, rfl⟩ := loads.plain _ (mem_singleton_self _) ref rfl
    rfl
  | _ => rfl

theorem Loads.append {later : List PlainObject}
    {values laterValues : List JsValue} (loads : Loads start cells values)
    (rest : Loads (start + cells.length) later laterValues) :
    Loads start (cells ++ later) (values ++ laterValues) := by
  constructor
  · rw [rootsOf, filterMap_append]
    exact loads.grove.append rest.grove
  · intro value mem
    rcases mem_append.mp mem with old | new
    · exact loads.plain value old
    · exact rest.plain value new
  · rw [mem_append, not_or]
    exact ⟨loads.defined, rest.defined⟩

namespace Heap

section

variable (heap : Heap)

def grow (cells : List PlainObject) : Heap :=
  { heap with plain := heap.plain ++ cells }

theorem grow_nil : heap.grow [] = heap := by
  simp [grow]

theorem grow_grow (cells later : List PlainObject) :
    (heap.grow cells).grow later = heap.grow (cells ++ later) := by
  simp [grow]

theorem length_grow (cells : List PlainObject) :
    (heap.grow cells).plain.length = heap.plain.length + cells.length := by
  simp [grow]

theorem allocate_eq (object : PlainObject) :
    heap.allocate object = (heap.grow [object], .object (.plain heap.plain.length)) := rfl

end

end Heap

/-- Loading does the same on heaps of the same size. -/
def LoadsTo {α : Type} (load : Heap → Heap × α) (start : Nat)
    (cells : List PlainObject) (result : α) : Prop :=
  ∀ heap : Heap, heap.plain.length = start → load heap = (heap.grow cells, result)

mutual

theorem load_spec (start : Nat) : ∀ value : JsonValue, ∃ cells result,
    LoadsTo (load · value) start cells result ∧ Loads start cells [result]
  | .null => ⟨[], .null, fun heap _ => by simp [load, grow_nil], Loads.scalar start rfl (by simp)⟩
  | .bool value => ⟨[], .bool value, fun heap _ => by simp [load, grow_nil],
      Loads.scalar start rfl (by simp)⟩
  | .number value => ⟨[], .number value, fun heap _ => by simp [load, grow_nil],
      Loads.scalar start rfl (by simp)⟩
  | .string value => ⟨[], .string value, fun heap _ => by simp [load, grow_nil],
      Loads.scalar start rfl (by simp)⟩
  | .array items => by
    obtain ⟨cells, values, loaded, loads⟩ := loadItems_spec start items
    refine ⟨cells ++ [PlainObject.ofItems values], .object (.plain (start + cells.length)), ?_, ?_⟩
    · intro heap size
      have values := loaded heap size
      simp only at values
      simp only [load, values, allocate_eq, grow_grow, length_grow, size]
    · have entries : (values.zipIdx.map fun item =>
          (toString item.2, item.1)).map Prod.snd = values := by
        simp [map_map, Function.comp_def]
      rw [← entries] at loads
      exact loads.node rfl fun _ => shape_spread_ofItems values
  | .object fields => by
    obtain ⟨cells, values, loaded, loads⟩ := loadFields_spec start fields
    refine ⟨cells ++ [ofFields values], .object (.plain (start + cells.length)), ?_, ?_⟩
    · intro heap size
      have values := loaded heap size
      simp only [load, values, allocate_eq, grow_grow, length_grow, size]
    · exact loads.node rfl fun isArray => absurd isArray (by simp [ofFields])

theorem loadItems_spec (start : Nat) : ∀ items : List JsonValue,
    ∃ cells values, LoadsTo (loadItems · items) start cells values ∧ Loads start cells values
  | [] => ⟨[], [], fun heap _ => by simp [loadItems, grow_nil], Grove.nil start, by simp, by simp⟩
  | item :: items => by
    obtain ⟨cells, value, loaded, loads⟩ := load_spec start item
    obtain ⟨later, values, loadedLater, loadsLater⟩ := loadItems_spec (start + cells.length) items
    refine ⟨cells ++ later, value :: values, ?_, loads.append loadsLater⟩
    intro heap size
    have grown : (heap.grow cells).plain.length = start + cells.length := by
      rw [length_grow, size]
    have first := loaded heap size
    have rest := loadedLater (heap.grow cells) grown
    simp only [loadItems, first, rest, grow_grow]

theorem loadFields_spec (start : Nat) : ∀ fields : List (String × JsonValue), ∃ cells values,
      LoadsTo (loadFields · fields) start cells values ∧ Loads start cells (values.map Prod.snd)
  | [] => ⟨[], [], fun heap _ => by simp [loadFields, grow_nil], Grove.nil start, by simp, by simp⟩
  | (key, field) :: fields => by
    obtain ⟨cells, value, loaded, loads⟩ := load_spec start field
    obtain ⟨later, values, loadedLater, loadsLater⟩ := loadFields_spec (start + cells.length) fields
    refine ⟨cells ++ later, (key, value) :: values, ?_, loads.append loadsLater⟩
    intro heap size
    have grown : (heap.grow cells).plain.length = start + cells.length := by
      rw [length_grow, size]
    have first := loaded heap size
    have rest := loadedLater (heap.grow cells) grown
    simp only [loadFields, first, rest, grow_grow]

end

end Load

namespace Heap

section Grow

variable {hidden : Nat → Prop} {heap copy : Heap} {cells : List PlainObject} {values : List JsValue}

/-- The new objects are hidden, too, or they are not. -/
def hiddenAfter (hidden : Nat → Prop) (start count : Nat) (hide : Prop) (address : Nat) : Prop :=
  hidden address ∨ hide ∧ start ≤ address ∧ address < start + count

variable {address : Nat}

theorem objectAt_grow_old (bound : address < heap.plain.length) :
    (heap.grow cells).objectAt address = heap.objectAt address := by
  rw [objectAt, objectAt, grow, getD_eq_getElem?_getD,
    getElem?_append_left bound, getD_eq_getElem?_getD]

theorem objectAt_grow_new (offset : Nat) :
    (heap.grow cells).objectAt (heap.plain.length + offset) = cells.getD offset empty := by
  rw [objectAt, grow, getD_eq_getElem?_getD, getElem?_append_right (Nat.le_add_right _ _),
    Nat.add_sub_cancel_left, getD_eq_getElem?_getD]

variable {offset : Nat} {key : String}

theorem cell_of_look {value : JsValue}
    (found : (cells.getD offset empty).properties.get? key = some value) :
    ∃ cell, cells[offset]? = some cell ∧ cell.properties.get? key = some value := by
  rw [getD_eq_getElem?_getD] at found
  cases here : cells[offset]? with
  | some cell =>
    rw [here] at found
    exact ⟨cell, rfl, found⟩
  | none =>
    rw [here] at found
    cases found

theorem old_or_new (heap : Heap) (address : Nat) : address < heap.plain.length ∨
      ∃ offset, address = heap.plain.length + offset := by
  by_cases bound : address < heap.plain.length
  · exact .inl bound
  · exact .inr ⟨address - heap.plain.length, by omega⟩

theorem grows_grow (mirrors : Mirrors hidden heap copy) (hide : Prop) :
    Grows hidden (hiddenAfter hidden heap.plain.length cells.length hide) heap
      (heap.grow cells) := by
  constructor
  · simp [grow]
  · exact Nat.le_refl _
  · intro index _
    rfl
  · intro address isHidden
    exact .inl isHidden
  · intro address bound isHidden
    rcases isHidden with old | new
    · exact old
    · exact absurd bound (Nat.not_lt_of_le new.2.1)
  · intro address isHidden
    exact objectAt_grow_old (mirrors.forest.bound address isHidden)

theorem shapeAt_grow_old (mirrors : Mirrors hidden heap copy)
    (bound : address < heap.plain.length) :
    (heap.grow cells).shapeAt address = heap.shapeAt address := by
  by_cases targeted : address ∈ heap.targets
  · obtain ⟨proxy, mem, rfl⟩ := mem_map.mp targeted
    have before := shapeAt_target mirrors.once mem
    have after : (heap.grow cells).shapeAt proxy.target = (heap.grow cells).proxyShape proxy :=
      shapeAt_target mirrors.once mem
    have kept : (heap.grow cells).objectAt proxy.target =
        heap.objectAt proxy.target := objectAt_grow_old bound
    rw [before, after]
    cases proxy with
    | object target newData deletedProperties | array target newData =>
      simp only [AugmentedProxy.target] at kept
      simp only [proxyShape, kept]
  · rw [shapeAt_of_not_targeted targeted]
    have untouched : address ∉ (heap.grow cells).targets := targeted
    rw [shapeAt_of_not_targeted untouched, objectAt_grow_old bound]

theorem not_targeted_of_new (mirrors : Mirrors hidden heap copy)
    (offset : Nat) : heap.plain.length + offset ∉ heap.targets := by
  intro targeted
  obtain ⟨proxy, mem, isTarget⟩ := mem_map.mp targeted
  have bound := mirrors.forest.bound _ (mirrors.targets proxy mem).1
  omega

theorem shapeAt_grow_new (mirrors : Mirrors hidden heap copy) (offset : Nat) :
    (heap.grow cells).shapeAt (heap.plain.length + offset) = (cells.getD offset empty).shape := by
  have untouched : heap.plain.length + offset ∉ (heap.grow cells).targets :=
    not_targeted_of_new mirrors offset
  rw [shapeAt_of_not_targeted untouched, objectAt_grow_new]

theorem look_grow_new (loads : Loads heap.plain.length cells values) {ref : ObjectRef}
    (found : (cells.getD offset empty).properties.get? key = some (.object ref)) :
    ∃ child, ref = .plain (heap.plain.length + child) ∧ child < cells.length := by
  obtain ⟨cell, here, held⟩ := cell_of_look found
  obtain ⟨child, isChild, low, high⟩ := loads.grove.inner offset cell key ref here held
  have bound := (List.getElem?_eq_some_iff.mp here).1
  have split : child = heap.plain.length + (child - heap.plain.length) := by
    omega
  exact ⟨child - heap.plain.length, by rw [isChild, ← split], by omega⟩

theorem hiddenAfter_cases (mirrors : Mirrors hidden heap copy) {hide : Prop}
    (isHidden : hiddenAfter hidden heap.plain.length cells.length hide address) :
    address < heap.plain.length ∧ hidden address ∨
      ∃ offset < cells.length, address = heap.plain.length + offset ∧
        hide := by
  rcases isHidden with old | ⟨hides, low, high⟩
  · exact .inl ⟨mirrors.forest.bound address old, old⟩
  · exact .inr ⟨address - heap.plain.length, by omega, by omega, hides⟩

theorem Forest.grow (mirrors : Mirrors hidden heap copy)
    (loads : Loads heap.plain.length cells values) (hide : Prop) :
    Forest (hiddenAfter hidden heap.plain.length cells.length hide) (heap.grow cells) := by
  have forest := mirrors.forest
  constructor
  · intro address isHidden
    rw [length_grow]
    rcases hiddenAfter_cases mirrors isHidden with
      ⟨bound, _⟩ | ⟨offset, bound, rfl, _⟩
    · omega
    · omega
  · intro address key ref isHidden held
    rcases hiddenAfter_cases mirrors isHidden with
      ⟨bound, old⟩ | ⟨offset, bound, rfl, hides⟩
    · rw [objectAt_grow_old bound] at held
      obtain ⟨child, isChild, childHidden⟩ := forest.inner address key ref old held
      exact ⟨child, isChild, .inl childHidden⟩
    · rw [objectAt_grow_new] at held
      obtain ⟨child, isChild, childBound⟩ := look_grow_new loads held
      exact ⟨_, isChild, .inr ⟨hides, by omega, by omega⟩⟩
  · intro first second firstKey secondKey child firstHidden secondHidden firstHeld secondHeld
    have oldChild : ∀ address key, hidden address → (heap.objectAt address).properties.get? key =
          some (.object (.plain child)) → child < heap.plain.length := by
      intro address key isHidden held
      obtain ⟨_, same, childHidden⟩ := forest.inner address key _ isHidden held
      cases same
      exact forest.bound child childHidden
    have newChild : ∀ offset key, (cells.getD offset empty).properties.get? key =
          some (.object (.plain child)) → heap.plain.length ≤ child := by
      intro offset key held
      obtain ⟨_, same, _⟩ := look_grow_new loads held
      cases same
      omega
    rcases hiddenAfter_cases mirrors firstHidden with
      ⟨firstBound, firstOld⟩ | ⟨firstOffset, _, rfl, _⟩ <;>
      rcases hiddenAfter_cases mirrors secondHidden with
        ⟨secondBound, secondOld⟩ | ⟨secondOffset, _, rfl, _⟩
    · rw [objectAt_grow_old firstBound] at firstHeld
      rw [objectAt_grow_old secondBound] at secondHeld
      exact forest.unique first second firstKey secondKey child firstOld
        secondOld firstHeld secondHeld
    · rw [objectAt_grow_old firstBound] at firstHeld
      rw [objectAt_grow_new] at secondHeld
      have low := newChild secondOffset secondKey secondHeld
      have high := oldChild first firstKey firstOld firstHeld
      omega
    · rw [objectAt_grow_new] at firstHeld
      rw [objectAt_grow_old secondBound] at secondHeld
      have low := newChild firstOffset firstKey firstHeld
      have high := oldChild second secondKey secondOld secondHeld
      omega
    · rw [objectAt_grow_new] at firstHeld secondHeld
      obtain ⟨firstCell, firstFound, inFirst⟩ := cell_of_look firstHeld
      obtain ⟨secondCell, secondFound, inSecond⟩ := cell_of_look secondHeld
      obtain ⟨rfl, sameKey⟩ := loads.grove.unique firstOffset secondOffset
        firstCell secondCell firstKey secondKey child firstFound secondFound
        inFirst inSecond
      exact ⟨rfl, sameKey⟩
  · intro address isHidden isArray
    rcases hiddenAfter_cases mirrors isHidden with
      ⟨bound, old⟩ | ⟨offset, bound, rfl, _⟩
    · rw [objectAt_grow_old bound] at isArray ⊢
      exact forest.dense address old isArray
    · rw [objectAt_grow_new] at isArray ⊢
      have found : cells.getD offset empty = cells[offset] := by
        rw [getD_eq_getElem?_getD, getElem?_eq_getElem bound]
        rfl
      rw [found] at isArray ⊢
      exact loads.grove.dense _ (getElem_mem bound) isArray

theorem Related.old_value (related : Related hidden heap copy)
    {child : Nat} (held : (heap.shapeAt address).look key =
      some (.object (.plain child))) : child < heap.plain.length := by
  rcases related.slots address key _ id held with visible | unread
  · exact visible.1
  · obtain ⟨_, same, childHidden, _⟩ := unread.child
    cases same
    exact related.mirrors.forest.bound child childHidden

theorem Related.grow (related : Related hidden heap copy)
    (loads : Loads heap.plain.length cells values) (hide : Prop) :
    Related (hiddenAfter hidden heap.plain.length cells.length hide)
      (heap.grow cells) (copy.grow cells) := by
  have mirrors := related.mirrors
  have grows : Grows hidden (hiddenAfter hidden heap.plain.length
      cells.length hide) heap (heap.grow cells) := grows_grow mirrors hide
  constructor
  · constructor
    · rw [length_grow, length_grow, mirrors.sizes]
    · intro address
      rcases old_or_new heap address with bound | ⟨offset, rfl⟩
      · have copyBound : address < copy.plain.length := by
          rw [mirrors.sizes]
          exact bound
        rw [objectAt_grow_old copyBound, shapeAt_grow_old mirrors bound]
        exact mirrors.shapes address
      · have inCopy : (copy.grow cells).objectAt (heap.plain.length + offset) =
              cells.getD offset empty := by
          rw [← mirrors.sizes]
          exact objectAt_grow_new offset
        rw [inCopy, shapeAt_grow_new mirrors]
        apply Shape.ext
        · rfl
        · funext key
          change (cells.getD offset empty).properties.get? key =
            ((cells.getD offset empty).properties.get? key).map _
          cases held : (cells.getD offset empty).properties.get? key with
          | none => rfl
          | some value =>
            cases value with
            | object ref =>
              obtain ⟨child, rfl, _⟩ := look_grow_new loads held
              rfl
            | _ => rfl
    · exact Forest.grow mirrors loads hide
    · intro proxy mem
      obtain ⟨isHidden, kind⟩ := mirrors.targets proxy mem
      rw [grows.unchanged _ isHidden]
      exact ⟨grows.hides _ isHidden, kind⟩
    · exact mirrors.once
    · intro proxy mem
      exact grows.wellKept (mirrors.kept proxy mem)
  · intro address key value _ held
    rcases old_or_new heap address with bound | ⟨offset, rfl⟩
    · rw [shapeAt_grow_old mirrors bound] at held
      rcases related.slots address key value id held with visible | unread
      · exact .inl (grows.visible visible)
      · obtain ⟨child, isChild, childHidden, untouched⟩ := unread.child
        refine .inr ⟨grows.hides _ unread.parent,
          ⟨child, isChild, grows.hides _ childHidden, untouched⟩, ?_⟩
        rw [grows.unchanged _ unread.parent]
        exact unread.held
    · rw [shapeAt_grow_new mirrors] at held
      cases value with
      | object ref =>
        obtain ⟨child, rfl, childBound⟩ := look_grow_new loads held
        by_cases hides : hide
        · have offsetBound : offset < cells.length := by
            obtain ⟨cell, here, _⟩ := cell_of_look held
            exact (List.getElem?_eq_some_iff.mp here).1
          refine .inr ⟨.inr ⟨hides, by omega, by omega⟩,
            ⟨_, rfl, .inr ⟨hides, by omega, by omega⟩, ?_⟩, ?_⟩
          · exact not_targeted_of_new mirrors child
          · rw [objectAt_grow_new]
            exact held
        · refine .inl ⟨by rw [length_grow]; omega, ?_⟩
          rintro (old | new)
          · have bound := mirrors.forest.bound _ old
            omega
          · exact hides new.1
      | _ => exact .inl True.intro

theorem visible_of_loads (mirrors : Mirrors hidden heap copy)
    {value : JsValue} (loads : Loads heap.plain.length cells [value]) :
    Visible (hiddenAfter hidden heap.plain.length cells.length False) (heap.grow cells) value := by
  cases value with
  | object ref =>
    obtain ⟨address, rfl⟩ := loads.plain _ (mem_singleton_self _) ref rfl
    have bound := loads.grove.bound address (by simp [rootsOf, JsValue.address?])
    refine ⟨by rw [length_grow]; exact bound.2, ?_⟩
    rintro (old | new)
    · have old := mirrors.forest.bound _ old
      omega
    · exact new.1
  | _ => exact True.intro

end Grow

end Heap

end N8n
