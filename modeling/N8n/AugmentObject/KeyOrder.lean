import N8n.AugmentObject.AugmentedCopy
import N8n.AugmentObject.AugmentedArray

/-!
# The order of the keys

A copy has the keys of an array in the order of what is behind the proxy.  The
order counts for the keys that are no indices; an array gets such a key when
values are appended to it at its largest length.
-/

namespace N8n

open List OrderedMap PlainObject Heap AugmentedProxy

namespace PlainObject

variable {object copied : PlainObject} {key : String}

theorem keys_ofItems_congr {items others : List JsValue} (same : items.length = others.length) :
    (ofItems items).keys = (ofItems others).keys := by
  have sameKeys : ∀ values : List JsValue,
      (values.zipIdx.map fun item => (toString item.2, item.1)).map Prod.fst =
        (List.range' 0 values.length).map toString := by
    intro values
    rw [← zipIdx_map_snd 0 values, map_map, map_map]
    rfl
  apply keys_foldl_set_congr
  · rw [sameKeys, sameKeys, same]
  · rfl

/-- An array keeps the order of its keys when it is spread. -/
def SpreadsInOrder (object : PlainObject) : Prop :=
  object.length.isSome = true → object.spread.keys = object.keys

theorem spreadsInOrder_ofItems (items : List JsValue) : (ofItems items).SpreadsInOrder := by
  intro _
  apply keys_ofItems_congr
  simp [ofItems]

variable {toLength : JsValue → Option Nat}

theorem keys_set_of_mem {value : JsValue} (mem : key ∈ object.keys) (notLength : key ≠ "length") :
    (object.set toLength key value).1.keys = object.keys := by
  have kept : (object.properties.set key value).keys = object.keys :=
    OrderedMap.keys_set_of_mem value mem
  rw [set]
  cases object.length with
  | none => exact kept
  | some length =>
    simp only [notLength, if_false]
    exact kept

theorem keys_set_congr (sameKeys : object.keys = copied.keys)
    (sameLength : object.length = copied.length) {value other : JsValue}
    (converted : key = "length" → toLength value = toLength other) :
    (object.set toLength key value).1.keys = (copied.set toLength key other).1.keys := by
  have added : (object.properties.set key value).keys = (copied.properties.set key other).keys := by
    rw [keys_set, keys_set]
    exact congrArg (fun names => if key ∈ names then names
      else names ++ [key]) sameKeys
  rw [set, set, ← sameLength]
  cases object.length with
  | none => exact added
  | some length =>
    by_cases isLength : key = "length"
    · simp only [isLength, if_true]
      rw [← converted isLength]
      cases toLength value with
      | none => exact sameKeys
      | some newLength =>
        change OrderedMap.keys (OrderedMap.filter _ _) = OrderedMap.keys (OrderedMap.filter _ _)
        rw [object.properties.keys_filter_keys
            (fun name => (arrayIndex name).all (decide <| · < newLength)),
          copied.properties.keys_filter_keys
            (fun name => (arrayIndex name).all (decide <| · < newLength))]
        exact congrArg _ sameKeys
    · simp only [isLength, if_false]
      exact added

theorem keys_delete_congr (sameKeys : object.keys = copied.keys)
    (sameLength : object.length = copied.length) :
    (object.delete key).1.keys = (copied.delete key).1.keys := by
  rw [delete, delete, ← sameLength]
  split
  · exact sameKeys
  · change OrderedMap.keys (OrderedMap.delete _ _) = OrderedMap.keys (OrderedMap.delete _ _)
    rw [keys_delete, keys_delete]
    exact congrArg _ sameKeys

end PlainObject

section Load

mutual

theorem load_inOrder (heap : Heap) : ∀ value : JsonValue, ∃ cells,
    (heap.load value).1 = heap.grow cells ∧ ∀ cell ∈ cells, cell.SpreadsInOrder
  | .null => ⟨[], heap.grow_nil.symm, by simp⟩
  | .bool value => ⟨[], heap.grow_nil.symm, by simp⟩
  | .number value => ⟨[], heap.grow_nil.symm, by simp⟩
  | .string value => ⟨[], heap.grow_nil.symm, by simp⟩
  | .array items => by
    obtain ⟨cells, loaded, inOrder⟩ := loadItems_inOrder heap items
    refine ⟨cells ++ [ofItems (heap.loadItems items).2], ?_, ?_⟩
    · rw [← grow_grow, ← loaded]
      rfl
    · intro cell mem
      rcases mem_append.mp mem with old | new
      · exact inOrder cell old
      · obtain rfl := mem_singleton.mp new
        exact spreadsInOrder_ofItems _
  | .object fields => by
    obtain ⟨cells, loaded, inOrder⟩ := loadFields_inOrder heap fields
    refine ⟨cells ++ [ofFields (heap.loadFields fields).2], ?_, ?_⟩
    · rw [← grow_grow, ← loaded]
      rfl
    · intro cell mem
      rcases mem_append.mp mem with old | new
      · exact inOrder cell old
      · obtain rfl := mem_singleton.mp new
        intro isArray
        cases isArray

theorem loadItems_inOrder (heap : Heap) : ∀ items : List JsonValue, ∃ cells,
    (heap.loadItems items).1 = heap.grow cells ∧ ∀ cell ∈ cells, cell.SpreadsInOrder
  | [] => ⟨[], heap.grow_nil.symm, by simp⟩
  | item :: items => by
    obtain ⟨cells, loaded, inOrder⟩ := load_inOrder heap item
    obtain ⟨later, loadedLater, laterInOrder⟩ := loadItems_inOrder (heap.load item).1 items
    refine ⟨cells ++ later, ?_, ?_⟩
    · rw [← grow_grow, ← loaded, ← loadedLater]
      rfl
    · intro cell mem
      exact (mem_append.mp mem).elim (inOrder cell) (laterInOrder cell)

theorem loadFields_inOrder (heap : Heap) : ∀ fields : List (String × JsonValue), ∃ cells,
      (heap.loadFields fields).1 = heap.grow cells ∧ ∀ cell ∈ cells, cell.SpreadsInOrder
  | [] => ⟨[], heap.grow_nil.symm, by simp⟩
  | (key, field) :: fields => by
    obtain ⟨cells, loaded, inOrder⟩ := load_inOrder heap field
    obtain ⟨later, loadedLater, laterInOrder⟩ := loadFields_inOrder (heap.load field).1 fields
    refine ⟨cells ++ later, ?_, ?_⟩
    · rw [← grow_grow, ← loaded, ← loadedLater]
      rfl
    · intro cell mem
      exact (mem_append.mp mem).elim (inOrder cell) (laterInOrder cell)

end

theorem inOrder_of_load {heap : Heap} {value : JsonValue} {result : JsValue}
    {cells : List PlainObject}
    (load : heap.load value = (heap.grow cells, result)) :
    ∀ cell ∈ cells, cell.SpreadsInOrder := by
  obtain ⟨others, loaded, inOrder⟩ := load_inOrder heap value
  rw [load] at loaded
  have same : cells = others := append_cancel_left (congrArg plain loaded)
  rw [same]
  exact inOrder

end Load

namespace Heap

section SameOrder

variable {hidden : Nat → Prop} {heap copy changedCopy : Heap}
  {proxy changed : AugmentedProxy} {index : Nat} {key : String}

/-- The keys of each array are in the order of the copy. -/
structure SameOrder (hidden : Nat → Prop) (heap copy : Heap) : Prop where
  proxied : ∀ (index target : Nat) (newData : Option PlainObject),
    heap.proxies[index]? = some (array target newData) →
    (newData.getD (heap.objectAt target)).keys = (copy.objectAt target).keys
  untouched : ∀ address, address ∉ heap.targets →
    (heap.objectAt address).keys = (copy.objectAt address).keys
  spread : ∀ address, hidden address → (heap.objectAt address).SpreadsInOrder

theorem SameOrder.getData (same : SameOrder hidden heap copy) {target : Nat}
    {newData : Option PlainObject}
    (stands : Stands hidden heap index (.array target newData)) :
    (heap.getData target newData).keys = (copy.objectAt target).keys := by
  rw [← same.proxied index target newData stands.found]
  cases newData with
  | some data => rfl
  | none => exact same.spread target stands.isHidden stands.kind.symm

theorem target_mem (found : heap.proxies[index]? = some proxy) : proxy.target ∈ heap.targets :=
  mem_map_of_mem (mem_of_getElem? found)

theorem SameOrder.grow (same : SameOrder hidden heap copy)
    (mirrors : Mirrors hidden heap copy) {cells : List PlainObject}
    (inOrder : ∀ cell ∈ cells, cell.SpreadsInOrder) (hide : Prop) :
    SameOrder (hiddenAfter hidden heap.plain.length cells.length hide)
      (heap.grow cells) (copy.grow cells) := by
  have oldInCopy : ∀ address < heap.plain.length,
      (copy.grow cells).objectAt address = copy.objectAt address :=
    fun address bound => objectAt_grow_old (mirrors.sizes ▸ bound)
  constructor
  · intro index target newData found
    have mem := mem_of_getElem? found
    have bound : target < heap.plain.length := mirrors.forest.bound target (mirrors.targets _ mem).1
    rw [objectAt_grow_old bound, oldInCopy target bound]
    exact same.proxied index target newData found
  · intro address free
    rcases old_or_new heap address with bound | ⟨offset, rfl⟩
    · rw [objectAt_grow_old bound, oldInCopy address bound]
      exact same.untouched address free
    · have inCopy : (copy.grow cells).objectAt (heap.plain.length + offset) =
          cells.getD offset empty := by
        rw [← mirrors.sizes]
        exact objectAt_grow_new offset
      rw [objectAt_grow_new, inCopy]
  · intro address isHidden
    rcases hiddenAfter_cases mirrors isHidden with
      ⟨bound, old⟩ | ⟨offset, bound, rfl, _⟩
    · rw [objectAt_grow_old bound]
      exact same.spread address old
    · rw [objectAt_grow_new, getD_eq_getElem?_getD, getElem?_eq_getElem bound]
      exact inOrder _ (getElem_mem bound)

theorem SameOrder.addProxy (same : SameOrder hidden heap copy) {child : Nat}
    (free : child ∉ heap.targets) :
    SameOrder hidden (heap.addProxy (heap.proxyFor child)) copy := by
  constructor
  · intro index target newData found
    change (newData.getD (heap.objectAt target)).keys = _
    rw [Heap.addProxy, getElem?_append] at found
    split at found
    · exact same.proxied index target newData found
    · have isNew : heap.proxyFor child = .array target newData := by
        have mem := mem_of_getElem? found
        exact (mem_singleton.mp mem).symm
      have isTarget : child = target := by
        rw [← heap.target_proxyFor child, isNew]
        rfl
      subst isTarget
      have noData : newData = none := by
        rw [proxyFor] at isNew
        split at isNew
        · exact (array.inj isNew).2.symm
        · cases isNew
      subst noData
      exact same.untouched child free
  · intro address untargeted
    rw [targets_addProxy, mem_append, not_or] at untargeted
    exact same.untouched address untargeted.1
  · exact same.spread

theorem SameOrder.putProxy (same : SameOrder hidden heap copy)
    (once : heap.targets.Nodup) (found : heap.proxies[index]? = some proxy)
    (sameTarget : changed.target = proxy.target)
    (keys : ∀ target newData, changed = .array target newData →
      (newData.getD (heap.objectAt target)).keys = (changedCopy.objectAt target).keys)
    (elsewhere : ∀ address, address ≠ proxy.target →
      changedCopy.objectAt address = copy.objectAt address) :
    SameOrder hidden (heap.putProxy index changed) changedCopy := by
  constructor
  · intro position target newData there
    change (newData.getD (heap.objectAt target)).keys = _
    rw [Heap.putProxy, getElem?_set] at there
    split at there
    · split at there
      · exact keys target newData (Option.some.inj there)
      · cases there
    next other =>
      have away : target ≠ proxy.target := by
        intro equal
        have first : heap.targets[index]? = some proxy.target := by
          rw [targets, getElem?_map, found]
          rfl
        have second : heap.targets[position]? = some proxy.target := by
          rw [targets, getElem?_map, there, ← equal]
          rfl
        have bound := (List.getElem?_eq_some_iff.mp first).1
        exact other ((getElem?_inj bound once).mp (first.trans second.symm))
      rw [elsewhere target away]
      exact same.proxied position target newData there
  · intro address untargeted
    rw [targets_putProxy found sameTarget] at untargeted
    have away : address ≠ proxy.target :=
      fun equal => untargeted (equal ▸ target_mem found)
    rw [elsewhere address away]
    exact same.untouched address untargeted
  · exact same.spread

theorem SameOrder.putObject (same : SameOrder hidden heap copy)
    (mirrors : Mirrors hidden heap copy) {address : Nat}
    (bound : address < heap.plain.length) (exposed : ¬ hidden address)
    {object copied : PlainObject} (keys : object.keys = copied.keys) :
    SameOrder hidden (heap.putObject address object) (copy.putObject address copied) := by
  have copyBound : address < copy.plain.length := mirrors.sizes ▸ bound
  constructor
  · intro index target newData found
    have mem := mem_of_getElem? found
    have away : target ≠ address :=
      fun equal => exposed (equal ▸ (mirrors.targets _ mem).1)
    rw [objectAt_putObject bound, objectAt_putObject copyBound, if_neg away, if_neg away]
    exact same.proxied index target newData found
  · intro other untargeted
    rw [objectAt_putObject bound, objectAt_putObject copyBound]
    split
    · exact keys
    · exact same.untouched other untargeted
  · intro other isHidden
    have away : other ≠ address := fun equal => exposed (equal ▸ isHidden)
    rw [objectAt_putObject bound, if_neg away]
    exact same.spread other isHidden

end SameOrder

section Operations

variable {hidden : Nat → Prop} {heap copy : Heap}
  {proxy changed : AugmentedProxy} {index : Nat} {key : String}
  {toLength : JsValue → Option Nat}

theorem SameOrder.wrap (same : SameOrder hidden heap copy) (related : Related hidden heap copy)
    (stands : Stands hidden heap index proxy) {child : Nat}
    (isHidden : hidden child)
    (held : (heap.proxyShape proxy).look key = some (.object (.plain child)))
    (sameTarget : changed.target = proxy.target)
    (keys : ∀ target newData, changed = .array target newData →
      (newData.getD (heap.objectAt target)).keys = (copy.objectAt target).keys) :
    SameOrder hidden ((heap.addProxy (heap.proxyFor child)).putProxy index changed) copy := by
  have free := (related.unread stands isHidden held).untouched
  have once : (heap.addProxy (heap.proxyFor child)).targets.Nodup := by
    rw [targets_addProxy, target_proxyFor]
    exact nodup_append_comm.mp (nodup_cons.mpr ⟨free, related.mirrors.once⟩)
  have found : (heap.addProxy (heap.proxyFor child)).proxies[index]? = some proxy := by
    have bound := (List.getElem?_eq_some_iff.mp stands.found).1
    rw [Heap.addProxy, List.getElem?_append_left bound]
    exact stands.found
  apply (same.addProxy free).putProxy once found sameTarget keys
  intro address _
  rfl

variable {target : Nat}

theorem SameOrder.getObject (same : SameOrder hidden heap copy) (related : Related hidden heap copy)
    {newData : OrderedMap String JsValue} {deletedProperties : List String}
    (stands : Stands hidden heap index (.object target newData deletedProperties)) :
    SameOrder hidden (heap.getObject index target newData deletedProperties key).1 copy := by
  rw [Heap.getObject]
  by_cases isConstructor : key = "constructor"
  · rw [if_pos isConstructor]
    exact same
  rw [if_neg isConstructor]
  by_cases deleted : key ∈ deletedProperties
  · rw [if_pos deleted]
    exact same
  rw [if_neg deleted]
  cases written : newData.get? key with
  | some value => exact same
  | none =>
    cases value : (heap.objectAt target).get key with
    | object ref =>
      have held : (heap.objectAt target).properties.get? key = some (.object ref) :=
        (Shape.own_object (Shape.look_of_get value)).1
      obtain ⟨child, rfl, isHidden⟩ := related.mirrors.forest.inner
        target key ref stands.isHidden held
      have look : (heap.proxyShape (.object target newData
          deletedProperties)).look key = some (.object (.plain child)) := by
        simp only [proxyShape, if_neg deleted, written]
        exact held
      apply same.wrap related stands isHidden look
      · rfl
      · intro _ _ isArray
        cases isArray
    | _ =>
      simp only [augment, ne_eq, not_true_eq_false, if_false]
      exact same

variable {newData : Option PlainObject}

theorem SameOrder.getArray (same : SameOrder hidden heap copy) (related : Related hidden heap copy)
    (stands : Stands hidden heap index (.array target newData)) :
    SameOrder hidden (heap.getArray toLength index target newData key).1 copy := by
  rw [Heap.getArray]
  by_cases isConstructor : key = "constructor"
  · rw [if_pos isConstructor]
    exact same
  rw [if_neg isConstructor]
  cases value : (newData.getD (heap.objectAt target)).get key with
  | object ref =>
    have own : (heap.proxyShape (.array target newData)).own key =
        some (.object ref) := Shape.look_of_get value
    obtain ⟨look, notLength⟩ := Shape.own_object own
    cases ref with
    | proxy other =>
      simp only [augment, ne_eq, not_true_eq_false, if_false]
      exact same
    | plain child =>
      have isHidden := hidden_of_array related stands look
      have changes : JsValue.object (.proxy heap.proxies.length) ≠ .object (.plain child) := by simp
      have isArray : (heap.proxyShape (.array target newData)).isArray = true :=
        isArray_proxyShape stands
      have mem : key ∈ (heap.getData target newData).keys := by
        rw [PlainObject.mem_keys_iff, shape_getData related stands, look]
        rfl
      apply same.wrap related stands isHidden look
      · rfl
      · intro _ _ isChanged
        obtain ⟨rfl, rfl⟩ := array.inj isChanged
        change PlainObject.keys (PlainObject.set _ _ _ _).1 = _
        rw [keys_set_of_mem mem (notLength isArray)]
        exact same.getData stands
  | _ =>
    simp only [augment, ne_eq, not_true_eq_false, if_false]
    exact same

theorem SameOrder.get (same : SameOrder hidden heap copy)
    (related : Related hidden heap copy) {ref : ObjectRef}
    (seen : Visible hidden heap (.object ref)) :
    SameOrder hidden (heap.get toLength key ref).1 copy := by
  cases ref with
  | plain address => exact same
  | proxy index =>
    obtain ⟨proxy, stands⟩ := stands_of_visible related seen
    rw [Heap.get, stands.found]
    cases proxy with
    | object target newData deletedProperties =>
      exact same.getObject related stands
    | array target newData => exact same.getArray related stands

theorem length_of_copy (related : Related hidden heap copy) (address : Nat) :
    (copy.objectAt address).length = (heap.shapeAt address).length :=
  congrArg Shape.length (shape_of_copy related address)

theorem SameOrder.storeArray (same : SameOrder hidden heap copy)
    (related : Related hidden heap copy)
    (stands : Stands hidden heap index (.array target newData))
    {data copied : PlainObject} (keys : data.keys = copied.keys) :
    SameOrder hidden (heap.putProxy index (.array target (some data)))
      (copy.putObject target copied) := by
  have bound : target < copy.plain.length := by
    rw [related.mirrors.sizes]
    exact related.mirrors.forest.bound _ stands.isHidden
  apply same.putProxy related.mirrors.once stands.found
  · rfl
  · intro _ _ isChanged
    obtain ⟨rfl, rfl⟩ := array.inj isChanged
    rw [objectAt_putObject bound, if_pos rfl]
    exact keys
  · intro address away
    have away : address ≠ target := away
    rw [objectAt_putObject bound, if_neg away]

theorem getData_length (related : Related hidden heap copy)
    (stands : Stands hidden heap index (.array target newData)) :
    (heap.getData target newData).length = (copy.objectAt target).length := by
  rw [length_of_copy related]
  have shape : heap.shapeAt target = _ := stands.shape
  rw [shape, ← shape_getData related stands]
  rfl

variable {value other : JsValue}

theorem SameOrder.setArray (same : SameOrder hidden heap copy) (related : Related hidden heap copy)
    (stands : Stands hidden heap index (.array target newData))
    (converted : key = "length" → toLength value = toLength other) :
    SameOrder hidden (heap.putProxy index (.array target
        (some ((heap.getData target newData).set toLength key value).1)))
      (copy.set toLength key other (.plain target)).1 :=
  same.storeArray related stands (keys_set_congr
    (same.getData stands) (getData_length related stands) converted)

theorem SameOrder.deleteArray (same : SameOrder hidden heap copy)
    (related : Related hidden heap copy)
    (stands : Stands hidden heap index (.array target newData)) :
    SameOrder hidden (heap.deletePropertyArray index target newData key).1
      (copy.deleteProperty key (.plain target)).1 :=
  same.storeArray related stands (keys_delete_congr
    (same.getData stands) (getData_length related stands))

variable {address : Nat}

theorem SameOrder.setPlain (same : SameOrder hidden heap copy) (related : Related hidden heap copy)
    (seen : Visible hidden heap (.object (.plain address)))
    (converted : key = "length" → toLength value = toLength other) :
    SameOrder hidden (heap.set toLength key value (.plain address)).1
      (copy.set toLength key other (.plain address)).1 := by
  obtain ⟨bound, exposed, behind⟩ := exposed_of_visible related seen
  have free := not_targeted_of_exposed related.mirrors exposed
  apply same.putObject related.mirrors bound exposed
  apply keys_set_congr (same.untouched address free) _ converted
  rw [length_of_copy related, behind]
  rfl

theorem SameOrder.deletePlain (same : SameOrder hidden heap copy)
    (related : Related hidden heap copy)
    (seen : Visible hidden heap (.object (.plain address))) :
    SameOrder hidden (heap.deleteProperty key (.plain address)).1
      (copy.deleteProperty key (.plain address)).1 := by
  obtain ⟨bound, exposed, behind⟩ := exposed_of_visible related seen
  have free := not_targeted_of_exposed related.mirrors exposed
  apply same.putObject related.mirrors bound exposed
  apply keys_delete_congr (same.untouched address free)
  rw [length_of_copy related, behind]
  rfl

theorem SameOrder.setProxy (same : SameOrder hidden heap copy) (related : Related hidden heap copy)
    (seen : Visible hidden heap (.object (.proxy index)))
    (isArrayProxy : heap.isArray (.proxy index) = true)
    (noPlain : ∀ address, value ≠ .object (.plain address))
    (converted : key = "length" → toLength value = toLength other) :
    SameOrder hidden (heap.set toLength key value (.proxy index)).1
      (copy.set toLength key other (.plain (heap.targetOf index))).1 := by
  obtain ⟨target, newData, stands, address, trap⟩ :=
    set_of_isArray toLength related seen isArrayProxy key value
  rw [address, trap, Heap.setArray, augment_of_not_plain noPlain]
  exact same.setArray related stands converted

theorem SameOrder.setLiteral (same : SameOrder hidden heap copy)
    (related : Related hidden heap copy)
    (seen : Visible hidden heap (.object (.proxy index)))
    (isArrayProxy : heap.isArray (.proxy index) = true)
    {cells : List PlainObject} {root : Nat}
    (inOrder : ∀ cell ∈ cells, cell.SpreadsInOrder)
    (loads : Loads heap.plain.length cells [.object (.plain root)])
    (notLength : key ≠ "length") :
    SameOrder (hiddenAfter hidden heap.plain.length cells.length True)
      ((heap.grow cells).set toLength key (.object (.plain root)) (.proxy index)).1
      ((copy.grow cells).set toLength key (.object (.plain root))
        (.plain (heap.targetOf index))).1 := by
  have mirrors := related.mirrors
  obtain ⟨_, free, _⟩ := root_of_loads related loads
  have grows : Grows hidden (hiddenAfter hidden heap.plain.length
      cells.length True) heap ((heap.grow cells).addProxy ((heap.grow cells).proxyFor root)) :=
    (grows_grow mirrors True).trans grows_addProxy
  have isArrayAfter := (@isArray_addProxy (heap.grow cells) index seen
    ((heap.grow cells).proxyFor root)).trans isArrayProxy
  have stays : (heap.grow cells).set toLength key (.object (.plain root))
      (.proxy index) = _ := set_raw toLength isArrayProxy
  rw [stays, ← grows.targets index seen]
  apply ((same.grow mirrors inOrder True).addProxy free).setProxy
    (related.addLiteral loads) (grows.visible seen) isArrayAfter
  · intro address
    simp
  · intro isLength
    exact absurd isLength notLength

end Operations

end Heap

end N8n
