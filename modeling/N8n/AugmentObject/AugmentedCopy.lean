import N8n.AugmentObject.Loading

/-!
# An augmented object behaves like a copy

Each operation on a heap with proxies is the same operation on what the
proxies stand for.  So a session with an augmented object gives the answers of
a session with a copy, and the object itself stays as it is.
-/

namespace N8n

open OrderedMap PlainObject Shape

namespace Heap

def addressOf (heap : Heap) : ObjectRef → Nat
  | .plain address => address
  | .proxy index => heap.targetOf index

theorem unwrap_object (heap : Heap) (ref : ObjectRef) :
    (JsValue.object ref).unwrap heap.targetOf = .object (.plain (heap.addressOf ref)) := by
  cases ref <;> rfl

section Shapes

variable {hidden : Nat → Prop} {heap copy : Heap} {index : Nat}
  {proxy : AugmentedProxy} {key : String}

/-- An object without a proxy that may be read. -/
structure Exposed (hidden : Nat → Prop) (heap : Heap) (address : Nat) : Prop where
  bound : address < heap.plain.length
  exposed : ¬ hidden address
  shape : heap.shapeAt address = (heap.objectAt address).shape

theorem exposed_of_visible (related : Related hidden heap copy)
    {address : Nat} (seen : Visible hidden heap (.object (.plain address))) :
    Exposed hidden heap address := by
  obtain ⟨bound, exposed⟩ := seen
  exact ⟨bound, exposed, shapeAt_of_not_targeted (not_targeted_of_exposed related.mirrors exposed)⟩

structure Stands (hidden : Nat → Prop) (heap : Heap) (index : Nat)
    (proxy : AugmentedProxy) : Prop where
  found : heap.proxies[index]? = some proxy
  address : heap.addressOf (.proxy index) = proxy.target
  isHidden : hidden proxy.target
  kind : proxy.isArray = (heap.objectAt proxy.target).length.isSome
  shape : heap.shapeAt proxy.target = heap.proxyShape proxy
  kept : WellKept hidden heap proxy

theorem stands_of_visible (related : Related hidden heap copy)
    (seen : Visible hidden heap (.object (.proxy index))) :
    ∃ proxy, Stands hidden heap index proxy := by
  have found : heap.proxies[index]? = some heap.proxies[index] := List.getElem?_eq_getElem seen
  have mem : heap.proxies[index] ∈ heap.proxies := List.getElem_mem seen
  have mirrors := related.mirrors
  obtain ⟨isHidden, kind⟩ := mirrors.targets _ mem
  exact ⟨_, found, targetOf_eq found, isHidden, kind,
    shapeAt_target mirrors.once mem, mirrors.kept _ mem⟩

theorem shape_of_copy (related : Related hidden heap copy) (address : Nat) :
    (copy.objectAt address).shape = (heap.shapeAt address).map (JsValue.unwrap heap.targetOf) :=
  related.mirrors.shapes address

theorem isArray_proxyShape (stands : Stands hidden heap index proxy) :
    (heap.proxyShape proxy).isArray = proxy.isArray := by
  cases proxy with
  | object target newData deletedProperties => rfl
  | array target newData =>
    cases newData with
    | none => exact stands.kind.symm
    | some data => exact (stands.kept data rfl).1

variable {ref : ObjectRef}

theorem isArray_eq (related : Related hidden heap copy) (seen : Visible hidden heap (.object ref)) :
    heap.isArray ref = (heap.shapeAt (heap.addressOf ref)).isArray := by
  cases ref with
  | plain address =>
    rw [addressOf, (exposed_of_visible related seen).shape]
    rfl
  | proxy index =>
    obtain ⟨proxy, stands⟩ := stands_of_visible related seen
    rw [stands.address, stands.shape, isArray_proxyShape stands, isArray, stands.found]

variable {deletedProperties : List String} {newData : OrderedMap String JsValue} {target : Nat}

theorem length_target (stands : Stands hidden heap index
      (.object target newData deletedProperties)) :
    (heap.objectAt target).length = none := by
  have kind : false = (heap.objectAt target).length.isSome := stands.kind
  cases length : (heap.objectAt target).length with
  | none => rfl
  | some length =>
    rw [length] at kind
    cases kind

theorem own_target (stands : Stands hidden heap index
      (.object target newData deletedProperties)) (key : String) :
    (heap.objectAt target).shape.own key = (heap.objectAt target).properties.get? key := by
  rw [Shape.own, PlainObject.shape, length_target stands]

theorem own_object (key : String) :
    (heap.proxyShape (.object target newData deletedProperties)).own key =
      if key ∈ deletedProperties then none
      else (newData.get? key).or ((heap.objectAt target).properties.get? key) := rfl

theorem has_eq (related : Related hidden heap copy) (seen : Visible hidden heap (.object ref)) :
    heap.has key ref = (heap.shapeAt (heap.addressOf ref)).has key := by
  cases ref with
  | plain address =>
    rw [addressOf, (exposed_of_visible related seen).shape]
    rfl
  | proxy index =>
    obtain ⟨proxy, stands⟩ := stands_of_visible related seen
    rw [stands.address, stands.shape, has, stands.found]
    cases proxy with
    | array target newData => rfl
    | object target newData deletedProperties =>
      change hasObject _ _ _ _ _ = _
      rw [hasObject, Shape.has, own_object]
      have notArray : (heap.proxyShape
          (.object target newData deletedProperties)).isArray = false :=
        rfl
      rw [notArray]
      by_cases deleted : key ∈ deletedProperties
      · rw [if_pos deleted, if_pos deleted, stands.kept.2 key deleted]
        rfl
      · rw [if_neg deleted, if_neg deleted]
        cases written : newData.get? key with
        | some value => simp [OrderedMap.has, written]
        | none =>
          have ownKey := own_target stands key
          have noArray : (heap.objectAt target).shape.isArray =
              false := by
            rw [Shape.isArray, PlainObject.shape, length_target stands]
            rfl
          simp [OrderedMap.has, written, PlainObject.has, Shape.has, ownKey, noArray]

theorem hasOwn_eq (related : Related hidden heap copy) (seen : Visible hidden heap (.object ref))
    (noArrayProxy : ∀ index, ref = .proxy index → heap.isArray ref = false) :
    heap.hasOwn key ref = (heap.shapeAt (heap.addressOf ref)).hasOwn key := by
  cases ref with
  | plain address =>
    rw [addressOf, (exposed_of_visible related seen).shape]
    rfl
  | proxy index =>
    obtain ⟨proxy, stands⟩ := stands_of_visible related seen
    have noArray := noArrayProxy index rfl
    rw [stands.address, stands.shape, hasOwn, stands.found]
    rw [isArray, stands.found] at noArray
    cases proxy with
    | array target newData => cases noArray
    | object target newData deletedProperties =>
      change hasOwnObject _ _ _ _ _ = _
      rw [hasOwnObject, Shape.hasOwn, own_object]
      by_cases deleted : key ∈ deletedProperties
      · rw [if_pos deleted, if_pos deleted]
        rfl
      · rw [if_neg deleted, if_neg deleted]
        cases written : newData.get? key with
        | some value => simp [OrderedMap.has, written]
        | none =>
          simp [OrderedMap.has, written, PlainObject.hasOwn, Shape.hasOwn, own_target stands key]

theorem mem_keys_iff (related : Related hidden heap copy)
    (seen : Visible hidden heap (.object ref)) :
    key ∈ heap.keys ref ↔ ((heap.shapeAt (heap.addressOf ref)).look key).isSome = true := by
  cases ref with
  | plain address =>
    rw [addressOf, (exposed_of_visible related seen).shape]
    exact PlainObject.mem_keys_iff
  | proxy index =>
    obtain ⟨proxy, stands⟩ := stands_of_visible related seen
    rw [stands.address, stands.shape, keys, stands.found]
    cases proxy with
    | array target newData => exact PlainObject.mem_keys_iff
    | object target newData deletedProperties =>
      change key ∈ keysObject _ _ _ _ ↔ _
      have original : key ∈ (heap.objectAt target).keys ↔
          ((heap.objectAt target).properties.get? key).isSome = true :=
        PlainObject.mem_keys_iff
      have written : key ∈ newData.keys ↔ (newData.get? key).isSome = true := has_iff.symm
      simp only [keysObject, proxyShape, List.mem_filter,
        List.mem_append, original, written, decide_eq_true_eq]
      by_cases deleted : key ∈ deletedProperties
      · simp [deleted]
      · cases newData.get? key <;> cases (heap.objectAt target).properties.get? key <;>
            simp [deleted]

end Shapes

section Change

variable {hidden : Nat → Prop} {heap copy : Heap} {index : Nat}
  {proxy changed : AugmentedProxy} {key : String}

theorem Related.store (related : Related hidden heap copy)
    (stands : Stands hidden heap index proxy) (same : changed.target = proxy.target)
    (kind : changed.isArray = proxy.isArray) (kept : WellKept hidden heap changed)
    (values : ∀ other value, (heap.proxyShape changed).look other = some value →
      Visible hidden heap value ∨ (heap.proxyShape proxy).look other = some value)
    {object : PlainObject} (shape : object.shape =
      (heap.proxyShape changed).map (JsValue.unwrap heap.targetOf)) :
    Related hidden (heap.putProxy index changed) (copy.putObject proxy.target object) := by
  have mirrors := related.mirrors
  have bound : proxy.target < copy.plain.length := by
    rw [mirrors.sizes]
    exact mirrors.forest.bound _ stands.isHidden
  apply mirrors.putProxy related.slots stands.found same kind kept
  · intro other value held
    rcases values other value held with visible | old
    · exact .inl visible
    · rw [← stands.shape] at old
      exact related.slots _ other value id old
  · intro address isOpened
    exact isOpened.elim
  · simp [Heap.putObject]
  · intro address
    rw [objectAt_putObject bound]
    split
    · exact shape
    · rfl

theorem Related.unread (related : Related hidden heap copy)
    (stands : Stands hidden heap index proxy) {child : Nat}
    (isHidden : hidden child)
    (held : (heap.proxyShape proxy).look key = some (.object (.plain child))) :
    Unread hidden heap proxy.target key (.object (.plain child)) := by
  rw [← stands.shape] at held
  rcases related.slots _ key _ id held with visible | unread
  · exact absurd isHidden visible.2
  · exact unread

theorem Unread.untouched {address child : Nat}
    (unread : Unread hidden heap address key (.object (.plain child))) :
    child ∉ heap.targets := by
  obtain ⟨_, equal, _, free⟩ := unread.child
  cases equal
  exact free

theorem Related.wrap (related : Related hidden heap copy)
    (stands : Stands hidden heap index proxy) {child : Nat}
    (isHidden : hidden child)
    (held : (heap.proxyShape proxy).look key = some (.object (.plain child)))
    (same : changed.target = proxy.target) (kind : changed.isArray = proxy.isArray)
    (kept : WellKept hidden (heap.addProxy (heap.proxyFor child)) changed)
    (shape : (heap.addProxy (heap.proxyFor child)).proxyShape changed =
      { length := (heap.proxyShape proxy).length
        look := fun other =>
          if key = other then some (.object (.proxy heap.proxies.length))
          else (heap.proxyShape proxy).look other }) :
    Related hidden ((heap.addProxy (heap.proxyFor child)).putProxy index changed) copy := by
  have mirrors := related.mirrors
  have here := related.unread stands isHidden held
  have untouched := here.untouched
  have only : ∀ address other, (heap.shapeAt address).look other =
      some (.object (.plain child)) → address = proxy.target ∧ other = key := by
    intro address other found
    rcases related.slots address other _ id found with visible | unread
    · exact absurd isHidden visible.2
    · exact mirrors.forest.unique address proxy.target other key child
        unread.parent here.parent unread.held here.held
  have grows : Grows hidden hidden heap (heap.addProxy (heap.proxyFor child)) := grows_addProxy
  obtain ⟨added, slots⟩ := related.addProxy isHidden untouched
    fun address other found => (only address other found).1
  have foundAfter : (heap.addProxy (heap.proxyFor child)).proxies[index]? = some proxy := by
    have bound := (List.getElem?_eq_some_iff.mp stands.found).1
    rw [Heap.addProxy, List.getElem?_append_left bound]
    exact stands.found
  apply added.putProxy slots foundAfter same kind kept
  · intro other value found
    rw [shape] at found
    simp only at found
    split at found
    · cases found
      exact .inl (by simp [Visible, Heap.addProxy])
    next elsewhere =>
      rw [← stands.shape] at found
      rcases related.slots _ other value id found with visible | unread
      · exact .inl (grows.visible visible)
      · obtain ⟨inner, isInner, innerHidden, innerFree⟩ := unread.child
        refine .inr ⟨unread.parent, ⟨inner, isInner, innerHidden, ?_⟩, unread.held⟩
        rw [targets_addProxy, target_proxyFor, List.mem_append]
        rintro (old | new)
        · exact innerFree old
        · obtain rfl := List.mem_singleton.mp new
          subst isInner
          exact elsewhere (only _ other found).2.symm
  · intro address isHolder
    exact isHolder
  · rfl
  · intro address
    rw [shape]
    split
    next isTarget =>
      subst address
      rw [mirrors.shapes, stands.shape]
      apply Shape.ext
      · rfl
      · funext other
        simp only [Shape.map]
        split
        next isKey =>
          subst other
          rw [held]
          simp only [Option.map_some, JsValue.unwrap]
          rw [targetOf_added, target_proxyFor]
        · cases found : (heap.proxyShape proxy).look other with
          | none => rfl
          | some value =>
            apply congrArg some
            rw [← stands.shape] at found
            rcases related.slots _ other value id found with
              visible | unread
            · exact (grows.unwrap visible).symm
            · obtain ⟨inner, isInner, _⟩ := unread.child
              rw [isInner]
              rfl
    · rfl

end Change

section Read

variable {hidden : Nat → Prop} {heap copy : Heap} {index : Nat}
  {key : String} (toLength : JsValue → Option Nat)

/-- A read of `constructor` is the same when it is no own property. -/
def readsAsCopy (heap : Heap) (key : String) : ObjectRef → Bool
  | .plain _ => key ≠ "__proto__"
  | .proxy index => key ≠ "__proto__" &&
      !(key = "constructor" && (heap.keys (.proxy index)).contains key)

structure ReadsCopy (hidden : Nat → Prop) (heap copy : Heap) (address : Nat)
    (key : String) (read : Heap × JsValue) : Prop where
  related : Related hidden read.1 copy
  grows : Grows hidden hidden heap read.1
  visible : Visible hidden read.1 read.2
  same : read.2.unwrap read.1.targetOf = ((heap.shapeAt address).get key).unwrap heap.targetOf

variable {address : Nat}

theorem ReadsCopy.unchanged (related : Related hidden heap copy)
    {value : JsValue} (visible : Visible hidden heap value)
    (same : value = (heap.shapeAt address).get key) :
    ReadsCopy hidden heap copy address key (heap, value) :=
  ⟨related, Grows.refl hidden heap, visible, by rw [same]⟩

theorem visible_of_not_object {value : JsValue}
    (plain : value.isObject = false) : Visible hidden heap value := by
  cases value with
  | object ref => cases plain
  | _ => exact True.intro

theorem ReadsCopy.wrap {proxy changed : AugmentedProxy} {child : Nat}
    (related : Related hidden heap copy)
    (stands : Stands hidden heap index proxy) (isHidden : hidden child)
    (held : (heap.proxyShape proxy).own key = some (.object (.plain child)))
    (same : changed.target = proxy.target) (kind : changed.isArray = proxy.isArray)
    (kept : WellKept hidden (heap.addProxy (heap.proxyFor child)) changed)
    (shape : (heap.addProxy (heap.proxyFor child)).proxyShape changed =
      { length := (heap.proxyShape proxy).length
        look := fun other =>
          if key = other then some (.object (.proxy heap.proxies.length))
          else (heap.proxyShape proxy).look other }) :
    ReadsCopy hidden heap copy proxy.target key
      ((heap.addProxy (heap.proxyFor child)).putProxy index changed,
        .object (.proxy heap.proxies.length)) := by
  have grows : Grows hidden hidden heap (heap.addProxy (heap.proxyFor child)) := grows_addProxy
  have found : (heap.addProxy (heap.proxyFor child)).proxies[index]? = some proxy := by
    have bound := (List.getElem?_eq_some_iff.mp stands.found).1
    rw [Heap.addProxy, List.getElem?_append_left bound]
    exact stands.found
  have look := (Shape.own_object held).1
  constructor
  · exact related.wrap stands isHidden look same kind kept shape
  · exact grows.trans (grows_putProxy found same)
  · simp [Visible, Heap.addProxy, Heap.putProxy]
  · have read : (heap.shapeAt proxy.target).get key = .object (.plain child) := by
      rw [stands.shape, Shape.get, held]
      rfl
    rw [read, targetOf_putProxy found same, JsValue.unwrap, targetOf_added, target_proxyFor]
    rfl

theorem readsCopy_plain (related : Related hidden heap copy)
    (seen : Visible hidden heap (.object (.plain address))) :
    ReadsCopy hidden heap copy address key (heap.get toLength key (.plain address)) := by
  obtain ⟨bound, exposed, shape⟩ := exposed_of_visible related seen
  apply ReadsCopy.unchanged related
  · cases value : (heap.objectAt address).get key with
    | object ref =>
      have held := (Shape.own_object (Shape.look_of_get value)).1
      rw [← shape] at held
      rcases related.slots address key _ id held with visible | unread
      · exact visible
      · exact absurd unread.parent exposed
    | _ => exact True.intro
  · rw [shape]
    rfl

variable {target : Nat}

theorem readsCopy_object (related : Related hidden heap copy)
    {newData : OrderedMap String JsValue} {deletedProperties : List String}
    (stands : Stands hidden heap index (.object target newData deletedProperties))
    (notProto : key ≠ "__proto__")
    (noConstructor : key = "constructor" → (heap.shapeAt target).look key = none) :
    ReadsCopy hidden heap copy target key
      (heap.getObject index target newData deletedProperties key) := by
  have shape := stands.shape
  simp only [AugmentedProxy.target] at shape
  have noArray : (heap.proxyShape (.object target newData deletedProperties)).isArray = false := rfl
  rw [getObject]
  by_cases isConstructor : key = "constructor"
  · rw [if_pos isConstructor]
    have absent := noConstructor isConstructor
    apply ReadsCopy.unchanged related (visible_of_not_object rfl)
    rw [shape] at absent ⊢
    have own : (heap.proxyShape (.object target newData deletedProperties)).own key = none := absent
    rw [Shape.get, own, noArray, isConstructor]
    rfl
  · rw [if_neg isConstructor]
    by_cases deleted : key ∈ deletedProperties
    · rw [if_pos deleted]
      apply ReadsCopy.unchanged related (visible_of_not_object rfl)
      rw [shape, Shape.get, own_object, if_pos deleted, noArray, stands.kept.2 key deleted]
      rfl
    · rw [if_neg deleted]
      cases written : newData.get? key with
      | some value =>
        apply ReadsCopy.unchanged related (stands.kept.1 key value written)
        rw [shape, Shape.get, own_object, if_neg deleted, written]
        rfl
      | none =>
        have isRead : (heap.objectAt target).get key = (heap.shapeAt target).get key := by
          have inheritsSame : (heap.objectAt target).shape.isArray =
              false := by
            rw [Shape.isArray, PlainObject.shape, length_target stands]
            rfl
          rw [shape, PlainObject.get, Shape.get, Shape.get,
            own_target stands, own_object, if_neg deleted, written,
            inheritsSame, noArray]
          rfl
        cases value : (heap.objectAt target).get key with
        | object ref =>
          have held : (heap.objectAt target).properties.get? key = some (.object ref) :=
            (Shape.own_object (Shape.look_of_get value)).1
          obtain ⟨child, rfl, isHidden⟩ := related.mirrors.forest.inner
            target key ref stands.isHidden held
          have changes : JsValue.object (.proxy heap.proxies.length) ≠
              .object (.plain child) := by simp
          simp only [augment, ne_eq, changes, not_false_eq_true, if_true,
            assignTo, notProto, if_false]
          have look : (heap.proxyShape (.object target newData deletedProperties)).own key =
                some (.object (.plain child)) := by
            rw [own_object, if_neg deleted, written]
            exact held
          have grows : Grows hidden hidden heap
              (heap.addProxy (heap.proxyFor child)) := grows_addProxy
          apply ReadsCopy.wrap related stands isHidden look
          · rfl
          · rfl
          · constructor
            · intro other otherValue otherFound
              rw [get?_set] at otherFound
              split at otherFound
              · cases otherFound
                simp [Visible, Heap.addProxy]
              · exact grows.visible (stands.kept.1 other otherValue otherFound)
            · exact stands.kept.2
          · apply Shape.ext
            · rfl
            · funext other
              simp only [proxyShape, get?_set]
              by_cases isKey : key = other
              · subst other
                simp [deleted]
              · simp only [isKey, if_false]
                rfl
        | _ =>
          have same := isRead.symm.trans value
          simp only [augment, ne_eq, not_true_eq_false, if_false]
          exact ReadsCopy.unchanged related True.intro same.symm

variable {newData : Option PlainObject}

theorem shape_getData (related : Related hidden heap copy)
    (stands : Stands hidden heap index (.array target newData)) :
    (heap.getData target newData).shape = heap.proxyShape (.array target newData) := by
  cases newData with
  | some data => rfl
  | none =>
    apply related.mirrors.forest.dense target stands.isHidden
    exact stands.kind.symm

theorem hidden_of_array (related : Related hidden heap copy)
    (stands : Stands hidden heap index (.array target newData))
    (held : (heap.proxyShape (.array target newData)).look key =
      some (.object (.plain address))) : hidden address := by
  cases newData with
  | some data => exact (stands.kept data rfl).2 key address held
  | none =>
    obtain ⟨child, same, isHidden⟩ := related.mirrors.forest.inner target key _ stands.isHidden held
    cases same
    exact isHidden

theorem wellKept_array {data : PlainObject} (isArray : data.shape.isArray = true)
    (children : ∀ key address, data.shape.look key =
      some (.object (.plain address)) → hidden address) :
    WellKept hidden heap (.array target (some data)) := by
  rintro other ⟨⟩
  exact ⟨isArray, children⟩

theorem readsCopy_array (related : Related hidden heap copy)
    (stands : Stands hidden heap index (.array target newData))
    (noConstructor : key = "constructor" → (heap.shapeAt target).look key = none) :
    ReadsCopy hidden heap copy target key (heap.getArray toLength index target newData key) := by
  have shape := stands.shape
  simp only [AugmentedProxy.target] at shape
  have isArray := isArray_proxyShape stands
  rw [getArray]
  by_cases isConstructor : key = "constructor"
  · rw [if_pos isConstructor]
    have absent := noConstructor isConstructor
    apply ReadsCopy.unchanged related (visible_of_not_object rfl)
    rw [shape] at absent ⊢
    have own : (heap.proxyShape (.array target newData)).own key = none := by
      rw [Shape.own, isConstructor]
      rw [isConstructor] at absent
      split
      · exact absent
      · exact absent
    rw [Shape.get, own, isArray, isConstructor]
    rfl
  · rw [if_neg isConstructor]
    have isRead : (newData.getD (heap.objectAt target)).get key =
        (heap.shapeAt target).get key := by
      rw [shape]
      rfl
    cases value : (newData.getD (heap.objectAt target)).get key with
    | object ref =>
      have own : (heap.proxyShape (.array target newData)).own key =
          some (.object ref) := Shape.look_of_get value
      obtain ⟨look, notLength⟩ := Shape.own_object own
      cases ref with
      | proxy other =>
        have same := isRead.symm.trans value
        simp only [augment, ne_eq, not_true_eq_false, if_false]
        rw [← shape] at look
        rcases related.slots target key _ id look with visible | unread
        · exact ReadsCopy.unchanged related visible same.symm
        · obtain ⟨_, isChild, _⟩ := unread.child
          cases isChild
      | plain child =>
        have isHidden := hidden_of_array related stands look
        have data := shape_getData related stands
        have written := shape_set toLength (heap.getData target newData) key
          (.object (.proxy heap.proxies.length))
        rw [data] at written
        apply ReadsCopy.wrap related stands isHidden own
        · rfl
        · rfl
        · apply wellKept_array
          · rw [written, length_isSome_set, isArray]
            rfl
          · intro other address held
            rw [written] at held
            rcases look_set held with new | old
            · cases new
            · exact hidden_of_array related stands old
        · have replaced := set_present toLength (.object (.proxy heap.proxies.length))
            (Option.isSome_of_eq_some look) notLength
          change ((heap.getData target newData).set toLength key
            (.object (.proxy heap.proxies.length))).1.shape = _
          rw [written, replaced]
    | _ =>
      have same := isRead.symm.trans value
      simp only [augment, ne_eq, not_true_eq_false, if_false]
      exact ReadsCopy.unchanged related True.intro same.symm

theorem get_readsCopy (related : Related hidden heap copy) {ref : ObjectRef}
    (seen : Visible hidden heap (.object ref))
    (ordinary : heap.readsAsCopy key ref = true) :
    ReadsCopy hidden heap copy (heap.addressOf ref) key (heap.get toLength key ref) := by
  cases ref with
  | plain address => exact readsCopy_plain toLength related seen
  | proxy index =>
    obtain ⟨proxy, stands⟩ := stands_of_visible related seen
    obtain ⟨notProto, noConstructor⟩ := by
      simpa [readsAsCopy] using ordinary
    have absent : key = "constructor" → (heap.shapeAt proxy.target).look key = none := by
      intro isConstructor
      have notKey := noConstructor.resolve_left (not_not_intro isConstructor)
      rw [mem_keys_iff related seen, stands.address] at notKey
      simpa using notKey
    rw [stands.address, get, stands.found]
    cases proxy with
    | object target newData deletedProperties =>
      exact readsCopy_object related stands notProto absent
    | array target newData =>
      exact readsCopy_array toLength related stands absent

theorem get_copy (related : Related hidden heap copy) (address : Nat) (key : String) :
    copy.get toLength key (.plain address) =
      (copy, ((heap.shapeAt address).get key).unwrap heap.targetOf) := by
  rw [get, PlainObject.get, shape_of_copy related, get_map]

end Read

section Write

variable {hidden : Nat → Prop} {heap copy : Heap} {index : Nat}
  {key : String} (toLength : JsValue → Option Nat)

/-- The heap and the copy change alike. -/
structure ChangesCopy (hidden : Nat → Prop) (heap : Heap)
    (changed copied : Heap × Bool) : Prop where
  related : Related hidden changed.1 copied.1
  grows : Grows hidden hidden heap changed.1
  same : changed.2 = copied.2

variable {newData : Option PlainObject} {target : Nat}

theorem Related.storeArray (related : Related hidden heap copy)
    (stands : Stands hidden heap index (.array target newData))
    {data object : PlainObject} (isArray : data.shape.isArray = true)
    (values : ∀ other value, data.shape.look other = some value →
      (Visible hidden heap value ∧ ∀ address, value ≠ .object (.plain address)) ∨
        (heap.proxyShape (.array target newData)).look other = some value)
    (shape : object.shape = data.shape.map (JsValue.unwrap heap.targetOf)) :
    Related hidden (heap.putProxy index (.array target (some data)))
      (copy.putObject target object) := by
  apply related.store stands
  · rfl
  · rfl
  · apply wellKept_array isArray
    intro other address held
    rcases values other _ held with new | old
    · exact absurd rfl (new.2 address)
    · exact hidden_of_array related stands old
  · intro other value held
    rcases values other value held with new | old
    · exact .inl new.1
    · exact .inr old
  · exact shape

variable {address : Nat}

theorem Related.storePlain (related : Related hidden heap copy)
    (seen : Visible hidden heap (.object (.plain address)))
    {object copied : PlainObject}
    (values : ∀ other value, object.shape.look other = some value →
      Visible hidden heap value ∨ (heap.objectAt address).shape.look other = some value)
    (shape : copied.shape = object.shape.map (JsValue.unwrap heap.targetOf)) :
    Related hidden (heap.putObject address object) (copy.putObject address copied) := by
  obtain ⟨bound, exposed, behind⟩ := exposed_of_visible related seen
  apply related.putObject bound exposed
  · intro other value held
    rcases values other value held with new | old
    · exact new
    · rw [← behind] at old
      rcases related.slots address other value id old with visible | unread
      · exact visible
      · exact absurd unread.parent exposed
  · exact shape

variable {value : JsValue}

theorem set_plain (related : Related hidden heap copy)
    (seen : Visible hidden heap (.object (.plain address)))
    (visible : Visible hidden heap value)
    (convertible : heap.isArray (.plain address) = true → key = "length" → value.isObject = false) :
    ChangesCopy hidden heap (heap.set toLength key value (.plain address))
      (copy.set toLength key (value.unwrap heap.targetOf) (.plain address)) := by
  have exposed := exposed_of_visible related seen
  have behind := shape_of_copy related address
  rw [exposed.shape] at behind
  obtain ⟨copied, succeeds⟩ := set_copied toLength behind convertible
  have related' : Related hidden (heap.putObject address
        ((heap.objectAt address).set toLength key value).1)
      (copy.putObject address ((copy.objectAt address).set toLength key
        (value.unwrap heap.targetOf)).1) := by
    apply related.storePlain seen
    · intro other held found
      rw [shape_set] at found
      rcases look_set found with new | old
      · subst new
        exact .inl visible
      · exact .inr old
    · rw [copied, shape_set]
  exact ⟨related', grows_putObject exposed.bound exposed.exposed,
    (set_succeeds ..).trans succeeds.symm⟩

theorem set_object (related : Related hidden heap copy)
    {newData : OrderedMap String JsValue} {deletedProperties : List String}
    (stands : Stands hidden heap index (.object target newData deletedProperties))
    (visible : Visible hidden heap value) (defined : value ≠ .undefined)
    (notProto : key ≠ "__proto__") :
    ChangesCopy hidden heap (heap.setObject index target newData deletedProperties key value)
      (copy.set toLength key (value.unwrap heap.targetOf) (.plain target)) := by
  have behind := shape_of_copy related target
  have shape := stands.shape
  simp only [AugmentedProxy.target] at shape
  rw [shape] at behind
  have noArray : (heap.proxyShape (.object target newData
      deletedProperties)).isArray = true → key = "length" →
        value.isObject = false := fun isArray => absurd isArray (by
          simp [Shape.isArray, proxyShape])
  obtain ⟨copied, succeeds⟩ := set_copied toLength behind noArray
  have changedShape : heap.proxyShape (.object target (newData.set key value)
      (deletedProperties.filter (· ≠ key))) = ((heap.proxyShape (.object target newData
          deletedProperties)).set toLength key value).1 := by
    apply Shape.ext
    · rfl
    · funext other
      simp only [proxyShape, Shape.set, get?_set, List.mem_filter, decide_eq_true_eq]
      by_cases isKey : key = other
      · subst other
        simp
      · simp [isKey, Ne.symm isKey]
  have changes : heap.setObject index target newData deletedProperties key
      value = (heap.putProxy index (.object target (newData.set key value)
        (deletedProperties.filter (· ≠ key))), true) := by
    rw [setObject, if_neg defined, assignTo, if_neg notProto]
  rw [changes]
  constructor
  · apply related.store stands
    · rfl
    · rfl
    · constructor
      · intro other otherValue found
        rw [get?_set] at found
        split at found
        · cases found
          exact visible
        · exact stands.kept.1 other otherValue found
      · intro other mem
        exact stands.kept.2 other (List.mem_of_mem_filter mem)
    · intro other otherValue held
      rw [changedShape] at held
      rcases look_set held with new | old
      · subst new
        exact .inl visible
      · exact .inr old
    · rw [changedShape]
      exact copied
  · exact grows_putProxy stands.found rfl
  · exact succeeds.symm

theorem set_array (related : Related hidden heap copy)
    (stands : Stands hidden heap index (.array target newData)) (visible : Visible hidden heap value)
    (proxied : ∀ address, value ≠ .object (.plain address))
    (convertible : key = "length" → value.isObject = false) :
    ChangesCopy hidden heap (heap.putProxy index (.array target
          (some ((heap.getData target newData).set toLength key value).1)),
        ((heap.getData target newData).set toLength key value).2)
      (copy.set toLength key (value.unwrap heap.targetOf) (.plain target)) := by
  have behind := shape_of_copy related target
  have shape := stands.shape
  simp only [AugmentedProxy.target] at shape
  have data := shape_getData related stands
  have isArray := isArray_proxyShape stands
  rw [shape] at behind
  obtain ⟨copied, succeeds⟩ := set_copied toLength behind fun _ => convertible
  constructor
  · apply related.storeArray stands
    · rw [shape_set, length_isSome_set, data, isArray]
      rfl
    · intro other otherValue held
      rw [shape_set, data] at held
      rcases look_set held with new | old
      · subst new
        exact .inl ⟨visible, proxied⟩
      · exact .inr old
    · rw [shape_set, data]
      exact copied
  · exact grows_putProxy stands.found rfl
  · rw [set_succeeds, data]
    exact succeeds.symm

/-- Whether a write is one of the copy: it is of a defined value, which is no
object when it becomes the length of an array, and an object that is not behind
a proxy goes into no array that is. -/
def writesAsCopy (heap : Heap) (key : String) (value : JsValue) (ref : ObjectRef) : Bool :=
  key ≠ "__proto__" && value ≠ .undefined &&
    !(heap.isArray ref && key = "length" && value.isObject) &&
      match ref, value with
      | .proxy index, .object (.plain _) => !heap.isArray (.proxy index)
      | _, _ => true

theorem augment_of_not_plain (noPlain : ∀ address, value ≠ .object (.plain address)) :
    heap.augment value = (heap, value) := by
  cases value with
  | object other =>
    cases other with
    | plain address => exact absurd rfl (noPlain address)
    | proxy other => rfl
  | _ => rfl

theorem set_of_isArray (related : Related hidden heap copy)
    (seen : Visible hidden heap (.object (.proxy index)))
    (isArrayProxy : heap.isArray (.proxy index) = true) (key : String)
    (value : JsValue) :
    ∃ target newData, Stands hidden heap index (.array target newData) ∧
      heap.targetOf index = target ∧ heap.set toLength key value (.proxy index) =
        heap.setArray toLength index target newData key value := by
  obtain ⟨proxy, stands⟩ := stands_of_visible related seen
  rw [isArray, stands.found] at isArrayProxy
  cases proxy with
  | object target newData deletedProperties => cases isArrayProxy
  | array target newData =>
    exact ⟨target, newData, stands, stands.address, by rw [set, stands.found]⟩

theorem set_changesArray (related : Related hidden heap copy)
    (seen : Visible hidden heap (.object (.proxy index)))
    (isArrayProxy : heap.isArray (.proxy index) = true)
    (visible : Visible hidden heap value)
    (noPlain : ∀ address, value ≠ .object (.plain address))
    (convertible : key = "length" → value.isObject = false) :
    ChangesCopy hidden heap (heap.set toLength key value (.proxy index))
      (copy.set toLength key (value.unwrap heap.targetOf) (.plain (heap.targetOf index))) := by
  obtain ⟨target, newData, stands, address, trap⟩ :=
    set_of_isArray toLength related seen isArrayProxy key value
  rw [address, trap, setArray, augment_of_not_plain noPlain]
  exact set_array toLength related stands visible noPlain convertible

theorem set_changesCopy (related : Related hidden heap copy) {ref : ObjectRef}
    (seen : Visible hidden heap (.object ref))
    (visible : Visible hidden heap value)
    (ordinary : heap.writesAsCopy key value ref = true) :
    ChangesCopy hidden heap (heap.set toLength key value ref)
      (copy.set toLength key (value.unwrap heap.targetOf) (.plain (heap.addressOf ref))) := by
  simp only [writesAsCopy, Bool.and_eq_true, decide_eq_true_eq, Bool.not_eq_true'] at ordinary
  obtain ⟨⟨⟨notProto, defined⟩, convertible⟩, proxied⟩ := ordinary
  have noLength : heap.isArray ref = true → key = "length" → value.isObject = false := by
    intro isArray isLength
    simpa [isArray, isLength] using convertible
  cases ref with
  | plain address => exact set_plain toLength related seen visible noLength
  | proxy index =>
    obtain ⟨proxy, stands⟩ := stands_of_visible related seen
    rw [stands.address]
    have kind : heap.isArray (.proxy index) = proxy.isArray := by
      rw [isArray, stands.found]
    cases proxy with
    | object target newData deletedProperties =>
      have trap : heap.set toLength key value (.proxy index) =
          heap.setObject index target newData deletedProperties key
            value := by
        rw [set, stands.found]
      rw [trap]
      exact set_object toLength related stands visible defined notProto
    | array target newData =>
      have isArrayProxy : heap.isArray (.proxy index) = true := kind
      have noPlain : ∀ address, value ≠ .object (.plain address) := by
        intro address isPlain
        subst value
        simp only [kind] at proxied
        cases proxied
      rw [← stands.address]
      exact set_changesArray toLength related seen isArrayProxy visible
        noPlain (noLength isArrayProxy)

section Literal

variable {cells : List PlainObject} {root : Nat}

theorem root_of_loads (related : Related hidden heap copy)
    (loads : Loads heap.plain.length cells [.object (.plain root)]) :
    hiddenAfter hidden heap.plain.length cells.length True root ∧ root ∉ (heap.grow cells).targets ∧
      ∀ address other, ((heap.grow cells).shapeAt address).look other ≠
        some (.object (.plain root)) := by
  have mirrors := related.mirrors
  have isRoot : root ∈ rootsOf [.object (.plain root)] := by
    simp [rootsOf, JsValue.address?]
  obtain ⟨low, high⟩ := loads.grove.bound root isRoot
  have offset : root = heap.plain.length + (root - heap.plain.length) := by
    omega
  refine ⟨.inr ⟨True.intro, low, high⟩, ?_, ?_⟩
  · rw [offset]
    exact not_targeted_of_new mirrors _
  · intro address other held
    rcases old_or_new heap address with bound | ⟨place, rfl⟩
    · rw [shapeAt_grow_old mirrors bound] at held
      exact absurd (related.old_value held) (Nat.not_lt_of_le low)
    · rw [shapeAt_grow_new mirrors] at held
      obtain ⟨cell, found, inCell⟩ := cell_of_look held
      exact loads.grove.free root isRoot place cell other found inCell

theorem Related.addLiteral (related : Related hidden heap copy)
    (loads : Loads heap.plain.length cells [.object (.plain root)]) :
    Related (hiddenAfter hidden heap.plain.length cells.length True)
      ((heap.grow cells).addProxy ((heap.grow cells).proxyFor root))
      (copy.grow cells) := by
  obtain ⟨isHidden, untouched, nowhere⟩ := root_of_loads related loads
  have grown := related.grow loads True
  have only : ∀ address other, ((heap.grow cells).shapeAt address).look other =
        some (.object (.plain root)) → (fun _ : Nat => False) address :=
    fun address other held => nowhere address other held
  obtain ⟨mirrors, slots⟩ := grown.addProxy isHidden untouched only
  exact ⟨mirrors, slots⟩

theorem isArray_addProxy (seen : index < heap.proxies.length) (proxy : AugmentedProxy) :
    (heap.addProxy proxy).isArray (.proxy index) = heap.isArray (.proxy index) := by
  rw [isArray, isArray, Heap.addProxy, List.getElem?_append_left seen]

theorem set_raw (isArrayProxy : heap.isArray (.proxy index) = true) :
    heap.set toLength key (.object (.plain root)) (.proxy index) =
      (heap.addProxy (heap.proxyFor root)).set toLength key
        (.object (.proxy heap.proxies.length)) (.proxy index) := by
  rw [isArray] at isArrayProxy
  cases found : heap.proxies[index]? with
  | none =>
    rw [found] at isArrayProxy
    cases isArrayProxy
  | some proxy =>
    rw [found] at isArrayProxy
    have bound := (List.getElem?_eq_some_iff.mp found).1
    have foundAfter : (heap.addProxy (heap.proxyFor root)).proxies[index]? = some proxy := by
      rw [Heap.addProxy, List.getElem?_append_left bound]
      exact found
    cases proxy with
    | object target newData deletedProperties => cases isArrayProxy
    | array target newData =>
      rw [set, found, set, foundAfter]
      rfl

theorem set_literal (related : Related hidden heap copy)
    (seen : Visible hidden heap (.object (.proxy index)))
    (isArrayProxy : heap.isArray (.proxy index) = true)
    (loads : Loads heap.plain.length cells [.object (.plain root)])
    (notLength : key ≠ "length") :
    Related (hiddenAfter hidden heap.plain.length cells.length True)
        ((heap.grow cells).set toLength key (.object (.plain root)) (.proxy index)).1
        ((copy.grow cells).set toLength key (.object (.plain root))
          (.plain (heap.targetOf index))).1 ∧
      Grows hidden (hiddenAfter hidden heap.plain.length cells.length True) heap
        ((heap.grow cells).set toLength key (.object (.plain root)) (.proxy index)).1 ∧
      ((heap.grow cells).set toLength key (.object (.plain root)) (.proxy index)).2 =
        ((copy.grow cells).set toLength key (.object (.plain root))
          (.plain (heap.targetOf index))).2 := by
  have added := related.addLiteral loads
  have grows : Grows hidden _ heap (heap.grow cells) := grows_grow related.mirrors True
  have growsAgain : Grows hidden _ heap ((heap.grow cells).addProxy
      ((heap.grow cells).proxyFor root)) := grows.trans grows_addProxy
  have isArrayAfter := (@isArray_addProxy (heap.grow cells) index seen
    ((heap.grow cells).proxyFor root)).trans isArrayProxy
  have visible : Visible (hiddenAfter hidden heap.plain.length
      cells.length True) ((heap.grow cells).addProxy ((heap.grow cells).proxyFor root))
      (.object (.proxy heap.proxies.length)) := by
    simp [Visible, Heap.addProxy, Heap.grow]
  have changes := set_changesArray toLength added (growsAgain.visible seen)
    isArrayAfter visible (fun address => by simp)
    fun isLength => absurd isLength notLength
  have unwrapped : (JsValue.object (.proxy heap.proxies.length)).unwrap
      ((heap.grow cells).addProxy ((heap.grow cells).proxyFor root)).targetOf =
          .object (.plain root) := by
    have target := targetOf_added (heap.grow cells) ((heap.grow cells).proxyFor root)
    rw [target_proxyFor] at target
    exact congrArg (JsValue.object ∘ ObjectRef.plain) target
  have stays : (heap.grow cells).set toLength key (.object (.plain root))
      (.proxy index) = _ := set_raw toLength isArrayProxy
  rw [unwrapped, growsAgain.targets index seen] at changes
  rw [stays]
  exact ⟨changes.related, growsAgain.trans changes.grows, changes.same⟩

end Literal

end Write

section Delete

variable {hidden : Nat → Prop} {heap copy : Heap} {index : Nat} {key : String}

/-- Whether a deletion is one of the copy: what is deleted from an object behind
a proxy would not be inherited afterwards. -/
def deletesAsCopy (heap : Heap) (key : String) (ref : ObjectRef) : Bool :=
  key ≠ "__proto__" &&
    match ref with
    | .proxy index =>
      heap.isArray (.proxy index) || (inherited false key).isNone
    | .plain _ => true

theorem delete_plain (related : Related hidden heap copy) {address : Nat}
    (seen : Visible hidden heap (.object (.plain address))) :
    ChangesCopy hidden heap (heap.deleteProperty key (.plain address))
      (copy.deleteProperty key (.plain address)) := by
  have exposed := exposed_of_visible related seen
  have behind := shape_of_copy related address
  rw [exposed.shape] at behind
  obtain ⟨copied, succeeds⟩ := delete_copied key behind
  have stored : Related hidden (heap.putObject address ((heap.objectAt address).delete key).1)
      (copy.putObject address ((copy.objectAt address).delete key).1) := by
    apply related.storePlain seen
    · intro other held found
      rw [shape_delete] at found
      exact .inr (look_delete found)
    · rw [copied, shape_delete]
  exact ⟨stored, grows_putObject exposed.bound exposed.exposed,
    (delete_succeeds _ key).trans succeeds.symm⟩

theorem delete_object (related : Related hidden heap copy) {target : Nat}
    {newData : OrderedMap String JsValue} {deletedProperties : List String}
    (stands : Stands hidden heap index (.object target newData deletedProperties))
    (notInherited : inherited false key = none) :
    ChangesCopy hidden heap (heap.deletePropertyObject index target newData deletedProperties key)
      (copy.deleteProperty key (.plain target)) := by
  have behind := shape_of_copy related target
  have shape := stands.shape
  simp only [AugmentedProxy.target] at shape
  rw [shape] at behind
  obtain ⟨copied, succeeds⟩ := delete_copied key behind
  have ownKey : (heap.objectAt target).hasOwn key =
      ((heap.objectAt target).properties.get? key).isSome := by
    rw [PlainObject.hasOwn, Shape.hasOwn, own_target stands]
  have changedShape : heap.proxyShape (.object target (newData.delete key)
      (if (heap.objectAt target).hasOwn key then key :: deletedProperties
        else deletedProperties)) =
        ((heap.proxyShape (.object target newData deletedProperties)).delete key).1 := by
    apply Shape.ext
    · rfl
    · funext other
      change _ = if key = other then none else _
      simp only [proxyShape, get?_delete, ownKey]
      by_cases isKey : key = other
      · subst other
        cases (heap.objectAt target).properties.get? key <;> simp
      · cases (heap.objectAt target).properties.get? key <;> simp [isKey, Ne.symm isKey]
  constructor
  · apply related.store stands
    · rfl
    · rfl
    · constructor
      · intro other otherValue found
        rw [get?_delete] at found
        split at found
        · cases found
        · exact stands.kept.1 other otherValue found
      · intro other mem
        split at mem
        · rcases List.mem_cons.mp mem with same | old
          · rw [same]
            exact notInherited
          · exact stands.kept.2 other old
        · exact stands.kept.2 other mem
    · intro other otherValue held
      rw [changedShape] at held
      exact .inr (look_delete held)
    · rw [changedShape]
      exact copied
  · exact grows_putProxy stands.found rfl
  · exact succeeds.symm

theorem delete_array (related : Related hidden heap copy) {target : Nat}
    {newData : Option PlainObject}
    (stands : Stands hidden heap index (.array target newData)) :
    ChangesCopy hidden heap (heap.deletePropertyArray index target newData key)
      (copy.deleteProperty key (.plain target)) := by
  have behind := shape_of_copy related target
  have shape := stands.shape
  simp only [AugmentedProxy.target] at shape
  have data := shape_getData related stands
  have isArray := isArray_proxyShape stands
  rw [shape] at behind
  obtain ⟨copied, succeeds⟩ := delete_copied key behind
  have stored : Related hidden (heap.putProxy index (.array target
        (some ((heap.getData target newData).delete key).1)))
      (copy.putObject target ((copy.objectAt target).delete key).1) := by
    apply related.storeArray stands
    · rw [shape_delete, length_isSome_delete, data, isArray]
      rfl
    · intro other otherValue held
      rw [shape_delete, data] at held
      exact .inr (look_delete held)
    · rw [copied, shape_delete, data]
  have deleted : ((heap.getData target newData).delete key).2 =
      ((copy.objectAt target).delete key).2 := by
    rw [delete_succeeds, data]
    exact succeeds.symm
  exact ⟨stored, grows_putProxy stands.found rfl, deleted⟩

theorem delete_changesCopy (related : Related hidden heap copy)
    {ref : ObjectRef} (seen : Visible hidden heap (.object ref))
    (ordinary : heap.deletesAsCopy key ref = true) :
    ChangesCopy hidden heap (heap.deleteProperty key ref)
      (copy.deleteProperty key (.plain (heap.addressOf ref))) := by
  cases ref with
  | plain address => exact delete_plain related seen
  | proxy index =>
    obtain ⟨proxy, stands⟩ := stands_of_visible related seen
    rw [stands.address]
    have kind : heap.isArray (.proxy index) = proxy.isArray := by
      rw [isArray, stands.found]
    simp only [deletesAsCopy, kind, Bool.and_eq_true, Bool.or_eq_true] at ordinary
    cases proxy with
    | object target newData deletedProperties =>
      have trap : heap.deleteProperty key (.proxy index) =
          heap.deletePropertyObject index target newData deletedProperties key := by
        rw [deleteProperty, stands.found]
      have notInherited : inherited false key = none := by
        simpa [AugmentedProxy.isArray] using ordinary.2
      rw [trap]
      exact delete_object related stands notInherited
    | array target newData =>
      have trap : heap.deleteProperty key (.proxy index) =
          heap.deletePropertyArray index target newData key := by
        rw [deleteProperty, stands.found]
      rw [trap]
      exact delete_array related stands

end Delete

end Heap

end N8n
