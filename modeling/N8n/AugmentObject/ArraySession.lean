import N8n.AugmentObject.ArrayMethods
import N8n.AugmentObject.KeyOrder
import N8n.AugmentObject.ObjectSession

/-!
# Sessions with an augmented array

Each elementary operation on an augmented array is the same operation on a
copy, as long as the trap for property descriptors is not asked about what it
answers from the array that was left behind.  So the methods, which are made of
elementary operations, give the answers of a copy as well.
-/

namespace N8n

open Heap PlainObject

namespace ObjectSession

/-- Whether a step on the proxy of an array is one on a copy.  An object that
the caller holds on to is not written.  Once there is a copy, only its own
properties are asked for, and the descriptor only of those that are as they are
in the array.  No descriptor gives a nested object away. -/
def actsOnProxy (session : ObjectSession) (target : Nat)
    (newData : Option PlainObject) : ArrayStep → Bool
  | .write _ (.read handle) => (session.handle handle).address?.isNone
  | .hasOwn key => newData.all (·.hasOwn key)
  | .descriptor key =>
    let original := (session.heap.objectAt target).shape.own key
    match newData with
    | none => original.all (!·.isObject)
    | some data => key = "length" || (data.shape.own key = original && original.any (!·.isObject))
  | _ => true

def actsOnArray (session : ObjectSession) : SessionStep → Bool
  | .onArray array step => session.onObject array fun ref =>
    match ref with
    | .plain _ => true
    | .proxy index =>
      match session.heap.proxies[index]? with
      | some (.array target newData) =>
        session.actsOnProxy target newData step
      | _ => true
  | .create _ => true
  | .field object key => session.onObject object (session.heap.readsAsCopy key)

end ObjectSession

theorem PlainObject.getOwnPropertyDescriptor_copied {object copied : PlainObject}
    {targetOf : Nat → Nat}
    (same : copied.shape = object.shape.map (JsValue.unwrap targetOf))
    (key : String) : copied.getOwnPropertyDescriptor key = (object.getOwnPropertyDescriptor key).map
        (PropertyDescriptor.map (JsValue.unwrap targetOf)) := by
  rw [getOwnPropertyDescriptor, getOwnPropertyDescriptor, same,
    Shape.own_map, Option.map_map, Option.map_map]
  rfl

theorem PlainObject.enumerable_iff {object : PlainObject} {key : String}
    (isArray : object.length.isSome = true) (mem : key ∈ object.keys) :
    (object.getOwnPropertyDescriptor key).any (·.enumerable) = decide (key ≠ "length") := by
  have isArray : object.shape.isArray = true := isArray
  have present : (object.shape.own key).isSome = true := by
    have held := mem_keys_iff.mp mem
    rw [Shape.own]
    split
    · split
      · rfl
      · exact held
    · exact held
  obtain ⟨value, own⟩ := Option.isSome_iff_exists.mp present
  rw [getOwnPropertyDescriptor, own, isArray]
  simp

namespace Heap

section Descriptors

variable {hidden : Nat → Prop} {heap copy : Heap} {index target : Nat}
  {newData : Option PlainObject} {ref : ObjectRef} {key : String}

theorem stands_of_array (related : Related hidden heap copy)
    (seen : Visible hidden heap (.object (.proxy index)))
    (isArray : heap.isArray (.proxy index) = true) :
    ∃ target newData, Stands hidden heap index (.array target newData) := by
  obtain ⟨proxy, stands⟩ := stands_of_visible related seen
  rw [Heap.isArray, stands.found] at isArray
  cases proxy with
  | object target newData deletedProperties => cases isArray
  | array target newData => exact ⟨target, newData, stands⟩

variable {session : ObjectSession}

/-- What is asked of a property is what a copy has, where the trap does not
answer from the array that was left behind. -/
theorem describe_onProxy (stands : Stands hidden session.heap index (.array target newData))
    (ordinary : session.actsOnProxy target newData (.descriptor key) = true) :
    session.heap.getOwnPropertyDescriptorArray target newData key =
        (newData.getD (session.heap.objectAt target)).getOwnPropertyDescriptor key ∧
      ∀ value, (session.heap.proxyShape (.array target newData)).own key =
        some value → value.isObject = false := by
  cases newData with
  | none =>
    refine ⟨Eq.refl _, ?_⟩
    intro value own
    have own : (session.heap.objectAt target).shape.own key = some value := own
    simpa [ObjectSession.actsOnProxy, own] using ordinary
  | some data =>
    have isArray := (stands.kept data rfl).1
    rw [getOwnPropertyDescriptorArray]
    by_cases isLength : key = "length"
    · rw [if_pos isLength]
      refine ⟨Eq.refl _, ?_⟩
      intro value own
      obtain ⟨length, isSome⟩ := Option.isSome_iff_exists.mp isArray
      have own : data.shape.own key = some value := own
      rw [Shape.own, shape, isSome, isLength] at own
      cases own
      rfl
    · have kept : data.shape.own key = (session.heap.objectAt target).shape.own key ∧
          ((session.heap.objectAt target).shape.own key).any (!·.isObject) = true := by
        simpa [ObjectSession.actsOnProxy, isLength] using ordinary
      obtain ⟨same, plain⟩ := kept
      cases own : (session.heap.objectAt target).shape.own key with
      | none =>
        rw [own] at plain
        cases plain
      | some value =>
        rw [own] at same plain
        constructor
        · simp [PlainObject.getOwnPropertyDescriptor, own, same, isLength]
        · intro other found
          have found : data.shape.own key = some other := found
          rw [same] at found
          cases found
          simpa using plain

theorem hasOwn_onProxy (ordinary : session.actsOnProxy target newData (.hasOwn key) = true) :
    session.heap.hasOwnArray target newData key =
      (session.heap.proxyShape (.array target newData)).hasOwn key := by
  cases newData with
  | none => rfl
  | some data =>
    have present : data.hasOwn key = true := by
      simpa [ObjectSession.actsOnProxy] using ordinary
    exact present.symm

theorem enumerableKeys_eq (related : Related hidden heap copy)
    (seen : Visible hidden heap (.object ref)) (isArray : heap.isArray ref = true) :
    heap.enumerableKeys ref = (heap.ownKeys ref).filter fun key => decide (key ≠ "length") := by
  have direct : ∀ object : PlainObject, object.length.isSome = true →
      ∀ key ∈ object.properties.ownKeys, (object.getOwnPropertyDescriptor key).any (·.enumerable) =
          decide (key ≠ "length") := fun object isArray key mem =>
    enumerable_iff isArray (OrderedMap.mem_ownKeys.mp mem)
  apply List.filter_congr
  intro key mem
  cases ref with
  | plain address => exact direct _ isArray key mem
  | proxy index =>
    obtain ⟨target, newData, stands⟩ := stands_of_array related seen isArray
    rw [ownKeys, stands.found] at mem
    rw [getOwnPropertyDescriptor, stands.found]
    cases newData with
    | none => exact direct _ stands.kind.symm key mem
    | some data =>
      change (getOwnPropertyDescriptorArray _ _ _ _).any _ = _
      rw [getOwnPropertyDescriptorArray]
      by_cases isLength : key = "length"
      · rw [if_pos isLength]
        exact direct data (stands.kept data rfl).1 key mem
      · cases own : (heap.objectAt target).shape.own key with
        | none =>
          simp [PlainObject.getOwnPropertyDescriptor, own, defaultPropertyDescriptor, isLength]
        | some value =>
          simp [PlainObject.getOwnPropertyDescriptor, own, isLength]

theorem enumerableKeys_copy (related : Related hidden heap copy)
    (same : SameOrder hidden heap copy) (seen : Visible hidden heap (.object ref))
    (isArray : heap.isArray ref = true) :
    heap.enumerableKeys ref = copy.enumerableKeys (.plain (heap.addressOf ref)) := by
  have inCopy : copy.isArray (.plain (heap.addressOf ref)) = true := by
    rw [← isArray, isArray_eq related seen]
    exact congrArg Shape.isArray (shape_of_copy related _)
  have ownKeys : heap.ownKeys ref = copy.ownKeys (.plain (heap.addressOf ref)) := by
    cases ref with
    | plain address =>
      have exposed := (exposed_of_visible related seen).exposed
      have free := not_targeted_of_exposed related.mirrors exposed
      exact OrderedMap.ownKeys_congr (same.untouched address free)
    | proxy index =>
      obtain ⟨target, newData, stands⟩ := stands_of_array related seen isArray
      have behind : heap.ownKeys (.proxy index) =
          (newData.getD (heap.objectAt target)).properties.ownKeys := by
        rw [ownKeys, stands.found]
      rw [behind, stands.address]
      exact OrderedMap.ownKeys_congr (same.proxied index target newData stands.found)
  rw [enumerableKeys_eq related seen isArray, ownKeys]
  apply List.filter_congr
  intro key mem
  exact (enumerable_iff inCopy (OrderedMap.mem_ownKeys.mp mem)).symm

end Descriptors

end Heap

namespace ObjectSession

variable {start : List PlainObject} {session copy : ObjectSession}

/-- The relation between sessions, with the keys in order. -/
structure ArrayCopies (start : List PlainObject)
    (session copy : ObjectSession) (hidden : Nat → Prop) : Prop where
  copies : Copies start session copy hidden
  order : Heap.SameOrder hidden session.heap copy.heap

/-- The relation between sessions, and that an answer is the same. -/
def ArraysAlike (start : List PlainObject) (step other : ObjectSession × StepAnswer) : Prop :=
  (∃ hidden, ArrayCopies start step.1 other.1 hidden) ∧ step.2 = other.2

section Steps

variable {hidden later : Nat → Prop} {ref : ObjectRef} {key : String}

theorem handles_length (copies : Copies start session copy hidden) :
    copy.handles.length = session.handles.length := by
  rw [copies.handles, List.length_map]

variable {copied grown : Heap}

theorem changes_alike (copies : Copies start session copy hidden)
    (related : Heap.Related later grown copied)
    (grows : Heap.Grows hidden later session.heap grown)
    (order : Heap.SameOrder later grown copied) {answer other : StepAnswer}
    (same : answer = other) :
    ArraysAlike start ({ session with heap := grown }, answer)
      ({ copy with heap := copied }, other) :=
  ⟨⟨later, copies.grow related grows, order⟩, same⟩

variable {value : JsValue}

theorem receive_alike (copies : Copies start session copy hidden)
    (related : Heap.Related later grown copied)
    (grows : Heap.Grows hidden later session.heap grown)
    (order : Heap.SameOrder later grown copied)
    (visible : Heap.Visible later grown value) :
    ArraysAlike start (session.receive grown value)
      (copy.receive copied (value.unwrap grown.targetOf)) := by
  have after := copies.grow related grows
  have answer := after.answerTo_copy visible
  refine ⟨⟨later, after.snoc visible, order⟩, ?_⟩
  rw [receive, receive, handles_length copies]
  exact congrArg (StepAnswer.read session.handles.length) answer.symm

theorem readFrom_alike (alike : ArrayCopies start session copy hidden)
    (seen : Heap.Visible hidden session.heap (.object ref))
    (ordinary : session.heap.readsAsCopy key ref = true) :
    ArraysAlike start (session.readFrom ref key)
      (copy.readFrom (.plain (session.heap.addressOf ref)) key) := by
  obtain ⟨copies, order⟩ := alike
  have reads := get_readsCopy toArrayLength copies.related seen ordinary
  have answer := get_copy toArrayLength copies.related (session.heap.addressOf ref) key
  rw [readFrom, readFrom, answer, ← reads.same]
  exact receive_alike copies reads.related reads.grows (order.get copies.related seen) reads.visible

theorem deleteFrom_alike (alike : ArrayCopies start session copy hidden)
    (seen : Heap.Visible hidden session.heap (.object ref))
    (isArray : session.heap.isArray ref = true) (notProto : key ≠ "__proto__") :
    ArraysAlike start (session.deleteFrom ref key)
      (copy.deleteFrom (.plain (session.heap.addressOf ref)) key) := by
  obtain ⟨copies, order⟩ := alike
  have ordinary : session.heap.deletesAsCopy key ref = true := by
    cases ref with
    | plain address => simp [deletesAsCopy, notProto]
    | proxy index => simp [deletesAsCopy, notProto, isArray]
  have changes := delete_changesCopy copies.related seen ordinary
  have orderAfter : Heap.SameOrder hidden (session.heap.deleteProperty key ref).1
      (copy.heap.deleteProperty key (.plain (session.heap.addressOf ref))).1 := by
    cases ref with
    | plain address => exact order.deletePlain copies.related seen
    | proxy index =>
      obtain ⟨proxy, stands⟩ := stands_of_visible copies.related seen
      rw [Heap.isArray, stands.found] at isArray
      cases proxy with
      | object target newData deletedProperties => cases isArray
      | array target newData =>
        have trap : session.heap.deleteProperty key (.proxy index) =
            session.heap.deletePropertyArray index target newData key := by
          rw [deleteProperty, stands.found]
        rw [stands.address, trap]
        exact order.deleteArray copies.related stands
  exact changes_alike copies changes.related changes.grows orderAfter
    (congrArg StepAnswer.done changes.same)

theorem set_alike (copies : Copies start session copy hidden)
    (related : Heap.Related later grown copied)
    (grows : Heap.Grows hidden later session.heap grown)
    (order : Heap.SameOrder later grown copied)
    (seen : Heap.Visible hidden session.heap (.object ref))
    (isArray : grown.isArray ref = true) (visible : Heap.Visible later grown value)
    (noPlain : ∀ index, ref = .proxy index → ∀ address, value ≠ .object (.plain address))
    (convertible : key = "length" → value.isObject = false) :
    ArraysAlike start ({ session with heap := (grown.set toArrayLength key value ref).1 },
        .done (grown.set toArrayLength key value ref).2)
      ({ copy with heap := (copied.set toArrayLength key
          (value.unwrap grown.targetOf) (.plain (session.heap.addressOf ref))).1 },
        .done (copied.set toArrayLength key (value.unwrap grown.targetOf)
          (.plain (session.heap.addressOf ref))).2) := by
  have seenLater := grows.visible seen
  have converted : key = "length" → toArrayLength value =
      toArrayLength (value.unwrap grown.targetOf) := by
    intro isLength
    rw [JsValue.unwrap_of_not_object (convertible isLength)]
  cases ref with
  | plain address =>
    have changes := set_plain toArrayLength related seenLater visible fun _ => convertible
    exact changes_alike copies changes.related (grows.trans changes.grows)
      (order.setPlain related seenLater converted)
      (congrArg StepAnswer.done changes.same)
  | proxy index =>
    have sameTarget : grown.targetOf index = session.heap.targetOf index := grows.targets index seen
    have changes := set_changesArray toArrayLength related seenLater
      isArray visible (noPlain index rfl) convertible
    have ordered := order.setProxy related seenLater isArray (noPlain index rfl) converted
    rw [sameTarget] at changes ordered
    exact changes_alike copies changes.related (grows.trans changes.grows) ordered
      (congrArg StepAnswer.done changes.same)

theorem writeTo_read_alike (alike : ArrayCopies start session copy hidden)
    (seen : Heap.Visible hidden session.heap (.object ref))
    (isArray : session.heap.isArray ref = true) {handle : Nat}
    (noPlain : ∀ index, ref = .proxy index → (session.handle handle).address? = none)
    (notLength : key ≠ "length") :
    ArraysAlike start (session.writeTo ref key (.read handle))
      (copy.writeTo (.plain (session.heap.addressOf ref)) key (.read handle)) := by
  obtain ⟨copies, order⟩ := alike
  have step := set_alike copies copies.related
    (Heap.Grows.refl hidden session.heap) order seen isArray
    (copies.visible_handle handle)
    (by
      intro index isProxy address isPlain
      have free := noPlain index isProxy
      rw [isPlain] at free
      cases free)
    fun isLength => absurd isLength notLength
  rw [← copies.handle_copy handle] at step
  exact step

theorem writeTo_data_alike (alike : ArrayCopies start session copy hidden)
    (seen : Heap.Visible hidden session.heap (.object ref))
    (isArray : session.heap.isArray ref = true) {value : JsonValue}
    (convertible : key = "length" → (session.heap.load value).2.isObject = false) :
    ArraysAlike start (session.writeTo ref key (.data value))
      (copy.writeTo (.plain (session.heap.addressOf ref)) key (.data value)) := by
  obtain ⟨copies, order⟩ := alike
  have mirrors := copies.related.mirrors
  obtain ⟨cells, result, loaded, loads⟩ := load_spec session.heap.plain.length value
  have load : session.heap.load value = (session.heap.grow cells, result) := loaded session.heap rfl
  have loadCopy : copy.heap.load value = (copy.heap.grow cells, result) :=
    loaded copy.heap mirrors.sizes
  have inOrder := inOrder_of_load load
  simp only [writeTo, written, load, loadCopy]
  rw [load] at convertible
  have isArrayLater := (isArray_grow copies seen cells).trans isArray
  by_cases fresh : (∃ index, ref = .proxy index) ∧ ∃ root, result = .object (.plain root)
  · obtain ⟨⟨index, rfl⟩, root, rfl⟩ := fresh
    have notLength : key ≠ "length" := by
      intro isLength
      cases convertible isLength
    obtain ⟨related, grows, same⟩ := set_literal toArrayLength
      copies.related seen isArray loads notLength
    exact changes_alike copies related grows
      (order.setLiteral copies.related seen isArray inOrder loads notLength)
      (congrArg StepAnswer.done same)
  · have unwrapped := unwrap_of_loads loads (session.heap.grow cells).targetOf
    have step := set_alike copies (copies.related.grow loads False) (grows_grow mirrors False)
      (order.grow mirrors inOrder False) seen isArrayLater
      (visible_of_loads mirrors loads)
      (fun index isProxy root isPlain =>
        fresh ⟨⟨index, isProxy⟩, root, isPlain⟩)
      convertible
    rw [unwrapped] at step
    exact step

theorem describe_alike (alike : ArrayCopies start session copy hidden) {object : PlainObject}
    (answered : session.heap.getOwnPropertyDescriptor key ref = object.getOwnPropertyDescriptor key)
    (shape : object.shape = session.heap.shapeAt (session.heap.addressOf ref))
    (visible : ∀ value, object.shape.own key = some value →
      Heap.Visible hidden session.heap value) :
    ArraysAlike start (session.describe ref key)
      (copy.describe (.plain (session.heap.addressOf ref)) key) := by
  obtain ⟨copies, order⟩ := alike
  have behind := shape_of_copy copies.related (session.heap.addressOf ref)
  rw [← shape] at behind
  have inCopy : copy.heap.getOwnPropertyDescriptor key
      (.plain (session.heap.addressOf ref)) = (object.getOwnPropertyDescriptor key).map
          (PropertyDescriptor.map (JsValue.unwrap session.heap.targetOf)) :=
    getOwnPropertyDescriptor_copied behind key
  rw [describe, describe, answered, inCopy, handles_length copies]
  cases described : object.getOwnPropertyDescriptor key with
  | none => exact ⟨⟨hidden, copies, order⟩, Eq.refl _⟩
  | some found =>
    obtain ⟨value, own, isValue⟩ := Option.map_eq_some_iff.mp described
    have sameValue : found.value = value := by
      rw [← isValue]
    have seen := visible value own
    rw [← sameValue] at seen
    refine ⟨⟨hidden, copies.snoc seen, order⟩, ?_⟩
    have answer := copies.answerTo_copy seen
    simp only [Option.map_some, PropertyDescriptor.map, answer]

theorem visible_own (copies : Copies start session copy hidden) {address : Nat}
    (seen : Heap.Visible hidden session.heap (.object (.plain address)))
    (own : (session.heap.objectAt address).shape.own key = some value) :
    Heap.Visible hidden session.heap value := by
  have exposed := exposed_of_visible copies.related seen
  cases value with
  | object other =>
    have held := (Shape.own_object own).1
    rw [← exposed.shape] at held
    rcases copies.related.slots address key _ id held with
      visible | unread
    · exact visible
    · exact absurd unread.parent exposed.exposed
  | _ => exact True.intro

theorem describe_array_alike (alike : ArrayCopies start session copy hidden)
    (seen : Heap.Visible hidden session.heap (.object ref))
    (isArray : session.heap.isArray ref = true)
    (ordinary : ∀ index target newData, ref = .proxy index →
      session.heap.proxies[index]? = some (AugmentedProxy.array target newData) →
      session.actsOnProxy target newData (.descriptor key) = true) :
    ArraysAlike start (session.describe ref key)
      (copy.describe (.plain (session.heap.addressOf ref)) key) := by
  have copies := alike.copies
  cases ref with
  | plain address =>
    have exposed := exposed_of_visible copies.related seen
    apply describe_alike alike
    · rfl
    · exact exposed.shape.symm
    · intro value own
      exact visible_own copies seen own
  | proxy index =>
    obtain ⟨target, newData, stands⟩ := stands_of_array copies.related seen isArray
    obtain ⟨answered, plain⟩ := describe_onProxy stands
      (ordinary index target newData (Eq.refl _) stands.found)
    have trap : session.heap.getOwnPropertyDescriptor key
        (.proxy index) = session.heap.getOwnPropertyDescriptorArray target newData key := by
      rw [Heap.getOwnPropertyDescriptor, stands.found]
    apply describe_alike alike (trap.trans answered)
    · rw [stands.address, stands.shape]
      rfl
    · intro value own
      exact visible_of_not_object (plain value own)

theorem hasOwn_array (alike : ArrayCopies start session copy hidden)
    (seen : Heap.Visible hidden session.heap (.object ref))
    (isArray : session.heap.isArray ref = true)
    (ordinary : ∀ index target newData, ref = .proxy index →
      session.heap.proxies[index]? = some (AugmentedProxy.array target newData) →
      session.actsOnProxy target newData (.hasOwn key) = true) :
    session.heap.hasOwn key ref = copy.heap.hasOwn key (.plain (session.heap.addressOf ref)) := by
  have related := alike.copies.related
  have behind : session.heap.hasOwn key ref =
      (session.heap.shapeAt (session.heap.addressOf ref)).hasOwn key := by
    cases ref with
    | plain address =>
      rw [addressOf, (exposed_of_visible related seen).shape]
      rfl
    | proxy index =>
      obtain ⟨target, newData, stands⟩ := stands_of_array related seen isArray
      rw [stands.address, stands.shape, Heap.hasOwn, stands.found]
      exact hasOwn_onProxy (ordinary index target newData (Eq.refl _) stands.found)
  rw [behind, Heap.hasOwn, PlainObject.hasOwn, shape_of_copy related, Shape.hasOwn_map]

theorem toString_not_special (index : Nat) :
    toString index ≠ "__proto__" ∧ toString index ≠ "constructor" := by
  have digits : ∀ char ∈ (toString index).toList, char.isDigit = true := by
    intro char mem
    have mem : char ∈ (Nat.repr index).toList := mem
    rw [Nat.toList_repr] at mem
    exact Nat.isDigit_of_mem_toDigits (by decide) (by decide) mem
  constructor
  · intro equal
    have digit := digits '_' (by rw [equal]; decide)
    exact absurd digit (by decide)
  · intro equal
    have digit := digits 'c' (by rw [equal]; decide)
    exact absurd digit (by decide)

theorem onArray_alike (alike : ArrayCopies start session copy hidden)
    (seen : Heap.Visible hidden session.heap (.object ref))
    (isArray : session.heap.isArray ref = true) (step : ArrayStep)
    (ordinary : ∀ index target newData, ref = .proxy index →
      session.heap.proxies[index]? = some (AugmentedProxy.array target newData) →
      session.actsOnProxy target newData step = true) :
    ArraysAlike start (session.onArray ref step)
      (copy.onArray (.plain (session.heap.addressOf ref)) step) := by
  have related := alike.copies.related
  have reads : ∀ key, key ≠ "__proto__" → key ≠ "constructor" →
      session.heap.readsAsCopy key ref = true := by
    intro key notProto notConstructor
    cases ref with
    | plain address => simpa [readsAsCopy] using notProto
    | proxy index => simp [readsAsCopy, notProto, notConstructor]
  cases step with
  | read index =>
    obtain ⟨notProto, notConstructor⟩ := toString_not_special index
    exact readFrom_alike alike seen (reads _ notProto notConstructor)
  | write index value =>
    cases value with
    | data value =>
      apply writeTo_data_alike alike seen isArray
      intro isLength
      exact absurd isLength (toString_ne_length index)
    | read handle =>
      apply writeTo_read_alike alike seen isArray
      · intro proxy isProxy
        subst isProxy
        obtain ⟨target, newData, stands⟩ := stands_of_array related seen isArray
        have free := ordinary proxy target newData (Eq.refl _) stands.found
        simpa [actsOnProxy] using free
      · exact toString_ne_length index
  | delete index =>
    exact deleteFrom_alike alike seen isArray (toString_not_special index).1
  | has index =>
    refine ⟨⟨hidden, alike⟩, congrArg StepAnswer.member ?_⟩
    rw [has_eq related seen, Heap.has, PlainObject.has, shape_of_copy related, Shape.has_map]
  | readLength =>
    exact readFrom_alike alike seen (reads _ (by decide) (by decide))
  | writeLength value =>
    apply writeTo_data_alike alike seen isArray
    intro _
    rfl
  | hasOwn key =>
    exact ⟨⟨hidden, alike⟩, congrArg StepAnswer.member (hasOwn_array alike seen isArray ordinary)⟩
  | descriptor key =>
    exact describe_array_alike alike seen isArray ordinary
  | keys =>
    exact ⟨⟨hidden, alike⟩, congrArg StepAnswer.keys
      (enumerableKeys_copy related alike.order seen isArray)⟩

theorem isArray_copy (copies : Copies start session copy hidden)
    (seen : Heap.Visible hidden session.heap (.object ref)) :
    copy.heap.isArray (.plain (session.heap.addressOf ref)) = session.heap.isArray ref := by
  rw [isArray_eq copies.related seen]
  exact congrArg Shape.isArray (shape_of_copy copies.related _)

theorem perform_alike (alike : ArrayCopies start session copy hidden)
    (step : SessionStep) (ordinary : session.actsOnArray step = true) :
    ArraysAlike start (perform session step) (perform copy step) := by
  have copies := alike.copies
  cases step with
  | onArray array step =>
    have inCopy := copies.handle_copy array
    have seen := copies.visible_handle array
    simp only [actsOnArray, onObject] at ordinary
    simp only [perform]
    rw [inCopy]
    cases handle : session.handle array with
    | object ref =>
      rw [handle] at ordinary seen
      simp only [session.heap.unwrap_object, isArray_copy copies seen]
      by_cases isArray : session.heap.isArray ref = true
      · rw [if_pos isArray, if_pos isArray]
        apply onArray_alike alike seen isArray step
        intro index target newData isProxy found
        subst isProxy
        simpa [found] using ordinary
      · rw [if_neg isArray, if_neg isArray]
        exact ⟨⟨hidden, alike⟩, Eq.refl _⟩
    | _ => exact ⟨⟨hidden, alike⟩, Eq.refl _⟩
  | create value =>
    have mirrors := copies.related.mirrors
    obtain ⟨cells, result, loaded, loads⟩ := load_spec session.heap.plain.length value
    have load : session.heap.load value =
        (session.heap.grow cells, result) := loaded session.heap rfl
    have loadCopy : copy.heap.load value =
        (copy.heap.grow cells, result) := loaded copy.heap mirrors.sizes
    have unwrapped := unwrap_of_loads loads (session.heap.grow cells).targetOf
    have received := receive_alike copies
      (copies.related.grow loads False) (grows_grow mirrors False)
      (alike.order.grow mirrors (inOrder_of_load load) False)
      (visible_of_loads mirrors loads)
    rw [unwrapped] at received
    simp only [perform, load, loadCopy]
    exact received
  | field object key =>
    have inCopy := copies.handle_copy object
    have seen := copies.visible_handle object
    simp only [actsOnArray, onObject] at ordinary
    simp only [perform]
    rw [inCopy]
    cases handle : session.handle object with
    | object ref =>
      rw [handle] at ordinary seen
      simp only [session.heap.unwrap_object, isArray_copy copies seen]
      by_cases isArray : session.heap.isArray ref = true
      · rw [if_pos isArray, if_pos isArray]
        exact ⟨⟨hidden, alike⟩, Eq.refl _⟩
      · rw [if_neg isArray, if_neg isArray]
        exact readFrom_alike alike seen ordinary
    | _ => exact ⟨⟨hidden, alike⟩, Eq.refl _⟩

end Steps

end ObjectSession

namespace GivenArray

open ObjectSession

/-- An array with a value at each of its places, and with nothing else. -/
structure Dense (given : GivenArray) : Prop where
  filled : none ∉ given.items
  unnamed : given.named = []

instance (given : GivenArray) : Decidable given.Dense :=
  decidable_of_iff (none ∉ given.items ∧ given.named = [])
    ⟨fun dense => ⟨dense.1, dense.2⟩, fun dense => ⟨dense.filled, dense.unnamed⟩⟩

variable {given : GivenArray}

theorem holes_of_dense (dense : given.Dense) : given.holes = [] := by
  rw [holes, List.map_eq_nil_iff, List.filter_eq_nil_iff]
  intro item mem isHole
  have isItem : item.1 ∈ given.items := List.fst_mem_of_mem_zipIdx mem
  rw [Option.isNone_iff_eq_none.mp isHole] at isItem
  exact dense.filled isItem

theorem load_dense (dense : given.Dense) : ∃ cells root,
    given.load {} = (({} : Heap).grow cells, .object (.plain root)) ∧
      Loads 0 cells [.object (.plain root)] ∧
      ∀ cell ∈ cells, cell.SpreadsInOrder := by
  obtain ⟨cells, result, loaded, loads⟩ := load_spec 0 (.array (given.items.map (·.getD .null)))
  have load : ({} : Heap).load (.array (given.items.map (·.getD .null))) =
      (({} : Heap).grow cells, result) := loaded {} (Eq.refl 0)
  have isArray : ∃ root, result = .object (.plain root) := by
    exact ⟨_, (congrArg Prod.snd load).symm⟩
  obtain ⟨root, rfl⟩ := isArray
  refine ⟨cells, root, ?_, loads, inOrder_of_load load⟩
  rw [GivenArray.load, load, holes_of_dense dense, dense.unnamed]
  rfl

theorem sameOrder_empty : Heap.SameOrder (fun _ => False) {} {} := by
  constructor
  · intro index target newData found
    cases found
  · intro address _
    rfl
  · intro address isHidden
    cases isHidden

theorem augmented_alike (dense : given.Dense) : ∃ hidden,
    ArrayCopies given.session.heap.plain given.augmented given.session
      hidden := by
  obtain ⟨cells, root, load, loads, inOrder⟩ := load_dense dense
  have plain : given.session =
      { heap := ({} : Heap).grow cells
        handles := [.object (.plain root)] } := by
    rw [session, load]
  have proxied : given.augmented =
      { heap := (({} : Heap).grow cells).addProxy
          ((({} : Heap).grow cells).proxyFor root)
        handles := [.object (.proxy 0)] } := by
    rw [augmented, load]
    rfl
  obtain ⟨_, free, _⟩ := root_of_loads related_empty loads
  have order := sameOrder_empty.grow related_empty.mirrors inOrder True
  rw [plain, proxied]
  exact ⟨_, copies_of_loads loads, order.addProxy free⟩

/-- All answers are those of a copy, and the array is not changed. -/
structure BehavesAsCopy (given : GivenArray)
    (operations : List ArrayOperation) : Prop where
  answers : (operateArray.run given.augmented operations).2 =
    (operateArray.run given.session operations).2
  unchanged : given.session.heap.plain <+:
    (operateArray.run given.augmented operations).1.heap.plain

/-- Each step of an operation is one on a copy, also inside the methods. -/
def ActsAsCopy (session : ObjectSession) (operation : ArrayOperation) : Prop :=
  operation.client.Meets perform (fun session step => session.actsOnArray step = true) session

instance (session : ObjectSession) (operation : ArrayOperation) :
    Decidable (ActsAsCopy session operation) :=
  Client.decidableMeets operation.client session

theorem operateArray_alike {start : List PlainObject}
    {session copy : ObjectSession} (operation : ArrayOperation)
    (alike : ∃ hidden, ArrayCopies start session copy hidden)
    (acts : ActsAsCopy session operation) :
    (∃ hidden, ArrayCopies start (operateArray session operation).1
        (operateArray copy operation).1 hidden) ∧
      (operateArray session operation).2 = (operateArray copy operation).2 := by
  apply Client.run_agrees (fun session copy => ∃ hidden, ArrayCopies start session copy hidden) _
    operation.client alike acts
  intro session copy step related ordinary
  obtain ⟨hidden, alike⟩ := related
  exact perform_alike alike step ordinary

/-- A dense array behind its proxy behaves like a private copy, whatever is
done with it, as long as each step is one on a copy. -/
theorem augmentArray_behavesAsCopy (given : GivenArray) (dense : given.Dense)
    (operations : List ArrayOperation)
    (ordinary : operateArray.Meets ActsAsCopy given.augmented operations) :
    given.BehavesAsCopy operations := by
  obtain ⟨last, answers⟩ := Transducer.run_agrees (fun session copy => ∃ hidden,
      ArrayCopies given.session.heap.plain session copy hidden)
    (· = ·) (fun _ _ operation => operateArray_alike operation)
    (augmented_alike dense) ordinary
  obtain ⟨hidden, alike⟩ := last
  exact ⟨List.forall₂_eq_eq_eq ▸ answers, alike.copies.unchanged⟩

private def nestedItems : GivenArray :=
  { items := [some (.number 3), some (.array [.number 1]),
      some (.object [("name", .string "first")]), some (.number 4)]
    named := [] }

/-- Questions before there is a copy, each method, and writes to a nested array
that moves. -/
private def nestedSteps : List ArrayOperation :=
  [.step (.onArray 0 (.hasOwn "4")), .step (.onArray 0 (.descriptor "0")),
    .step (.onArray 0 (.read 1)), .step (.onArray 2 (.write 1 (.read 0))),
    .call 0 .shift, .call 0 (.push [.data (.object []), .read 2]),
    .call 0 (.splice 1 (some 1) [.data .null, .data (.bool true)]),
    .call 0 .reverse, .step (.onArray 0 .keys), .call 0 .pop,
    .call 0 (.sort fun values => return (values.map (·.handle)).reverse),
    .call 0 (.unshift [.data (.string "x")]),
    .call 0 (.copyWithin 0 2 none), .call 0 (.fill (.data .null) (-1) none),
    .step (.onArray 0 (.writeLength 2)), .step (.onArray 0 (.delete 0)),
    .step (.onArray 0 .keys), .step (.onArray 0 (.hasOwn "1"))]

theorem augmentArray_behavesAsCopy_nested : nestedItems.BehavesAsCopy nestedSteps :=
  augmentArray_behavesAsCopy nestedItems (by decide) nestedSteps (by decide +kernel)

private def numbers (items : List (Option Rat)) : GivenArray :=
  { items := items.map (Option.map JsonValue.number)
    named := [] }

/-- The uses that are set apart: a question about a property that the copy does
not have, a descriptor of one that was written, a descriptor that gives a
nested array away, an array with holes, an array with a property of another
name, and an object that is written twice. -/
theorem not_augmentArray_behavesAsCopy : ¬ (numbers [some 1]).BehavesAsCopy
        [.step (.onArray 0 (.write 0 (.data (.number 2)))), .step (.onArray 0 (.hasOwn "1"))] ∧
      ¬ (numbers [some 1]).BehavesAsCopy [.step (.onArray 0 (.write 0 (.data (.number 2)))),
          .step (.onArray 0 (.descriptor "0"))] ∧
      ¬ BehavesAsCopy
        { items := [some (.array [.number 1])]
          named := [] }
        [.step (.onArray 0 (.descriptor "0")), .step (.onArray 1 (.write 0 (.data (.number 2))))] ∧
      ¬ (numbers [none, some 1]).BehavesAsCopy
        [.call 0 (.push []), .call 0 (.fill (.data (.number 2)) 1 none), .step (.onArray 0 .keys)] ∧
      ¬ BehavesAsCopy
        { items := []
          named := [("name", .number 1)] }
        [.call 0 (.push [.data (.number 2)]), .step (.onArray 0 .keys)] ∧
      ¬ (numbers [some 1, some 1]).BehavesAsCopy
        [.call 0 (.fill (.data (.array [.number 1])) 0 none), .step (.onArray 0 (.read 0)),
          .step (.onArray 3 (.write 0 (.data (.number 2)))),
          .step (.onArray 0 (.read 1)), .step (.onArray 4 (.read 0))] := by
  refine ⟨?_, ?_, ?_, ?_, ?_, ?_⟩
  · intro behaves
    exact absurd behaves.answers (by decide +kernel)
  · intro behaves
    exact absurd behaves.answers (by decide +kernel)
  · intro behaves
    exact absurd behaves.unchanged (by decide +kernel)
  · intro behaves
    exact absurd behaves.answers (by decide +kernel)
  · intro behaves
    exact absurd behaves.answers (by decide +kernel)
  · intro behaves
    exact absurd behaves.answers (by decide +kernel)

end GivenArray

end N8n
