import N8n.AugmentObject.AugmentedCopy

/-!
# Sessions with an augmented object

Any sequence of operations on an augmented object and on what is read through
it gives the answers that a copy gives.  Four uses are set apart: the name
`constructor`, names that are deleted although all objects inherit them,
objects that are moved into an array, and own-property tests on an array.
-/

namespace N8n

open Heap List

namespace ObjectSession

variable {toLength : JsValue → Option Nat} {start : List PlainObject} {session copy : ObjectSession}

/-- The check applies where an operation takes place. -/
def onObject (session : ObjectSession) (object : Nat) (check : ObjectRef → Bool) : Bool :=
  match session.handle object with
  | .object ref => check ref
  | _ => true

/-- Whether an operation is none of those that are set apart. -/
def actsAsCopy (session : ObjectSession) : ObjectOperation → Bool
  | .read object key => session.onObject object (session.heap.readsAsCopy key)
  | .write object key (.data value) => session.onObject object fun ref =>
    key ≠ "__proto__" && !(session.heap.isArray ref && key = "length" &&
      (session.heap.load value).2.isObject)
  | .write object key (.read handle) => session.onObject object
      (session.heap.writesAsCopy key (session.handle handle))
  | .delete object key =>
    session.onObject object (session.heap.deletesAsCopy key)
  | .has _ key => key ≠ "__proto__"
  | .hasOwn object key => session.onObject object fun ref =>
    key ≠ "__proto__" &&
      match ref with
      | .proxy index => !session.heap.isArray (.proxy index)
      | .plain _ => true
  | .keys _ => true

/-- A session with proxies runs like one without them, and the objects it
started with are as they were. -/
structure Copies (start : List PlainObject) (session copy : ObjectSession)
    (hidden : Nat → Prop) : Prop where
  related : Heap.Related hidden session.heap copy.heap
  visible : ∀ value ∈ session.handles, Heap.Visible hidden session.heap value
  handles : copy.handles = session.handles.map (JsValue.unwrap session.heap.targetOf)
  started : ∀ address < start.length, hidden address ∧
    start[address]? = some (session.heap.objectAt address)

namespace Copies

variable {hidden : Nat → Prop}

theorem visible_handle (copies : Copies start session copy hidden) (index : Nat) :
    Heap.Visible hidden session.heap (session.handle index) := by
  rw [handle, getD_eq_getElem?_getD]
  cases found : session.handles[index]? with
  | none => exact True.intro
  | some value => exact copies.visible value (mem_of_getElem? found)

theorem handle_copy (copies : Copies start session copy hidden) (index : Nat) : copy.handle index =
      (session.handle index).unwrap session.heap.targetOf := by
  rw [handle, copies.handles, handle, getD_eq_getElem?_getD, getElem?_map, getD_eq_getElem?_getD]
  cases session.handles[index]? <;> rfl

theorem grow {later : Nat → Prop} {grown : Heap} {copied : Heap}
    (copies : Copies start session copy hidden)
    (related : Heap.Related later grown copied)
    (grows : Heap.Grows hidden later session.heap grown) :
    Copies start { session with heap := grown } { copy with heap := copied } later := by
  constructor
  · exact related
  · intro value mem
    exact grows.visible (copies.visible value mem)
  · rw [copies.handles]
    apply map_congr_left
    intro value mem
    exact (grows.unwrap (copies.visible value mem)).symm
  · intro address bound
    obtain ⟨isHidden, same⟩ := copies.started address bound
    exact ⟨grows.hides address isHidden, by
      rw [grows.unchanged address isHidden]
      exact same⟩

theorem snoc {value : JsValue} (copies : Copies start session copy hidden)
    (visible : Heap.Visible hidden session.heap value) :
    Copies start { session with handles := session.handles ++ [value] } { copy with handles :=
          copy.handles ++ [value.unwrap session.heap.targetOf] } hidden := by
  constructor
  · exact copies.related
  · intro other mem
    rcases mem_append.mp mem with old | new
    · exact copies.visible other old
    · obtain rfl := mem_singleton.mp new
      exact visible
  · rw [map_append, copies.handles]
    rfl
  · exact copies.started

theorem answerTo_copy (copies : Copies start session copy hidden)
    {value : JsValue} (visible : Heap.Visible hidden session.heap value) :
    answerTo copy.heap (value.unwrap session.heap.targetOf) = answerTo session.heap value := by
  cases value with
  | object ref =>
    rw [session.heap.unwrap_object, answerTo, answerTo, isArray_eq copies.related visible]
    have shape := shape_of_copy copies.related (session.heap.addressOf ref)
    exact congrArg (ObjectAnswer.object ∘ Shape.isArray) shape
  | _ => rfl

end Copies

def StepsAlike (start : List PlainObject) (step other : ObjectSession × ObjectAnswer) : Prop :=
  (∃ hidden, Copies start step.1 other.1 hidden) ∧ step.2.Same other.2

theorem same_refl (answer : ObjectAnswer) : answer.Same answer := by
  cases answer <;> simp [ObjectAnswer.Same]

section Steps

variable {hidden : Nat → Prop}

theorem alike_onObject (copies : Copies start session copy hidden)
    (object : Nat) {act actCopy : ObjectRef → ObjectSession × ObjectAnswer}
    (each : ∀ ref, session.handle object = .object ref →
      Heap.Visible hidden session.heap (.object ref) →
      StepsAlike start (act ref) (actCopy (.plain (session.heap.addressOf ref)))) :
    StepsAlike start (match session.handle object with
        | .object ref => act ref
        | _ => (session, .noObject))
      (match copy.handle object with
        | .object ref => actCopy ref
        | _ => (copy, .noObject)) := by
  have seen := copies.visible_handle object
  rw [copies.handle_copy object]
  cases handle : session.handle object with
  | object ref =>
    rw [session.heap.unwrap_object]
    exact each ref handle (handle ▸ seen)
  | _ => exact ⟨⟨hidden, copies⟩, rfl⟩

variable {object : Nat} {key : String}

theorem read_alike (copies : Copies start session copy hidden)
    (ordinary : session.actsAsCopy (.read object key) = true) :
    StepsAlike start (operate toLength session (.read object key))
      (operate toLength copy (.read object key)) := by
  apply alike_onObject copies object
  intro ref handle seen
  simp only [actsAsCopy, onObject, handle] at ordinary
  have reads := get_readsCopy toLength copies.related seen ordinary
  have answer := get_copy toLength copies.related (session.heap.addressOf ref) key
  simp only [answer, ← reads.same]
  have after := copies.grow reads.related reads.grows
  exact ⟨⟨hidden, after.snoc reads.visible⟩, by
    rw [after.answerTo_copy reads.visible]
    exact same_refl _⟩

theorem write_read_alike (copies : Copies start session copy hidden)
    {object written : Nat} (ordinary : session.actsAsCopy
      (.write object key (.read written)) = true) :
    StepsAlike start (operate toLength session (.write object key (.read written)))
      (operate toLength copy (.write object key (.read written))) := by
  apply alike_onObject copies object
  intro ref handle seen
  simp only [actsAsCopy, onObject, handle] at ordinary
  have changes := set_changesCopy toLength copies.related seen
    (copies.visible_handle written) ordinary
  simp only [ObjectSession.written, copies.handle_copy written]
  exact ⟨⟨hidden, copies.grow changes.related changes.grows⟩,
    congrArg ObjectAnswer.done changes.same⟩

theorem isArray_grow (copies : Copies start session copy hidden)
    {ref : ObjectRef} (seen : Heap.Visible hidden session.heap (.object ref))
    (cells : List PlainObject) :
    (session.heap.grow cells).isArray ref = session.heap.isArray ref := by
  cases ref with
  | plain address =>
    have bound := (exposed_of_visible copies.related seen).bound
    rw [isArray, objectAt_grow_old bound, isArray]
  | proxy index => rfl

theorem write_data_alike (copies : Copies start session copy hidden) {value : JsonValue} (ordinary : session.actsAsCopy
      (.write object key (.data value)) = true) :
    StepsAlike start (operate toLength session (.write object key (.data value)))
      (operate toLength copy (.write object key (.data value))) := by
  apply alike_onObject copies object
  intro ref handle seen
  have mirrors := copies.related.mirrors
  obtain ⟨cells, result, loaded, loads⟩ := load_spec session.heap.plain.length value
  have load : session.heap.load value = (session.heap.grow cells, result) := loaded session.heap rfl
  have loadCopy : copy.heap.load value = (copy.heap.grow cells, result) :=
    loaded copy.heap mirrors.sizes
  simp only [actsAsCopy, onObject, load, handle] at ordinary
  simp only [written, load, loadCopy]
  simp only [Bool.and_eq_true, decide_eq_true_eq, Bool.not_eq_true'] at ordinary
  obtain ⟨notProto, convertible⟩ := ordinary
  by_cases fresh : (∃ index, ref = .proxy index) ∧
      session.heap.isArray ref = true ∧ result.isObject = true
  · -- the literal goes behind a proxy of its own
    obtain ⟨⟨index, rfl⟩, isArray, isObject⟩ := fresh
    cases result with
    | object other =>
      obtain ⟨root, rfl⟩ := loads.plain _ (mem_singleton_self _) other rfl
      have notLength : key ≠ "length" := by
        intro isLength
        simp [isArray, isLength, JsValue.isObject] at convertible
      obtain ⟨related, grows, same⟩ := set_literal toLength
        copies.related seen isArray loads notLength
      exact ⟨⟨_, copies.grow related grows⟩, congrArg ObjectAnswer.done same⟩
    | _ => cases isObject
  · have grown := copies.related.grow loads False
    have grows : Heap.Grows hidden _ session.heap
        (session.heap.grow cells) := grows_grow mirrors False
    have visible := visible_of_loads mirrors loads
    have defined : result ≠ .undefined := by
      intro undefined
      exact loads.defined (by simp [undefined])
    have writes : (session.heap.grow cells).writesAsCopy key result ref =
        true := by
      simp only [writesAsCopy, isArray_grow copies seen,
        convertible, notProto, defined, Bool.and_eq_true,
        decide_eq_true_eq, ne_eq, not_false_eq_true, Bool.not_false,
        true_and]
      split
      next index address =>
        rw [isArray_grow copies seen]
        by_contra isArray
        exact fresh ⟨⟨index, rfl⟩, by simpa using isArray, rfl⟩
      · rfl
    have changes := set_changesCopy toLength grown (grows.visible seen) visible writes
    have unwrapped := unwrap_of_loads loads (session.heap.grow cells).targetOf
    rw [unwrapped] at changes
    exact ⟨⟨_, copies.grow changes.related (grows.trans changes.grows)⟩,
      congrArg ObjectAnswer.done changes.same⟩

theorem delete_alike (copies : Copies start session copy hidden)
    (ordinary : session.actsAsCopy (.delete object key) = true) :
    StepsAlike start (operate toLength session (.delete object key))
      (operate toLength copy (.delete object key)) := by
  apply alike_onObject copies object
  intro ref handle seen
  simp only [actsAsCopy, onObject, handle] at ordinary
  have changes := delete_changesCopy copies.related seen ordinary
  exact ⟨⟨hidden, copies.grow changes.related changes.grows⟩,
    congrArg ObjectAnswer.done changes.same⟩

theorem has_alike (copies : Copies start session copy hidden) (object : Nat) (key : String) :
    StepsAlike start (operate toLength session (.has object key))
      (operate toLength copy (.has object key)) := by
  apply alike_onObject copies object
  intro ref handle seen
  refine ⟨⟨hidden, copies⟩, congrArg ObjectAnswer.member ?_⟩
  rw [has_eq copies.related seen, has, PlainObject.has, shape_of_copy copies.related, Shape.has_map]

theorem hasOwn_alike (copies : Copies start session copy hidden)
    (ordinary : session.actsAsCopy (.hasOwn object key) = true) :
    StepsAlike start (operate toLength session (.hasOwn object key))
      (operate toLength copy (.hasOwn object key)) := by
  apply alike_onObject copies object
  intro ref handle seen
  simp only [actsAsCopy, onObject, handle, Bool.and_eq_true] at ordinary
  refine ⟨⟨hidden, copies⟩, congrArg ObjectAnswer.member ?_⟩
  have noArrayProxy : ∀ index, ref = .proxy index → session.heap.isArray ref = false := by
    intro index isProxy
    subst isProxy
    simpa using ordinary.2
  rw [hasOwn_eq copies.related seen noArrayProxy, hasOwn,
    PlainObject.hasOwn, shape_of_copy copies.related,
    Shape.hasOwn_map]

theorem keys_alike (copies : Copies start session copy hidden) (object : Nat) :
    StepsAlike start (operate toLength session (.keys object))
      (operate toLength copy (.keys object)) := by
  apply alike_onObject copies object
  intro ref handle seen
  refine ⟨⟨hidden, copies⟩, ?_⟩
  intro key
  rw [mem_keys_iff copies.related seen, Heap.keys,
    PlainObject.mem_keys_iff, shape_of_copy copies.related,
    Shape.map, Option.isSome_map]

theorem operate_alike (copies : Copies start session copy hidden)
    (operation : ObjectOperation) (ordinary : session.actsAsCopy operation = true) :
    StepsAlike start (operate toLength session operation) (operate toLength copy operation) := by
  cases operation with
  | read object key => exact read_alike copies ordinary
  | write object key value =>
    cases value with
    | data value => exact write_data_alike copies ordinary
    | read written => exact write_read_alike copies ordinary
  | delete object key => exact delete_alike copies ordinary
  | has object key => exact has_alike copies object key
  | hasOwn object key => exact hasOwn_alike copies ordinary
  | keys object => exact keys_alike copies object

end Steps

section Start

variable (fields : List (String × JsonValue))

theorem load_object (heap : Heap) : ∃ cells, heap.load (.object fields) = (heap.grow cells,
        .object (.plain (heap.plain.length + cells.length - 1))) ∧
      Loads heap.plain.length cells [.object (.plain (heap.plain.length + cells.length - 1))] := by
  obtain ⟨cells, result, loaded, loads⟩ := load_spec heap.plain.length (.object fields)
  have load : heap.load (.object fields) = (heap.grow cells, result) := loaded heap rfl
  have isLast : result = .object (.plain (heap.plain.length + cells.length - 1)) := by
    have allocated : heap.load (.object fields) = (heap.loadFields fields).1.allocate
          (PlainObject.ofFields (heap.loadFields fields).2) := by
      rw [Heap.load]
    rw [load, allocate_eq] at allocated
    obtain ⟨sameHeap, same⟩ := Prod.mk.inj allocated
    have size := congrArg (fun grown : Heap => grown.plain.length) sameHeap
    simp only [length_grow, length_singleton] at size
    rw [same]
    congr 2
    omega
  subst isLast
  exact ⟨cells, load, loads⟩

theorem related_empty : Heap.Related (fun _ => False) {} {} := by
  constructor
  · constructor <;> try simp
    · intro address
      rfl
    · constructor <;> simp
    · exact nodup_nil
  · intro address key value _ held
    cases held

theorem copies_of_loads {cells : List PlainObject} {root : Nat}
    (loads : Loads 0 cells [.object (.plain root)]) :
    Copies cells
      { heap := (({} : Heap).grow cells).addProxy
          ((({} : Heap).grow cells).proxyFor root)
        handles := [.object (.proxy 0)] }
      { heap := ({} : Heap).grow cells
        handles := [.object (.plain root)] }
      (hiddenAfter (fun _ => False) 0 cells.length True) := by
  constructor
  · exact Heap.Related.addLiteral related_empty loads
  · intro value mem
    obtain rfl := mem_singleton.mp mem
    simp [Heap.Visible, addProxy]
  · have target := targetOf_added (({} : Heap).grow cells) ((({} : Heap).grow cells).proxyFor root)
    rw [target_proxyFor] at target
    exact congrArg (fun address => [JsValue.object (.plain address)]) target.symm
  · intro address bound
    refine ⟨.inr ⟨True.intro, Nat.zero_le _, by simpa using bound⟩, ?_⟩
    change cells[address]? = some (([] ++ cells).getD address _)
    simp [bound]

theorem augmented_copies : ∃ hidden,
    Copies (ofData fields).heap.plain (augmented fields) (ofData fields)
      hidden := by
  obtain ⟨cells, load, loads⟩ := load_object fields {}
  have plain : ofData fields =
      { heap := ({} : Heap).grow cells
        handles := [.object (.plain (0 + cells.length - 1))] } := by
    rw [ofData, load]
    rfl
  have proxied : augmented fields =
      { heap := (({} : Heap).grow cells).addProxy
          ((({} : Heap).grow cells).proxyFor (0 + cells.length - 1))
        handles := [.object (.proxy 0)] } := by
    rw [augmented, load]
    rfl
  rw [plain, proxied]
  exact ⟨_, copies_of_loads loads⟩

end Start

/-- All answers are those of a copy, and the object is not changed. -/
structure BehavesAsCopy (toLength : JsValue → Option Nat)
    (fields : List (String × JsonValue))
    (operations : List ObjectOperation) : Prop where
  answers : List.Forall₂ ObjectAnswer.Same ((operate toLength).run (augmented fields) operations).2
    ((operate toLength).run (ofData fields) operations).2
  unchanged : (ofData fields).heap.plain <+:
    ((operate toLength).run (augmented fields) operations).1.heap.plain

theorem Copies.unchanged {hidden : Nat → Prop} (copies : Copies start session copy hidden) :
    start <+: session.heap.plain := by
  have within : start.length ≤ session.heap.plain.length := by
    by_contra longer
    have last := copies.started (start.length - 1) (by omega)
    have bound := copies.related.mirrors.forest.bound _ last.1
    omega
  rw [prefix_iff_eq_take]
  apply ext_getElem?
  intro address
  by_cases early : address < start.length
  · have same := (copies.started address early).2
    have bound : address < session.heap.plain.length := Nat.lt_of_lt_of_le early within
    rw [same, getElem?_take, if_pos early, objectAt,
      getD_eq_getElem?_getD, getElem?_eq_getElem bound]
    rfl
  · have late : start.length ≤ address := Nat.le_of_not_lt early
    rw [getElem?_eq_none late, getElem?_take, if_neg early]

/-- An augmented object behaves like a private copy, whatever is done with it
apart from the uses that are set apart. -/
theorem augmentObject_behavesAsCopy (toLength : JsValue → Option Nat)
    (fields : List (String × JsonValue)) (operations : List ObjectOperation)
    (ordinary : (operate toLength).Meets
      (fun session operation => session.actsAsCopy operation = true)
      (augmented fields) operations) :
    BehavesAsCopy toLength fields operations := by
  have step : ∀ session copy operation,
      (∃ hidden, Copies (ofData fields).heap.plain session copy hidden) →
      session.actsAsCopy operation = true →
      StepsAlike (ofData fields).heap.plain (operate toLength session operation)
        (operate toLength copy operation) := by
    intro session copy operation related acts
    obtain ⟨hidden, copies⟩ := related
    exact operate_alike copies operation acts
  obtain ⟨last, answers⟩ := Transducer.run_agrees (fun session copy =>
      ∃ hidden, Copies (ofData fields).heap.plain session copy hidden)
    ObjectAnswer.Same step (augmented_copies fields) ordinary
  obtain ⟨hidden, copies⟩ := last
  exact ⟨answers, copies.unchanged⟩

/-- The length that a number, `null` or a truth value converts to. -/
private def lengthOf : JsValue → Option Nat
  | .number value =>
    if value.den = 1 ∧ 0 ≤ value.num ∧ value.num < 4294967296 then
      some value.num.toNat
    else none
  | .null => some 0
  | .bool value => some value.toNat
  | _ => none

private def nestedFields : List (String × JsonValue) :=
  [("owner", .object [("name", .string "first")]),
    ("list", .array [.number 1, .object [("deep", .bool true)]])]

/-- Nested reads, a replaced child that was read before, a literal in an array,
and a deletion that is undone. -/
private def nestedOperations : List ObjectOperation :=
  [.read 0 "owner", .write 1 "name" (.data (.string "second")),
    .write 0 "owner" (.data (.object [])), .read 1 "name", .keys 0,
    .read 0 "list", .read 3 "1", .write 4 "deep" (.read 2),
    .write 3 "2" (.data (.object [("new", .null)])), .read 3 "length",
    .write 3 "length" (.data (.number 1)), .has 3 "2",
    .delete 0 "list", .has 0 "list", .write 0 "list" (.read 3),
    .hasOwn 0 "list", .keys 3]

theorem augmentObject_behavesAsCopy_nested : BehavesAsCopy lengthOf nestedFields nestedOperations :=
  augmentObject_behavesAsCopy lengthOf nestedFields nestedOperations (by decide +kernel)

theorem not_behavesAsCopy {fields : List (String × JsonValue)}
    {operations : List ObjectOperation} (index : Nat) (answer other : ObjectAnswer)
    (augmentedAnswer : ((operate toLength).run (augmented fields)
      operations).2[index]? = some answer)
    (copiedAnswer : ((operate toLength).run (ofData fields) operations).2[index]? = some other)
    (differ : ¬ answer.Same other) :
    ¬ BehavesAsCopy toLength fields operations := by
  intro behaves
  have answers := (forall₂_iff_get.mp behaves.answers).2
  obtain ⟨bound, isAnswer⟩ := List.getElem?_eq_some_iff.mp augmentedAnswer
  obtain ⟨otherBound, isOther⟩ := List.getElem?_eq_some_iff.mp copiedAnswer
  have same := answers index bound otherBound
  simp only [get_eq_getElem, isAnswer, isOther] at same
  exact differ same

/-- The uses that are set apart: a property `constructor`, an inherited name
that is deleted, an object that is moved into an array, a property `__proto__`,
and an own-property test on an array. -/
theorem not_behavesAsCopy_setApart :
    ¬ BehavesAsCopy lengthOf [("constructor", .number 1)] [.read 0 "constructor"] ∧
      ¬ BehavesAsCopy lengthOf [("toString", .string "text")]
        [.delete 0 "toString", .has 0 "toString"] ∧
      ¬ BehavesAsCopy lengthOf [("list", .array [.null])]
        [.write 0 "own" (.data (.object [])), .read 0 "own",
          .read 0 "list", .write 2 "0" (.read 1), .read 2 "0",
          .write 3 "key" (.data (.number 1)), .has 1 "key"] ∧
      ¬ BehavesAsCopy lengthOf [("__proto__", .number 1)]
        [.write 0 "__proto__" (.data (.number 2)), .read 0 "__proto__"] ∧
      ¬ BehavesAsCopy lengthOf [("list", .array [])]
        [.read 0 "list", .write 1 "0" (.data .null), .hasOwn 1 "1"] := by
  refine ⟨?_, ?_, ?_, ?_, ?_⟩
  · apply not_behavesAsCopy 0 (.value (.builtin .object "constructor")) (.value (.number 1))
    · decide +kernel
    · decide +kernel
    · simp [ObjectAnswer.Same]
  · apply not_behavesAsCopy 1 (.member false) (.member true)
    · decide +kernel
    · decide +kernel
    · simp [ObjectAnswer.Same]
  · apply not_behavesAsCopy 6 (.member false) (.member true)
    · decide +kernel
    · decide +kernel
    · simp [ObjectAnswer.Same]
  · apply not_behavesAsCopy 1 (.value (.number 1)) (.value (.number 2))
    · decide +kernel
    · decide +kernel
    · simp [ObjectAnswer.Same]
  · apply not_behavesAsCopy 2 (.member true) (.member false)
    · decide +kernel
    · decide +kernel
    · simp [ObjectAnswer.Same]

end ObjectSession

end N8n
