import Mathlib.Algebra.Order.Ring.Rat
import N8n.Library.OrderedMap

/-!
# Plain objects

Objects and arrays as the language has them: own properties, a `length` for
arrays, and the functions that all of them inherit.  A `Shape` is what can be
observed of one, apart from the order of its keys.
-/

namespace N8n

/-- Plain objects and arrays have an address, proxies a number. -/
inductive ObjectRef where
  | plain (address : Nat)
  | proxy (index : Nat)
deriving DecidableEq

inductive Prototype where
  | object
  | array
deriving DecidableEq

/-- `builtin` is the function that a prototype holds under a name. -/
inductive JsValue where
  | undefined
  | null
  | bool (value : Bool)
  | number (value : Rat)
  | string (value : String)
  | builtin (prototype : Prototype) (name : String)
  | object (ref : ObjectRef)
deriving DecidableEq

/-- What `Object.prototype` holds.  `__proto__` is an accessor, no property
that holds a value, and left out. -/
def objectPrototypeNames : List String :=
  ["constructor", "__defineGetter__", "__defineSetter__", "hasOwnProperty",
    "__lookupGetter__", "__lookupSetter__", "isPrototypeOf",
    "propertyIsEnumerable", "toString", "valueOf", "toLocaleString"]

def arrayPrototypeNames : List String :=
  ["at", "concat", "constructor", "copyWithin", "entries", "every", "fill",
    "filter", "find", "findIndex", "findLast", "findLastIndex", "flat",
    "flatMap", "forEach", "includes", "indexOf", "join", "keys",
    "lastIndexOf", "map", "pop", "push", "reduce", "reduceRight", "reverse",
    "shift", "slice", "some", "sort", "splice", "toLocaleString",
    "toReversed", "toSorted", "toSpliced", "toString", "unshift", "values",
    "with"]

def inherited (isArray : Bool) (name : String) : Option JsValue :=
  if isArray = true ∧ name ∈ arrayPrototypeNames then
    some (.builtin .array name)
  else if name ∈ objectPrototypeNames then some (.builtin .object name)
  else none

def arrayIndex (key : String) : Option Nat :=
  if OrderedMap.isArrayIndex key then
    some (OrderedMap.isArrayIndex.arrayIndexValue key.toList)
  else none

/-- The length of an array after an assignment to one of its keys.  A new index
may extend it; an index that is there lies below it. -/
def lengthAfter (length : Nat) (key : String) (present : Bool) : Nat :=
  if present then length
  else (arrayIndex key).elim length fun index => max length (index + 1)

/-- The length of an array and what lies under each other key. -/
@[ext] structure Shape where
  length : Option Nat
  look : String → Option JsValue

namespace Shape

section

variable (shape : Shape)

def isArray : Bool := shape.length.isSome

section

variable (key : String)

def own : Option JsValue :=
  match shape.length with
  | some length =>
    if key = "length" then some (.number length) else shape.look key
  | none => shape.look key

def get : JsValue :=
  ((shape.own key).or (inherited shape.isArray key)).getD .undefined

/-- The operator `in`. -/
def has : Bool :=
  ((shape.own key).or (inherited shape.isArray key)).isSome

def hasOwn : Bool := (shape.own key).isSome

end

end

def map (change : JsValue → JsValue) (shape : Shape) : Shape :=
  { shape with look := fun key => (shape.look key).map change }

section Update

variable (toLength : JsValue → Option Nat)

/-- Assignment.  The second component is false where it throws a `RangeError`:
the length of an array is set to something that converts to no length. -/
def set (shape : Shape) (key : String) (value : JsValue) : Shape × Bool :=
  let changed := fun other =>
    if key = other then some value else shape.look other
  match shape.length with
  | none => ({ shape with look := changed }, true)
  | some length =>
    if key = "length" then
      match toLength value with
      | some newLength =>
        ({ length := some newLength
           look := fun other =>
            if (arrayIndex other).all (decide <| · < newLength) then
              shape.look other
            else none }, true)
      | none => (shape, false)
    else
      ({ length := some (lengthAfter length key (shape.look key).isSome)
         look := changed }, true)

end Update

/-- The operator `delete`.  The second component is false where it throws a
`TypeError`: the length of an array cannot be deleted. -/
def delete (shape : Shape) (key : String) : Shape × Bool :=
  if shape.isArray = true ∧ key = "length" then (shape, false)
  else
    ({ shape with look := fun other =>
        if key = other then none else shape.look other }, true)

end Shape

structure PlainObject where
  length : Option Nat
  properties : OrderedMap String JsValue
deriving DecidableEq

namespace PlainObject

def empty : PlainObject :=
  { length := none
    properties := OrderedMap.empty }

variable (object : PlainObject)

def shape : Shape :=
  { length := object.length
    look := object.properties.get? }

def get (object : PlainObject) (key : String) : JsValue := object.shape.get key

def has (object : PlainObject) (key : String) : Bool := object.shape.has key

def hasOwn (object : PlainObject) (key : String) : Bool := object.shape.hasOwn key

/-- The own enumerable keys: `length` is not among them. -/
def keys (object : PlainObject) : List String := object.properties.keys

def set (toLength : JsValue → Option Nat) (object : PlainObject)
    (key : String) (value : JsValue) : PlainObject × Bool :=
  match object.length with
  | none =>
    ({ object with properties := object.properties.set key value }, true)
  | some length =>
    if key = "length" then
      match toLength value with
      | some newLength =>
        ({ length := some newLength
           properties := object.properties.filter fun entry =>
            (arrayIndex entry.1).all (decide <| · < newLength) }, true)
      | none => (object, false)
    else
      ({ length := some (lengthAfter length key (object.properties.has key))
         properties := object.properties.set key value }, true)

def delete (object : PlainObject) (key : String) : PlainObject × Bool :=
  if object.length.isSome = true ∧ key = "length" then (object, false)
  else ({ object with properties := object.properties.delete key }, true)

def ofItems (items : List JsValue) : PlainObject :=
  { length := some items.length
    properties := OrderedMap.ofList (items.zipIdx.map fun item => (toString item.2, item.1)) }

def ofFields (fields : List (String × JsValue)) : PlainObject :=
  { length := none
    properties := OrderedMap.ofList fields }

/-- `[...data]` -/
def spread : PlainObject :=
  ofItems ((List.range (object.length.getD 0)).map fun index =>
    object.get (toString index))

section

variable (toLength : JsValue → Option Nat) (object : PlainObject) (key : String)

theorem set_eq (value : JsValue) :
    ((object.set toLength key value).1.shape, (object.set toLength key value).2) =
      object.shape.set toLength key value := by
  obtain ⟨length, properties⟩ := object
  have changed : (properties.set key value).get? = fun other =>
      if key = other then some value else properties.get? other :=
    funext fun other => properties.get?_set key other value
  cases length with
  | none => simp [set, shape, Shape.set, changed]
  | some length =>
    by_cases isLength : key = "length"
    · cases converted : toLength value with
      | none => simp [set, shape, Shape.set, isLength, converted]
      | some newLength =>
        have kept := properties.get?_filter_keys
          (fun other => (arrayIndex other).all (decide <| · < newLength))
        simp [set, shape, Shape.set, isLength, converted, funext kept]
    · simp [set, shape, Shape.set, isLength, changed, OrderedMap.has]

theorem delete_eq :
    ((object.delete key).1.shape, (object.delete key).2) = object.shape.delete key := by
  have changed : (object.properties.delete key).get? = fun other =>
      if key = other then none else object.properties.get? other :=
    funext fun other => object.properties.get?_delete key other
  by_cases isLength : object.length.isSome = true ∧ key = "length"
  · simp [delete, Shape.delete, Shape.isArray, shape, isLength]
  · simp [delete, Shape.delete, Shape.isArray, shape, isLength, changed]

theorem shape_set (value : JsValue) :
    (object.set toLength key value).1.shape = (object.shape.set toLength key value).1 :=
  congrArg Prod.fst (set_eq toLength object key value)

theorem set_succeeds (value : JsValue) :
    (object.set toLength key value).2 = (object.shape.set toLength key value).2 :=
  congrArg Prod.snd (set_eq toLength object key value)

end

theorem shape_delete (key : String) : (object.delete key).1.shape = (object.shape.delete key).1 :=
  congrArg Prod.fst (delete_eq object key)

theorem delete_succeeds (key : String) : (object.delete key).2 = (object.shape.delete key).2 :=
  congrArg Prod.snd (delete_eq object key)

theorem mem_keys_iff {object : PlainObject} {key : String} :
    key ∈ object.keys ↔ (object.shape.look key).isSome = true := by
  rw [keys, ← OrderedMap.has_iff]
  rfl

end PlainObject

section Unwrap

/-- Proxies read as the objects they stand for. -/
def JsValue.unwrap (targetOf : Nat → Nat) : JsValue → JsValue
  | .object (.proxy index) => .object (.plain (targetOf index))
  | value => value

def JsValue.isObject : JsValue → Bool
  | .object _ => true
  | _ => false

variable {targetOf : Nat → Nat} {shape : Shape} {key : String} {value : JsValue}

theorem JsValue.unwrap_of_not_object
    (plain : value.isObject = false) : value.unwrap targetOf = value := by
  cases value with
  | object ref => cases plain
  | _ => rfl

theorem inherited_not_object {isArray : Bool} {name : String} (found : inherited isArray name = some value) :
    value.isObject = false := by
  rw [inherited] at found
  split at found
  · cases found
    rfl
  · split at found
    · cases found
      rfl
    · cases found

namespace Shape

theorem own_map : (shape.map (JsValue.unwrap targetOf)).own key =
    (shape.own key).map (JsValue.unwrap targetOf) := by
  obtain ⟨length, look⟩ := shape
  cases length with
  | none => rfl
  | some length =>
    by_cases isLength : key = "length"
    · simp [own, map, isLength, JsValue.unwrap]
    · simp [own, map, isLength]

theorem get_map : (shape.map (JsValue.unwrap targetOf)).get key =
    (shape.get key).unwrap targetOf := by
  rw [get, own_map, get]
  cases own : shape.own key with
  | some value => rfl
  | none =>
    change (Option.getD (inherited shape.isArray key) _) = _
    cases found : inherited shape.isArray key with
    | none => rfl
    | some value =>
      exact (JsValue.unwrap_of_not_object (inherited_not_object found)).symm

theorem hasOwn_map : (shape.map (JsValue.unwrap targetOf)).hasOwn key = shape.hasOwn key := by
  rw [hasOwn, own_map, Option.isSome_map, hasOwn]

theorem has_map : (shape.map (JsValue.unwrap targetOf)).has key = shape.has key := by
  rw [has, own_map, has]
  cases shape.own key with
  | some value => rfl
  | none => rfl

/-- An assignment goes through, unless an object becomes the length of an
array. -/
theorem set_map (toLength : JsValue → Option Nat) {value : JsValue}
    (convertible : shape.isArray = true → key = "length" → value.isObject = false) :
    (shape.map (JsValue.unwrap targetOf)).set toLength key (value.unwrap targetOf) =
      ((shape.set toLength key value).1.map (JsValue.unwrap targetOf),
        (shape.set toLength key value).2) := by
  have changed : (fun other => if key = other then
        some (value.unwrap targetOf)
      else (shape.look other).map (JsValue.unwrap targetOf)) = fun other =>
      (if key = other then some value else shape.look other).map (JsValue.unwrap targetOf) := by
    funext other
    split <;> rfl
  obtain ⟨length, look⟩ := shape
  cases length with
  | none => simpa [set, map] using changed
  | some length =>
    by_cases isLength : key = "length"
    · have plain := convertible rfl isLength
      rw [JsValue.unwrap_of_not_object plain]
      cases converted : toLength value with
      | none => simp [set, map, isLength, converted]
      | some newLength =>
        simp only [set, map, isLength, if_true, converted]
        congr 2
        funext other
        split <;> rfl
    · simpa [set, map, isLength] using changed

theorem look_of_get {ref : ObjectRef} (found : shape.get key = .object ref) :
    shape.own key = some (.object ref) := by
  rw [get] at found
  cases own : shape.own key with
  | some value =>
    rw [own] at found
    exact congrArg some found
  | none =>
    rw [own] at found
    cases isInherited : inherited shape.isArray key with
    | none =>
      rw [isInherited] at found
      cases found
    | some value =>
      rw [isInherited] at found
      have noObject := inherited_not_object isInherited
      subst found
      cases noObject

/-- The properties under other keys than `length` are what lies there. -/
theorem own_object {ref : ObjectRef} (found : shape.own key = some (.object ref)) :
    shape.look key = some (.object ref) ∧ (shape.isArray = true → key ≠ "length") := by
  rw [own] at found
  cases length : shape.length with
  | none =>
    rw [length] at found
    have noArray : shape.isArray = false := by
      rw [Shape.isArray, length]
      rfl
    refine ⟨found, fun isArray => ?_⟩
    rw [noArray] at isArray
    cases isArray
  | some size =>
    rw [length] at found
    simp only at found
    split at found
    · cases found
    next elsewhere =>
      exact ⟨found, fun _ => elsewhere⟩

theorem set_present (toLength : JsValue → Option Nat) (value : JsValue)
    (present : (shape.look key).isSome = true)
    (notLength : shape.isArray = true → key ≠ "length") :
    shape.set toLength key value = ({ length := shape.length
                                      look := fun other =>
                                        if key = other then some value
                                        else shape.look other }, true) := by
  obtain ⟨length, look⟩ := shape
  cases length with
  | none => rfl
  | some length =>
    have elsewhere : key ≠ "length" := notLength rfl
    simp [set, elsewhere, present, lengthAfter]

variable {toLength : JsValue → Option Nat}

theorem length_isSome_set {value : JsValue} :
    (shape.set toLength key value).1.isArray = shape.isArray := by
  obtain ⟨length, look⟩ := shape
  cases length with
  | none => rfl
  | some length =>
    by_cases isLength : key = "length"
    · cases converted : toLength value <;> simp [set, isArray, isLength, converted]
    · simp [set, isArray, isLength]

theorem length_isSome_delete : (shape.delete key).1.isArray = shape.isArray := by
  rw [delete]
  split <;> rfl

theorem look_set {value held : JsValue} {other : String}
    (found : (shape.set toLength key value).1.look other = some held) :
    held = value ∨ shape.look other = some held := by
  obtain ⟨length, look⟩ := shape
  have changed : (if key = other then some value else look other) =
      some held → held = value ∨ look other = some held := by
    intro here
    split at here
    · exact .inl (Option.some.inj here).symm
    · exact .inr here
  cases length with
  | none => exact changed found
  | some length =>
    by_cases isLength : key = "length"
    · cases converted : toLength value with
      | none =>
        simp only [set, isLength, if_true, converted] at found
        exact .inr found
      | some newLength =>
        simp only [set, isLength, if_true, converted] at found
        split at found
        · exact .inr found
        · cases found
    · simp only [set, isLength, if_false] at found
      exact changed found

theorem look_delete {held : JsValue} {other : String}
    (found : (shape.delete key).1.look other = some held) :
    shape.look other = some held := by
  rw [delete] at found
  split at found
  · exact found
  · simp only at found
    split at found
    · cases found
    · exact found

theorem delete_map : (shape.map (JsValue.unwrap targetOf)).delete key =
    ((shape.delete key).1.map (JsValue.unwrap targetOf), (shape.delete key).2) := by
  by_cases isLength : shape.isArray = true ∧ key = "length"
  · have mapped : (shape.map (JsValue.unwrap targetOf)).isArray = true ∧ key = "length" := isLength
    rw [delete, if_pos mapped, delete, if_pos isLength]
  · have mapped : ¬ ((shape.map (JsValue.unwrap targetOf)).isArray = true ∧
        key = "length") := isLength
    rw [delete, if_neg mapped, delete, if_neg isLength]
    simp only [map]
    congr 2
    funext other
    split <;> rfl

end Shape

variable {copied : PlainObject}

theorem PlainObject.set_copied (toLength : JsValue → Option Nat) (same : copied.shape = shape.map (JsValue.unwrap targetOf))
    (convertible : shape.isArray = true → key = "length" → value.isObject = false) :
    (copied.set toLength key (value.unwrap targetOf)).1.shape =
        (shape.set toLength key value).1.map (JsValue.unwrap targetOf) ∧
      (copied.set toLength key (value.unwrap targetOf)).2 = (shape.set toLength key value).2 := by
  rw [PlainObject.shape_set, PlainObject.set_succeeds, same, Shape.set_map toLength convertible]
  exact ⟨rfl, rfl⟩

theorem PlainObject.delete_copied (key : String)
    (same : copied.shape = shape.map (JsValue.unwrap targetOf)) :
    (copied.delete key).1.shape = (shape.delete key).1.map (JsValue.unwrap targetOf) ∧
      (copied.delete key).2 = (shape.delete key).2 := by
  rw [PlainObject.shape_delete, PlainObject.delete_succeeds, same, Shape.delete_map]
  exact ⟨rfl, rfl⟩

end Unwrap

end N8n
