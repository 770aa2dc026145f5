import N8n.AugmentObject.PlainObject
import N8n.Library.JsonValue
import N8n.Library.Transducer

/-!
# Augmented objects

`augmentObject` and `augmentArray` put a proxy in front of an object.  The
proxy keeps what is written in `newData` and what is deleted in
`deletedProperties`, and it puts proxies in front of nested objects when they
are read.  Plain data holds no functions, dates or regular expressions, so no
object has a method `toJSON`.
-/

namespace N8n

open PlainObject

/-- The state in the closure of a proxy, next to the address of its target. -/
inductive AugmentedProxy where
  | object (target : Nat) (newData : OrderedMap String JsValue) (deletedProperties : List String)
  | array (target : Nat) (newData : Option PlainObject)

namespace AugmentedProxy

def target : AugmentedProxy → Nat
  | .object target _ _ => target
  | .array target _ => target

def isArray : AugmentedProxy → Bool
  | .object _ _ _ => false
  | .array _ _ => true

end AugmentedProxy

/-- All objects and arrays, and all proxies, in the order they were made. -/
structure Heap where
  plain : List PlainObject := []
  proxies : List AugmentedProxy := []

namespace Heap

section

variable (heap : Heap)

def objectAt (address : Nat) : PlainObject :=
  heap.plain.getD address empty

def putObject (address : Nat) (object : PlainObject) : Heap :=
  { heap with plain := heap.plain.set address object }

def putProxy (index : Nat) (proxy : AugmentedProxy) : Heap :=
  { heap with proxies := heap.proxies.set index proxy }

def allocate (object : PlainObject) : Heap × JsValue :=
  ({ heap with plain := heap.plain ++ [object] }, .object (.plain heap.plain.length))

def addProxy (proxy : AugmentedProxy) : Heap :=
  { heap with proxies := heap.proxies ++ [proxy] }

end

mutual

/-- Plain data as an object literal makes it. -/
def load (heap : Heap) : JsonValue → Heap × JsValue
  | .null => (heap, .null)
  | .bool value => (heap, .bool value)
  | .number value => (heap, .number value)
  | .string value => (heap, .string value)
  | .array items =>
    let (loaded, values) := loadItems heap items
    loaded.allocate (ofItems values)
  | .object fields =>
    let (loaded, values) := loadFields heap fields
    loaded.allocate (ofFields values)

def loadItems (heap : Heap) : List JsonValue → Heap × List JsValue
  | [] => (heap, [])
  | item :: items =>
    let (first, value) := load heap item
    let (rest, values) := loadItems first items
    (rest, value :: values)

def loadFields (heap : Heap) : List (String × JsonValue) → Heap × List (String × JsValue)
  | [] => (heap, [])
  | (key, field) :: fields =>
    let (first, value) := load heap field
    let (rest, values) := loadFields first fields
    (rest, (key, value) :: values)

end

/-- The proxy of `augmentArray` or `augmentObject`, before anything is done
with it. -/
def proxyFor (heap : Heap) (address : Nat) : AugmentedProxy :=
  if (heap.objectAt address).length.isSome then .array address none
  else .object address OrderedMap.empty []

/-- `augmentedObjects` holds the proxies, which are left as they are. -/
def augment (heap : Heap) : JsValue → Heap × JsValue
  | .object (.plain address) =>
    (heap.addProxy (heap.proxyFor address), .object (.proxy heap.proxies.length))
  | value => (heap, value)

/-- `newData[key] = value`.  Under `__proto__` this sets the prototype of
`newData` at most. -/
def assignTo (newData : OrderedMap String JsValue) (key : String)
    (value : JsValue) : OrderedMap String JsValue :=
  if key = "__proto__" then newData else newData.set key value

section Traps

variable (toLength : JsValue → Option Nat) (heap : Heap) (index target : Nat)
  (newData : OrderedMap String JsValue) (deletedProperties : List String)

section

variable (key : String)

/-- The traps of `augmentObject`. -/
def getObject : Heap × JsValue :=
  if key = "constructor" then (heap, .builtin .object "constructor")
  else if key ∈ deletedProperties then (heap, .undefined)
  else
    match newData.get? key with
    | some value => (heap, value)
    | none =>
      let value := (heap.objectAt target).get key
      let (augmented, newValue) := heap.augment value
      if newValue ≠ value then
        (augmented.putProxy index (.object target (assignTo newData key newValue)
            deletedProperties), newValue)
      else (heap, value)

def deletePropertyObject : Heap × Bool :=
  let deleted :=
    if (heap.objectAt target).hasOwn key then key :: deletedProperties
    else deletedProperties
  (heap.putProxy index (.object target (newData.delete key) deleted), true)

def setObject (value : JsValue) : Heap × Bool :=
  if value = .undefined then
    let deleted :=
      if (heap.objectAt target).has key then key :: deletedProperties
      else deletedProperties
    (heap.putProxy index (.object target (newData.delete key) deleted), true)
  else
    (heap.putProxy index (.object target (assignTo newData key value)
      (deletedProperties.filter (· ≠ key))), true)

end

section

variable (target : Nat)

section

variable (newData : OrderedMap String JsValue) (deletedProperties : List String)

def hasObject (key : String) : Bool :=
  if key ∈ deletedProperties then false
  else if newData.has key then true
  else (heap.objectAt target).has key

def hasOwnObject (key : String) : Bool :=
  if key ∈ deletedProperties then false
  else if newData.has key then true
  else (heap.objectAt target).hasOwn key

/-- `Object.keys`: the trap `ownKeys`, less the keys without a descriptor. -/
def keysObject : List String :=
  let originalKeys := (heap.objectAt target).keys
  let newKeys := newData.keys.filter (· ∉ originalKeys)
  (originalKeys ++ newKeys).filter (· ∉ deletedProperties)

end

section

variable (newData : Option PlainObject)

def getData : PlainObject :=
  newData.getD (heap.objectAt target).spread

variable (key : String)

/-- The traps of `augmentArray`. -/
def getArray : Heap × JsValue :=
  if key = "constructor" then (heap, .builtin .array "constructor")
  else
    let value := (newData.getD (heap.objectAt target)).get key
    let (augmented, newValue) := heap.augment value
    if newValue ≠ value then
      let data := heap.getData target newData
      (augmented.putProxy index (.array target (some (data.set toLength key newValue).1)), newValue)
    else (heap, value)

def deletePropertyArray : Heap × Bool :=
  let (data, deleted) := (heap.getData target newData).delete key
  (heap.putProxy index (.array target (some data)), deleted)

def setArray (value : JsValue) : Heap × Bool :=
  let (augmented, newValue) := heap.augment value
  let (data, assigned) := (heap.getData target newData).set toLength key newValue
  (augmented.putProxy index (.array target (some data)), assigned)

def hasArray : Bool :=
  (newData.getD (heap.objectAt target)).has key

/-- The descriptor of a key without one in the target is made up. -/
def hasOwnArray : Bool :=
  match newData with
  | none => (heap.objectAt target).hasOwn key
  | some _ => true

def keysArray : List String :=
  (newData.getD (heap.objectAt target)).keys

end

end

def get (heap : Heap) (key : String) : ObjectRef → Heap × JsValue
  | .plain address => (heap, (heap.objectAt address).get key)
  | .proxy index =>
    match heap.proxies[index]? with
    | some (.object target newData deletedProperties) =>
      heap.getObject index target newData deletedProperties key
    | some (.array target newData) =>
      heap.getArray toLength index target newData key
    | none => (heap, .undefined)

def set (heap : Heap) (key : String) (value : JsValue) : ObjectRef → Heap × Bool
  | .plain address =>
    let (object, assigned) := (heap.objectAt address).set toLength key value
    (heap.putObject address object, assigned)
  | .proxy index =>
    match heap.proxies[index]? with
    | some (.object target newData deletedProperties) =>
      heap.setObject index target newData deletedProperties key value
    | some (.array target newData) =>
      heap.setArray toLength index target newData key value
    | none => (heap, false)

def deleteProperty (key : String) : ObjectRef → Heap × Bool
  | .plain address =>
    let (object, deleted) := (heap.objectAt address).delete key
    (heap.putObject address object, deleted)
  | .proxy index =>
    match heap.proxies[index]? with
    | some (.object target newData deletedProperties) =>
      heap.deletePropertyObject index target newData deletedProperties key
    | some (.array target newData) =>
      heap.deletePropertyArray index target newData key
    | none => (heap, false)

def has (heap : Heap) (key : String) : ObjectRef → Bool
  | .plain address => (heap.objectAt address).has key
  | .proxy index =>
    match heap.proxies[index]? with
    | some (.object target newData deletedProperties) =>
      heap.hasObject target newData deletedProperties key
    | some (.array target newData) => heap.hasArray target newData key
    | none => false

def hasOwn (heap : Heap) (key : String) : ObjectRef → Bool
  | .plain address => (heap.objectAt address).hasOwn key
  | .proxy index =>
    match heap.proxies[index]? with
    | some (.object target newData deletedProperties) =>
      heap.hasOwnObject target newData deletedProperties key
    | some (.array target newData) => heap.hasOwnArray target newData key
    | none => false

def keys (heap : Heap) : ObjectRef → List String
  | .plain address => (heap.objectAt address).keys
  | .proxy index =>
    match heap.proxies[index]? with
    | some (.object target newData deletedProperties) =>
      heap.keysObject target newData deletedProperties
    | some (.array target newData) => heap.keysArray target newData
    | none => []

def isArray (heap : Heap) : ObjectRef → Bool
  | .plain address => (heap.objectAt address).length.isSome
  | .proxy index =>
    match heap.proxies[index]? with
    | some proxy => proxy.isArray
    | none => false

end Traps

end Heap

/-- What is written: plain data of its own, or a value that was read. -/
inductive WrittenValue where
  | data (value : JsonValue)
  | read (handle : Nat)

inductive ObjectOperation where
  | read (object : Nat) (key : String)
  | write (object : Nat) (key : String) (value : WrittenValue)
  | delete (object : Nat) (key : String)
  | has (object : Nat) (key : String)
  | hasOwn (object : Nat) (key : String)
  | keys (object : Nat)

/-- Objects are told apart by what is observed of them later. -/
inductive ObjectAnswer where
  | value (value : JsValue)
  | object (isArray : Bool)
  | done (succeeded : Bool)
  | member (found : Bool)
  | keys (names : List String)
  | noObject
deriving DecidableEq

/-- Answers agree when they are equal, key lists as sets. -/
def ObjectAnswer.Same : (answer other : ObjectAnswer) → Prop
  | .keys names, .keys others => ∀ name, name ∈ names ↔ name ∈ others
  | answer, other => answer = other

/-- The values that were read, the first object at the front. -/
structure ObjectSession where
  heap : Heap
  handles : List JsValue

namespace ObjectSession

variable (session : ObjectSession)

def handle (index : Nat) : JsValue :=
  session.handles.getD index .undefined

def answerTo (heap : Heap) : JsValue → ObjectAnswer
  | .object ref => .object (heap.isArray ref)
  | value => .value value

def written : WrittenValue → Heap × JsValue
  | .data value => session.heap.load value
  | .read handle => (session.heap, session.handle handle)

def operate (toLength : JsValue → Option Nat) :
    Transducer ObjectSession ObjectOperation ObjectAnswer :=
  fun session operation =>
    match operation with
    | .read object key =>
      match session.handle object with
      | .object ref =>
        let (heap, value) := session.heap.get toLength key ref
        ({ heap := heap
           handles := session.handles ++ [value] }, answerTo heap value)
      | _ => (session, .noObject)
    | .write object key value =>
      match session.handle object with
      | .object ref =>
        let (loaded, newValue) := session.written value
        let (heap, assigned) := loaded.set toLength key newValue ref
        ({ session with heap := heap }, .done assigned)
      | _ => (session, .noObject)
    | .delete object key =>
      match session.handle object with
      | .object ref =>
        let (heap, deleted) := session.heap.deleteProperty key ref
        ({ session with heap := heap }, .done deleted)
      | _ => (session, .noObject)
    | .has object key =>
      match session.handle object with
      | .object ref => (session, .member (session.heap.has key ref))
      | _ => (session, .noObject)
    | .hasOwn object key =>
      match session.handle object with
      | .object ref => (session, .member (session.heap.hasOwn key ref))
      | _ => (session, .noObject)
    | .keys object =>
      match session.handle object with
      | .object ref => (session, .keys (session.heap.keys ref))
      | _ => (session, .noObject)

variable (fields : List (String × JsonValue))

def ofData : ObjectSession :=
  let (heap, root) := Heap.load {} (.object fields)
  { heap := heap
    handles := [root] }

def augmented : ObjectSession :=
  let (heap, root) := Heap.load {} (.object fields)
  let (heap, proxy) := heap.augment root
  { heap := heap
    handles := [proxy] }

end ObjectSession

end N8n
