import N8n.AugmentObject.AugmentObject
import N8n.Library.Client

/-!
# Augmented arrays

The operations that reach an array: each index, the length, and what is asked
about the properties of its own.  The proxy of `augmentArray` answers them from
the array or from `newData`, the copy that it makes when it first has to.
-/

namespace N8n

structure PropertyDescriptor (α : Type) where
  value : α
  writable : Bool
  enumerable : Bool
  configurable : Bool
deriving DecidableEq

def PropertyDescriptor.map {α β : Type} (change : α → β)
    (descriptor : PropertyDescriptor α) : PropertyDescriptor β :=
  { value := change descriptor.value
    writable := descriptor.writable
    enumerable := descriptor.enumerable
    configurable := descriptor.configurable }

/-- What a trap leaves out of a descriptor becomes undefined or false. -/
def defaultPropertyDescriptor : PropertyDescriptor JsValue :=
  { value := .undefined
    writable := false
    enumerable := true
    configurable := true }

def PlainObject.getOwnPropertyDescriptor (object : PlainObject)
    (key : String) : Option (PropertyDescriptor JsValue) :=
  (object.shape.own key).map fun value =>
    let isLength := object.shape.isArray && key = "length"
    { value := value
      writable := true
      enumerable := !isLength
      configurable := !isLength }

/-- The length that a number becomes.  Nothing else is assigned to a length
here. -/
def toArrayLength : JsValue → Option Nat
  | .number value =>
    if value.den = 1 ∧ 0 ≤ value.num ∧ value.num < 4294967296 then
      some value.num.toNat
    else none
  | _ => none

namespace Heap

variable (heap : Heap)

def getOwnPropertyDescriptorObject (target : Nat)
    (newData : OrderedMap String JsValue) (deletedProperties : List String)
    (key : String) : Option (PropertyDescriptor JsValue) :=
  if key ∈ deletedProperties then none
  else if newData.has key then
    PlainObject.getOwnPropertyDescriptor
      { length := none
        properties := newData } key
  else (heap.objectAt target).getOwnPropertyDescriptor key

def getOwnPropertyDescriptorArray (target : Nat) (newData : Option PlainObject) (key : String) :
    Option (PropertyDescriptor JsValue) :=
  match newData with
  | none => (heap.objectAt target).getOwnPropertyDescriptor key
  | some data =>
    if key = "length" then data.getOwnPropertyDescriptor key
    else some (((heap.objectAt target).getOwnPropertyDescriptor key).getD defaultPropertyDescriptor)

def getOwnPropertyDescriptor (heap : Heap) (key : String) :
    ObjectRef → Option (PropertyDescriptor JsValue)
  | .plain address => (heap.objectAt address).getOwnPropertyDescriptor key
  | .proxy index =>
    match heap.proxies[index]? with
    | some (.object target newData deletedProperties) =>
      heap.getOwnPropertyDescriptorObject target newData deletedProperties key
    | some (.array target newData) =>
      heap.getOwnPropertyDescriptorArray target newData key
    | none => none

/-- The keys of an array in the order of the language, the length apart. -/
def ownKeys (heap : Heap) : ObjectRef → List String
  | .plain address => (heap.objectAt address).properties.ownKeys
  | .proxy index =>
    match heap.proxies[index]? with
    | some (.array target newData) =>
      (newData.getD (heap.objectAt target)).properties.ownKeys
    | _ => []

/-- `Object.keys`: each key is asked for its descriptor. -/
def enumerableKeys (ref : ObjectRef) : List String :=
  (heap.ownKeys ref).filter fun key =>
    (heap.getOwnPropertyDescriptor key ref).any (·.enumerable)

end Heap

inductive ArrayStep where
  | read (index : Nat)
  | write (index : Nat) (value : WrittenValue)
  | delete (index : Nat)
  | has (index : Nat)
  | readLength
  | writeLength (value : Rat)
  | hasOwn (key : String)
  | descriptor (key : String)
  | keys

/-- The caller can also make an object of its own, and look into the objects
that an array holds. -/
inductive SessionStep where
  | onArray (array : Nat) (step : ArrayStep)
  | create (value : JsonValue)
  | field (object : Nat) (key : String)

/-- A value that was read has a number under which it can be used later. -/
inductive StepAnswer where
  | read (handle : Nat) (value : ObjectAnswer)
  | descriptor (handle : Nat) (found : Option (PropertyDescriptor ObjectAnswer))
  | done (succeeded : Bool)
  | member (found : Bool)
  | keys (names : List String)
  | noObject
deriving DecidableEq

namespace ObjectSession

variable (session : ObjectSession)

def receive (heap : Heap) (value : JsValue) : ObjectSession × StepAnswer :=
  ({ heap := heap
     handles := session.handles ++ [value] },
    .read session.handles.length (answerTo heap value))

variable (ref : ObjectRef) (key : String)

def readFrom : ObjectSession × StepAnswer :=
  let (heap, value) := session.heap.get toArrayLength key ref
  session.receive heap value

def writeTo (value : WrittenValue) : ObjectSession × StepAnswer :=
  let (loaded, newValue) := session.written value
  let (heap, assigned) := loaded.set toArrayLength key newValue ref
  ({ session with heap := heap }, .done assigned)

def deleteFrom : ObjectSession × StepAnswer :=
  let (heap, deleted) := session.heap.deleteProperty key ref
  ({ session with heap := heap }, .done deleted)

def describe : ObjectSession × StepAnswer :=
  match session.heap.getOwnPropertyDescriptor key ref with
  | none => (session, .descriptor session.handles.length none)
  | some found =>
    ({ session with handles := session.handles ++ [found.value] },
      .descriptor session.handles.length (some (found.map (answerTo session.heap))))

def onArray : ArrayStep → ObjectSession × StepAnswer
  | .read index => session.readFrom ref (toString index)
  | .write index value => session.writeTo ref (toString index) value
  | .delete index => session.deleteFrom ref (toString index)
  | .has index =>
    (session, .member (session.heap.has (toString index) ref))
  | .readLength => session.readFrom ref "length"
  | .writeLength value =>
    session.writeTo ref "length" (.data (.number value))
  | .hasOwn key => (session, .member (session.heap.hasOwn key ref))
  | .descriptor key => session.describe ref key
  | .keys => (session, .keys (session.heap.enumerableKeys ref))

/-- One elementary operation.  It takes place only where there is an array, or
another object when its fields are read. -/
def perform : Transducer ObjectSession SessionStep StepAnswer :=
  fun session step =>
    match step with
    | .onArray array step =>
      match session.handle array with
      | .object ref =>
        if session.heap.isArray ref then session.onArray ref step
        else (session, .noObject)
      | _ => (session, .noObject)
    | .create value =>
      let (heap, created) := session.heap.load value
      session.receive heap created
    | .field object key =>
      match session.handle object with
      | .object ref =>
        if session.heap.isArray ref then (session, .noObject)
        else session.readFrom ref key
      | _ => (session, .noObject)

end ObjectSession

/-- An array of plain data.  Places of it can be empty, and it can have
properties of other names. -/
structure GivenArray where
  items : List (Option JsonValue)
  named : List (String × JsonValue)

namespace GivenArray

variable (given : GivenArray)

def holes : List Nat :=
  (given.items.zipIdx.filter fun item => item.1.isNone).map Prod.snd

/-- The array with all places filled, then without the empty ones, then with
its other properties. -/
def load (given : GivenArray) (heap : Heap) : Heap × JsValue :=
  let (filled, array) := heap.load (.array (given.items.map (·.getD .null)))
  match array with
  | .object ref =>
    let emptied := given.holes.foldl (fun heap index =>
      (heap.deleteProperty (toString index) ref).1) filled
    let named := given.named.foldl (fun heap entry =>
      let (loaded, value) := heap.load entry.2
      (loaded.set toArrayLength entry.1 value ref).1) emptied
    (named, array)
  | _ => (filled, array)

def session : ObjectSession :=
  let (heap, array) := given.load {}
  { heap := heap
    handles := [array] }

def augmented : ObjectSession :=
  let (heap, array) := given.load {}
  let (heap, proxy) := heap.augment array
  { heap := heap
    handles := [proxy] }

end GivenArray

end N8n
