import N8n.AugmentObject.AugmentedArray

/-!
# The mutating methods of arrays

The methods of `Array.prototype` that change an array reach it through the
elementary operations only, one after the other as the language prescribes.  So
each of them is a client of the array.
-/

namespace N8n

/-- A program that uses arrays.  It has no result when it throws. -/
abbrev ArrayProgram (α : Type) := OptionT (Client SessionStep StepAnswer) α

structure ReadValue where
  handle : Nat
  answer : ObjectAnswer

namespace ArrayProgram

def perform (step : SessionStep) : ArrayProgram StepAnswer :=
  OptionT.lift (Client.request step)

def read (array index : Nat) : ArrayProgram ReadValue := do
  match ← perform (.onArray array (.read index)) with
  | .read handle answer => return ⟨handle, answer⟩
  | _ => OptionT.fail

def length (array : Nat) : ArrayProgram Nat := do
  match ← perform (.onArray array .readLength) with
  | .read _ (.value (.number value)) => return value.num.toNat
  | _ => OptionT.fail

def has (array index : Nat) : ArrayProgram Bool := do
  match ← perform (.onArray array (.has index)) with
  | .member found => return found
  | _ => OptionT.fail

/-- An assignment or a deletion that must succeed. -/
def change (array : Nat) (step : ArrayStep) : ArrayProgram Unit := do
  match ← perform (.onArray array step) with
  | .done true => return
  | _ => OptionT.fail

def set (array index : Nat) (value : WrittenValue) : ArrayProgram Unit :=
  change array (.write index value)

def delete (array index : Nat) : ArrayProgram Unit := change array (.delete index)

def setLength (array value : Nat) : ArrayProgram Unit :=
  change array (.writeLength value)

/-- The value at an index, if there is one, goes to another index. -/
def move (array source target : Nat) : ArrayProgram Unit := do
  if ← has array source then
    let value ← read array source
    set array target (.read value.handle)
  else delete array target

def setAll (array start : Nat) (values : List WrittenValue) : ArrayProgram Unit :=
  (values.zipIdx start).forM fun value => set array value.2 value.1

/-- Indices count from the end when they are negative. -/
def relativeIndex (length : Nat) (index : Int) : Nat :=
  if index < 0 then (length + index).toNat else min index.toNat length

/-- `2 ^ 53 - 1`, the largest length of what is like an array. -/
def maxLength : Nat := 9007199254740991

end ArrayProgram

inductive MethodAnswer where
  | value (answer : ObjectAnswer)
  | newArray (items : List (Option ObjectAnswer))
  | array
deriving DecidableEq

open ArrayProgram

section Methods

variable (array : Nat)

def pop : ArrayProgram MethodAnswer := do
  let len ← length array
  if len = 0 then
    setLength array 0
    return .value (.value .undefined)
  else
    let element ← read array (len - 1)
    delete array (len - 1)
    setLength array (len - 1)
    return .value element.answer

variable (items : List WrittenValue)

def push : ArrayProgram MethodAnswer := do
  let len ← length array
  let newLen := len + items.length
  if maxLength < newLen then OptionT.fail
  else
    setAll array len items
    setLength array newLen
    return .value (.value (.number newLen))

def shift : ArrayProgram MethodAnswer := do
  let len ← length array
  if len = 0 then
    setLength array 0
    return .value (.value .undefined)
  else
    let first ← read array 0
    (List.range (len - 1)).forM fun k => move array (k + 1) k
    delete array (len - 1)
    setLength array (len - 1)
    return .value first.answer

def unshift : ArrayProgram MethodAnswer := do
  let len ← length array
  let newLen := len + items.length
  if items.length = 0 then
    setLength array newLen
    return .value (.value (.number newLen))
  else if maxLength < newLen then OptionT.fail
  else
    (List.range len).reverse.forM fun k => move array k (k + items.length)
    setAll array 0 items
    setLength array newLen
    return .value (.value (.number newLen))

def readPresent (indices : List Nat) : ArrayProgram (List (Option ReadValue)) :=
  indices.mapM fun index => do
    if ← has array index then
      let value ← read array index
      return some value
    else return none

/-- The constructor of a proxy reads as `Array`, so what is removed goes into an
ordinary array. -/
def splice (start : Int) (deleteCount : Option Int)
    (items : List WrittenValue) : ArrayProgram MethodAnswer := do
  let len ← length array
  let actualStart := relativeIndex len start
  let rest := len - actualStart
  let actualDeleteCount := deleteCount.elim rest fun count => min count.toNat rest
  let newLen := len + items.length - actualDeleteCount
  if maxLength < newLen then OptionT.fail
  else
    let removed ← readPresent array (List.range' actualStart actualDeleteCount)
    let moved := len - actualDeleteCount - actualStart
    if items.length < actualDeleteCount then
      (List.range' actualStart moved).forM fun k =>
        move array (k + actualDeleteCount) (k + items.length)
      (List.range' newLen (len - newLen)).reverse.forM (delete array)
    else if actualDeleteCount < items.length then
      (List.range' actualStart moved).reverse.forM fun k =>
        move array (k + actualDeleteCount) (k + items.length)
    setAll array actualStart items
    setLength array newLen
    return .newArray (removed.map (Option.map ReadValue.answer))

def reverse : ArrayProgram MethodAnswer := do
  let len ← length array
  (List.range (len / 2)).forM fun lower => do
    let upper := len - lower - 1
    let lowerValue ← readPresent array [lower]
    let upperValue ← readPresent array [upper]
    match lowerValue, upperValue with
    | [some lowerValue], [some upperValue] =>
      set array lower (.read upperValue.handle)
      set array upper (.read lowerValue.handle)
    | [none], [some upperValue] =>
      set array lower (.read upperValue.handle)
      delete array upper
    | [some lowerValue], [none] =>
      delete array lower
      set array upper (.read lowerValue.handle)
    | _, _ => return
  return .array

/-- How the values are compared, and in which order, is up to `arrange`. -/
def sort (arrange : List ReadValue → ArrayProgram (List Nat)) : ArrayProgram MethodAnswer := do
  let len ← length array
  let items ← readPresent array (List.range len)
  let sortedList ← arrange items.reduceOption
  setAll array 0 (sortedList.map WrittenValue.read)
  (List.range' sortedList.length (len - sortedList.length)).forM (delete array)
  return .array

/-- A literal is made once. -/
def hold : WrittenValue → ArrayProgram Nat
  | .read handle => return handle
  | .data value => do
    match ← perform (.create value) with
    | .read handle _ => return handle
    | _ => OptionT.fail

/-- The same value goes to every index. -/
def fill (value : WrittenValue) (start : Int) (stop : Option Int) : ArrayProgram MethodAnswer := do
  let held ← hold value
  let len ← length array
  let first := relativeIndex len start
  let final := stop.elim len (relativeIndex len)
  (List.range' first (final - first)).forM fun k =>
    set array k (.read held)
  return .array

def copyWithin (target start : Int) (stop : Option Int) : ArrayProgram MethodAnswer := do
  let len ← length array
  let first := relativeIndex len target
  let source := relativeIndex len start
  let final := stop.elim len (relativeIndex len)
  let count := min (final - source) (len - first)
  let offsets := List.range count
  let inOrder :=
    if source < first ∧ first < source + count then offsets.reverse
    else offsets
  inOrder.forM fun k => move array (source + k) (first + k)
  return .array

end Methods

inductive ArrayMethod where
  | pop
  | push (items : List WrittenValue)
  | shift
  | unshift (items : List WrittenValue)
  | splice (start : Int) (deleteCount : Option Int) (items : List WrittenValue)
  | reverse
  | sort (arrange : List ReadValue → ArrayProgram (List Nat))
  | fill (value : WrittenValue) (start : Int) (stop : Option Int)
  | copyWithin (target start : Int) (stop : Option Int)

def ArrayMethod.program (array : Nat) : ArrayMethod → ArrayProgram MethodAnswer
  | .pop => N8n.pop array
  | .push items => N8n.push array items
  | .shift => N8n.shift array
  | .unshift items => N8n.unshift array items
  | .splice start deleteCount items => N8n.splice array start deleteCount items
  | .reverse => N8n.reverse array
  | .sort arrange => N8n.sort array arrange
  | .fill value start stop => N8n.fill array value start stop
  | .copyWithin target start stop => N8n.copyWithin array target start stop

inductive ArrayOperation where
  | step (step : SessionStep)
  | call (array : Nat) (method : ArrayMethod)

/-- A call that throws returns nothing. -/
inductive ArrayAnswer where
  | step (answer : StepAnswer)
  | returned (result : Option MethodAnswer)
deriving DecidableEq

def ArrayOperation.client : ArrayOperation → Client SessionStep StepAnswer ArrayAnswer
  | .step single => .ask single fun answer => .finish (.step answer)
  | .call array method =>
    (method.program array).run.bind fun result =>
      .finish (.returned result)

namespace ObjectSession

/-- An operation from its first elementary operation to its last. -/
def operateArray : Transducer ObjectSession ArrayOperation ArrayAnswer :=
  fun session operation => operation.client.run perform session

end ObjectSession

end N8n
