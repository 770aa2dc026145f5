/-!
# JSON values

The data a workflow item carries.  Numbers are rational: no modelled function
does floating-point arithmetic on them.
-/

inductive JsonValue where
  | null
  | bool (value : Bool)
  | number (value : Rat)
  | string (value : String)
  | array (items : List JsonValue)
  | object (fields : List (String × JsonValue))

namespace JsonValue

mutual

/-- Structural equality, decided value by value. -/
def decEq : (left right : JsonValue) → Decidable (left = right)
  | .null, .null => isTrue rfl
  | .bool left, .bool right =>
    decidable_of_decidable_of_iff (p := left = right) (by simp)
  | .number left, .number right =>
    decidable_of_decidable_of_iff (p := left = right) (by simp)
  | .string left, .string right =>
    decidable_of_decidable_of_iff (p := left = right) (by simp)
  | .array left, .array right =>
    match decEqList left right with
    | isTrue equal => isTrue (by rw [equal])
    | isFalse ne => isFalse fun equal =>
      ne (JsonValue.array.inj equal)
  | .object left, .object right =>
    match decEqFields left right with
    | isTrue equal => isTrue (by rw [equal])
    | isFalse ne => isFalse fun equal =>
      ne (JsonValue.object.inj equal)
  | .null, .bool _ | .null, .number _ | .null, .string _ | .null, .array _
  | .null, .object _ | .bool _, .null | .bool _, .number _
  | .bool _, .string _ | .bool _, .array _ | .bool _, .object _
  | .number _, .null | .number _, .bool _ | .number _, .string _
  | .number _, .array _ | .number _, .object _ | .string _, .null
  | .string _, .bool _ | .string _, .number _ | .string _, .array _
  | .string _, .object _ | .array _, .null | .array _, .bool _
  | .array _, .number _ | .array _, .string _ | .array _, .object _
  | .object _, .null | .object _, .bool _ | .object _, .number _
  | .object _, .string _ | .object _, .array _ => isFalse (by simp)

def decEqList : (left right : List JsonValue) → Decidable (left = right)
  | [], [] => isTrue rfl
  | left :: lefts, right :: rights =>
    match decEq left right, decEqList lefts rights with
    | isTrue head, isTrue tail => isTrue (by rw [head, tail])
    | isFalse ne, _ => isFalse fun equal =>
      ne (List.cons.inj equal).1
    | _, isFalse ne => isFalse fun equal =>
      ne (List.cons.inj equal).2
  | [], _ :: _ | _ :: _, [] => isFalse (by simp)

def decEqFields : (left right : List (String × JsonValue)) → Decidable (left = right)
  | [], [] => isTrue rfl
  | (leftKey, left) :: lefts, (rightKey, right) :: rights =>
    if keys : leftKey = rightKey then
      match decEq left right, decEqFields lefts rights with
      | isTrue head, isTrue tail => isTrue (by rw [keys, head, tail])
      | isFalse ne, _ => isFalse fun equal =>
        ne (Prod.mk.inj (List.cons.inj equal).1).2
      | _, isFalse ne => isFalse fun equal =>
        ne (List.cons.inj equal).2
    else isFalse fun equal =>
      keys (Prod.mk.inj (List.cons.inj equal).1).1
  | [], _ :: _ | _ :: _, [] => isFalse (by simp)

end

instance : DecidableEq JsonValue := decEq

/-- The property of an object, `none` when it is undefined. -/
def property? (name : String) : JsonValue → Option JsonValue
  | .object fields => fields.lookup name
  | _ => none

/-- Whether the value is true as a condition. -/
def isTruthy : JsonValue → Bool
  | .null => false
  | .bool value => value
  | .number value => value ≠ 0
  | .string value => value ≠ ""
  | .array _ | .object _ => true

end JsonValue
