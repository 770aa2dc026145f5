import Mathlib.Data.List.Basic

/-!
# Arrays with missing elements

An element of a script array is a value, an explicit `null`, an explicit
`undefined`, or a hole left behind by a write past the end.  Reading a hole,
or reading outside the array, yields `undefined`.  Only the indexed elements
are represented: a write at a negative index adds no element.
-/

universe u

inductive Slot (α : Type u) where
  | hole
  | undefined
  | null
  | value (item : α)
deriving DecidableEq, Repr, Inhabited

namespace Slot

variable {α : Type u}

def read : Slot α → Slot α
  | .hole => .undefined
  | slot => slot

def value? : Slot α → Option α
  | .value item => some item
  | _ => none

def isNull : Slot α → Bool
  | .null => true
  | _ => false

@[simp] theorem read_null : (null : Slot α).read = null := rfl

@[simp] theorem read_value (item : α) : (value item).read = value item := rfl

@[simp] theorem value?_value (item : α) : (value item).value? = some item := rfl

@[simp] theorem value?_null : (null : Slot α).value? = none := rfl

@[simp] theorem value?_read (slot : Slot α) : slot.read.value? = slot.value? := by
  cases slot <;> rfl

@[simp] theorem read_eq_null_iff {slot : Slot α} : slot.read = null ↔ slot = null := by
  cases slot <;> simp [read]

end Slot

abbrev SlotArray (α : Type u) := List (Slot α)

namespace SlotArray

variable {α : Type u} (array : SlotArray α)

/-- `array[index]` -/
def at' (index : Int) : Slot α :=
  if index < 0 then .undefined
  else (array.getD index.toNat .hole).read

/-- `array[index] = slot` -/
def put (index : Int) (slot : Slot α) : SlotArray α :=
  if index < 0 then array
  else if index.toNat < array.length then array.set index.toNat slot
  else array ++ List.replicate (index.toNat - array.length) .hole ++ [slot]

theorem at'_put (index other : Nat) (slot : Slot α) : (array.put index slot).at' other =
      if index = other then slot.read else array.at' other := by
  simp only [at', put, Int.not_ofNat_neg, if_false, Int.toNat_natCast, List.getD_eq_getElem?_getD]
  by_cases inside : index < array.length
  · rw [if_pos inside, List.getElem?_set]
    by_cases same : index = other
    · subst same
      simp [inside]
    · simp [same]
  · rw [if_neg inside, List.append_assoc]
    by_cases before : other < array.length
    · rw [List.getElem?_append_left before, if_neg (by omega)]
    · rw [List.getElem?_append_right (by omega), List.getElem?_eq_none (Nat.le_of_not_lt before)]
      by_cases same : index = other
      · subst same
        simp
      · rw [if_neg same]
        by_cases hole : other < index
        · rw [List.getElem?_append_left (by simp; omega), List.getElem?_replicate]
          split <;> simp
        · rw [List.getElem?_eq_none (by simp; omega)]

/-- An array of `length` elements which are all `null`. -/
def nulls (length : Nat) : SlotArray α := List.replicate length .null

@[simp] theorem at'_ofNat (index : Nat) : array.at' index = (array.getD index .hole).read := by
  simp [at', Int.not_ofNat_neg]

theorem value?_at'_eq_some_iff {array : SlotArray α} {index : Int} {item : α} :
    (array.at' index).value? = some item ↔
      0 ≤ index ∧ array[index.toNat]? = some (.value item) := by
  rw [at']
  split
  next negative =>
    constructor
    · intro found
      cases found
    · rintro ⟨nonnegative, _⟩
      omega
  next nonnegative =>
    rw [Slot.value?_read, List.getD_eq_getElem?_getD]
    cases found : array[index.toNat]? with
    | none => simp [Slot.value?]
    | some slot =>
      cases slot <;> simp [Slot.value?]
      omega

theorem put_ofNat_of_lt {array : SlotArray α} {index : Nat} {slot : Slot α}
    (inside : index < array.length) :
    array.put index slot = array.set index slot := by
  simp [put, Int.not_ofNat_neg, inside]

end SlotArray
