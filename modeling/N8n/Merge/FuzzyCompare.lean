import N8n.Merge.FindMatches

/-!
# Fuzzy comparison

Both orders of two types are compared alike, and two values of one type only if
they are equal.
-/

namespace N8n

namespace MergeNode

/-- The results of `typeof` for JSON values and undefined. -/
inductive TypeOf where
  | undefined
  | boolean
  | number
  | string
  | object
deriving DecidableEq

def typeOf : Option JsonValue → TypeOf
  | none => .undefined
  | some (.bool _) => .boolean
  | some (.number _) => .number
  | some (.string _) => .string
  | some .null | some (.array _) | some (.object _) => .object

namespace Comparison

variable {comparison : Comparison} {item1 item2 : Option JsonValue}

/-- What `isEqual` of lodash is: a symmetric relation that holds only between
two values which are both null, or neither of which is, of the same type. -/
structure ComparesDeeply (comparison : Comparison) : Prop where
  symmetric : ∀ item1 item2, comparison.isEqual item1 item2 = comparison.isEqual item2 item1
  sameType : ∀ item1 item2, comparison.isEqual item1 item2 = true →
    typeOf item1 = typeOf item2 ∧ (item1 = some .null ↔ item2 = some .null)

theorem sameType_iff : sameType item1 item2 = true ↔
    item1 ≠ some .null ∧ item2 ≠ some .null ∧ typeOf item1 = typeOf item2 := by
  rcases item1 with _ | _ | _ | _ | _ | _ | _ <;>
    rcases item2 with _ | _ | _ | _ | _ | _ | _ <;> simp [sameType, typeOf]

theorem sameType_comm : sameType item1 item2 = sameType item2 item1 := by
  rw [Bool.eq_iff_iff, sameType_iff, sameType_iff]
  tauto

theorem compareTypes_comm (deep : comparison.ComparesDeeply) :
    comparison.compareTypes item1 item2 = comparison.compareTypes item2 item1 := by
  have symmetric := deep.symmetric item1 item2
  rcases item1 with _ | _ | _ | _ | _ | _ | _ <;>
    rcases item2 with _ | _ | _ | _ | _ | _ | _ <;> simp only [compareTypes, symmetric]

theorem fuzzyCompare_comm (deep : comparison.ComparesDeeply) (version : Nat) :
    comparison.fuzzyCompare true version item1 item2 =
      comparison.fuzzyCompare true version item2 item1 := by
  rw [fuzzyCompare, fuzzyCompare, sameType_comm, deep.symmetric item1 item2,
    compareTypes_comm deep, Bool.and_comm (isFalsy item1)]
  split_ifs <;> simp_all

theorem fuzzyCompare_of_isEqual (deep : comparison.ComparesDeeply) (version : Nat)
    (equal : comparison.isEqual item1 item2 = true) :
    comparison.fuzzyCompare true version item1 item2 = true := by
  obtain ⟨type, null⟩ := deep.sameType item1 item2 equal
  by_cases isNull : item1 = some .null
  · rw [isNull, null.mp isNull]
    simp [fuzzyCompare, sameType, isFalsy]
  · rw [fuzzyCompare, sameType_iff.mpr ⟨isNull, fun other => isNull (null.mpr other), type⟩]
    simpa using equal

/-- Fuzzy comparison does not depend on the order, holds of equal values, and of
two values of one type only if they are equal. -/
theorem fuzzyCompare_agrees (deep : comparison.ComparesDeeply) (version : Nat)
    (item1 item2 : Option JsonValue) :
    comparison.fuzzyCompare true version item1 item2 =
        comparison.fuzzyCompare true version item2 item1 ∧
      (comparison.isEqual item1 item2 = true →
        comparison.fuzzyCompare true version item1 item2 = true) ∧
      (item1 ≠ some .null → item2 ≠ some .null → typeOf item1 = typeOf item2 →
        comparison.isEqual item1 item2 = false →
          comparison.fuzzyCompare true version item1 item2 = false) := by
  refine ⟨fuzzyCompare_comm deep version, fuzzyCompare_of_isEqual deep version, ?_⟩
  intro notNull1 notNull2 type different
  rw [fuzzyCompare, sameType_iff.mpr ⟨notNull1, notNull2, type⟩]
  simpa using different

def structural : Comparison where
  isEqual item1 item2 := item1 = item2
  jsonParse _ := none
  numberToString number := if number = 0 then "0" else ""
  toLocaleLowerCase text := text

theorem structural_comparesDeeply : structural.ComparesDeeply where
  symmetric _ _ := decide_eq_decide.mpr eq_comm
  sameType item1 item2 equal := by
    obtain rfl : item1 = item2 := of_decide_eq_true equal
    exact ⟨rfl, Iff.rfl⟩

theorem fuzzyCompare_agrees_zero :
    structural.fuzzyCompare true 2 (some (.number 0)) (some (.string "0")) =
        structural.fuzzyCompare true 2 (some (.string "0")) (some (.number 0)) ∧
      structural.fuzzyCompare true 2 (some (.number 0)) (some (.number 0)) = true ∧
      structural.fuzzyCompare true 2 (some (.number 0)) (some (.number 1)) = false :=
  ⟨(fuzzyCompare_agrees structural_comparesDeeply 2 _ _).1,
    (fuzzyCompare_agrees structural_comparesDeeply 2 _ _).2.1 (by decide),
    (fuzzyCompare_agrees structural_comparesDeeply 2 _ _).2.2
      (by decide) (by decide) (by decide) (by decide)⟩

end Comparison

end MergeNode

end N8n
