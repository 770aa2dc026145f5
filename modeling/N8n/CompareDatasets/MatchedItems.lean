import N8n.Library.CountedEntries
import N8n.Library.FoldExcept
import N8n.Merge.FindMatches

/-!
# Matched items of Compare Datasets

A fuzzy comparison of two matched items walks the fields of the first one only,
and a mixed item is written into an item of the input.
-/

namespace N8n

open OrderedMap

namespace CompareDatasets

open MergeNode

/-- The `json` of an item, in which a field can be undefined. -/
abbrev Fields := OrderedMap String (Option JsonValue)

def property (json : Fields) (key : String) : Option JsonValue :=
  (json.get? key).join

/-- An item by its place in an input.  Each item is an object of its own. -/
inductive ItemRef where
  | input1 (index : Nat)
  | input2 (index : Nat)
deriving DecidableEq

abbrev Items := ItemRef → Fields

inductive Resolve where
  | includeBoth
  | preferInput1
  | preferInput2
  | mix
deriving DecidableEq

/-- The options with the functions of lodash.  `compareItems` makes an entry of
two items and changes none of them. -/
structure CompareNode (Made : Type) where
  fuzzyCompare : Bool := false
  nodeVersion : Nat := 2
  disableDotNotation : Bool := false
  multipleMatches : MultipleMatches := .first
  skipFields : List String := [""]
  resolve : Resolve := .includeBoth
  preferInput1 : Bool := true
  exceptFields : List String := []
  comparison : Comparison
  isEqual : Fields → Fields → Bool
  get : Fields → String → Option JsonValue
  omitFields : Fields → List String → Fields
  unset : Fields → String → Fields
  compareItems : Items → ItemRef → ItemRef → Except String Made

inductive Difference (Made : Type) where
  | input (item : ItemRef)
  | made (item : Made)

/-- `entryCopy` is kept for each item of the first input. -/
structure Compared (Made : Type) where
  items : Items
  entryCopy : Nat → Option ItemRef := fun _ => none
  different : List (Difference Made) := []

/-- `value || null` -/
def orNull : Option JsonValue → Option JsonValue
  | none | some (.bool false) | some (.number 0) | some (.string "") => some .null
  | value => value

def hasDot (field : String) : Bool := '.' ∈ field.toList

namespace CompareNode

variable {Made : Type} (node : CompareNode Made)

def isEntriesEqual : Option JsonValue → Option JsonValue → Bool :=
  node.comparison.fuzzyCompare node.fuzzyCompare node.nodeVersion

def fieldValue (json : Fields) (field : String) : Option JsonValue :=
  if node.disableDotNotation then property json field else node.get json field

def lookup (fieldsToMatch : List PairToMatch) (json : Fields) : Fields :=
  fieldsToMatch.foldl (fun lookup matchCase =>
    setLookup lookup matchCase.field2 (node.fieldValue json matchCase.field1))
    .empty

section

variable (items : Items)

/-- `findAllMatches` or `findFirstMatch` in the second input. -/
def foundMatches (length2 : Nat) (lookup : Fields) : List Nat :=
  let isMatch index := lookup.ownEntries.all fun expected =>
    node.isEntriesEqual expected.2 (node.fieldValue (items (.input2 index)) expected.1)
  match node.multipleMatches with
  | .all => (List.range length2).filter isMatch
  | .first => ((List.range length2).find? isMatch).toList

/-- What one round of `matchesLoop` finds. -/
def matchesOf (length2 : Nat) (fieldsToMatch : List PairToMatch) (index : Nat) : List Nat :=
  let lookup := node.lookup fieldsToMatch (items (.input1 index))
  if lookup.ownValues.any Option.isNone then []
  else node.foundMatches items length2 lookup

def matchedPairs (length1 length2 : Nat) (fieldsToMatch : List PairToMatch) : List (Nat × Nat) :=
  (List.range length1).flatMap fun index =>
    (node.matchesOf items length2 fieldsToMatch index).map (index, ·)

def withoutSkipped (json : Fields) : Fields :=
  if node.disableDotNotation || !node.skipFields.any hasDot then
    node.omitFields json node.skipFields
  else node.skipFields.foldl node.unset json

variable (json1 json2 : Fields)

def fieldEqual (key : String) : Bool :=
  node.isEntriesEqual (property (node.withoutSkipped json1) key)
    (property (node.withoutSkipped json2) key)

def isItemsEqual : Bool :=
  if node.fuzzyCompare then
    (node.withoutSkipped json1).ownKeys.all (node.fieldEqual json1 json2)
  else node.isEqual (node.withoutSkipped json1) (node.withoutSkipped json2)

section

variable (pair : Nat × Nat)

def preferred : ItemRef :=
  if node.preferInput1 then .input1 pair.1 else .input2 pair.2

def other : ItemRef :=
  if node.preferInput1 then .input2 pair.2 else .input1 pair.1

def exceptValue (json : Fields) (field : String) : Option JsonValue :=
  if node.disableDotNotation then property json field
  else orNull (node.get json field)

/-- Both assignments of a field are to the item of the input. -/
def combineItems (entry other : ItemRef) : Items :=
  node.exceptFields.foldl (fun items field =>
    let items := Function.update items entry
      ((items entry).set field (property (items other) field))
    Function.update items entry
      ((items entry).set field (node.exceptValue (items other) field))) items

/-- One comparison of matched items. -/
def comparePair (state : Compared Made) (pair : Nat × Nat) : Except String (Compared Made) :=
  let item1 := ItemRef.input1 pair.1
  let item2 := ItemRef.input2 pair.2
  if node.isItemsEqual (state.items item1) (state.items item2) then
    let copy := if node.fuzzyCompare && node.resolve = .preferInput2 then item2
      else item1
    .ok { state with
      entryCopy := Function.update state.entryCopy pair.1
        ((state.entryCopy pair.1).or (some copy)) }
  else
    match node.resolve with
    | .preferInput1 =>
      .ok { state with different := state.different ++ [.input item1] }
    | .preferInput2 =>
      .ok { state with different := state.different ++ [.input item2] }
    | .mix =>
      .ok { state with
        items := node.combineItems state.items (node.preferred pair) (node.other pair)
        different := state.different ++ [.input (node.preferred pair)] }
    | .includeBoth => do
      let made ← node.compareItems state.items item1 item2
      return { state with different := state.different ++ [.made made] }

/-- The unmatched items, what is the same, the differences, and the items as
they are then. -/
def findMatches (length1 length2 : Nat) (fieldsToMatch : List PairToMatch) : Except String
      ((List Nat × List ItemRef × List (Difference Made) × List Nat) × Items) :=
  match node.skipFields.find? fun field =>
      node.disableDotNotation && hasDot field with
  | some fieldToSkip =>
    .error s!"Dot notation is disabled, but field to skip comparing '{fieldToSkip}' contains dot"
  | none => do
    let found := node.matchesOf items length2 fieldsToMatch
    let state ← (node.matchedPairs items length1 length2 fieldsToMatch).foldlM
      node.comparePair { items }
    return (((List.range length1).filter fun index => (found index).isEmpty,
      (List.range length1).filterMap state.entryCopy, state.different,
      (List.range length2).filter fun index =>
        (List.range length1).all fun first => index ∉ found first), state.items)

/-- The fields that are present in either item and not skipped are equal. -/
def FieldsAgree : Prop :=
  let json1 := items (.input1 pair.1)
  let json2 := items (.input2 pair.2)
  ∀ key ∈ (node.withoutSkipped json1).keys ++ (node.withoutSkipped json2).keys,
    node.fieldEqual json1 json2 key = true

/-- What an entry for a pair is made of, among the items that are left. -/
def BuiltFrom (items left : Items) (pair : Nat × Nat) (entry : Difference Made) : Prop :=
  match node.resolve with
  | .preferInput1 => entry = .input (.input1 pair.1)
  | .preferInput2 => entry = .input (.input2 pair.2)
  | .mix => entry = .input (node.preferred pair) ∧ ∀ key,
    property (left (node.preferred pair)) key =
      if key ∈ node.exceptFields then node.fieldValue (items (node.other pair)) key
      else property (items (node.preferred pair)) key
  | .includeBoth => ∃ made, entry = .made made ∧
    node.compareItems items (.input1 pair.1) (.input2 pair.2) = .ok made

/-- A pair is the same, or is one difference, and no item is changed. -/
structure HandlesPair (state next : Compared Made) (pair : Nat × Nat) : Prop where
  unchanged : next.items = state.items
  same : node.FieldsAgree state.items pair →
    next.different = state.different ∧ (next.entryCopy pair.1).isSome
  different : ¬ node.FieldsAgree state.items pair →
    next.entryCopy = state.entryCopy ∧ ∃ entry,
      next.different = state.different ++ [entry] ∧ node.BuiltFrom state.items next.items pair entry

/-- Every pair is handled so, one after the other. -/
def Classifies : List (Nat × Nat) → Compared Made → Prop
  | [], _ => True
  | pair :: rest, state => ∀ next, node.comparePair state pair = .ok next →
    node.HandlesPair state next pair ∧ Classifies rest next

/-- A fuzzy comparison overlooks no difference in a field of the second item
only, and a strict one sees none between a missing and an undefined field. -/
def SeesAllFields : Prop :=
  let json1 := items (.input1 pair.1)
  let json2 := items (.input2 pair.2)
  if node.fuzzyCompare then
    (∀ key ∈ (node.withoutSkipped json1).keys,
      node.fieldEqual json1 json2 key = true) → node.FieldsAgree items pair
  else node.FieldsAgree items pair → ∀ key,
    key ∈ (node.withoutSkipped json1).keys ↔ key ∈ (node.withoutSkipped json2).keys

/-- A preferred item that differs holds the excepted values of the other one
already, and they do not become null. -/
def KeepsPreferred : Prop :=
  node.resolve = .mix → ¬ node.FieldsAgree items pair → ∀ field ∈ node.exceptFields, ∃ value,
      (items (node.preferred pair)).get? field = some value ∧
      node.exceptValue (items (node.other pair)) field = value ∧
      node.fieldValue (items (node.other pair)) field = value

end

end

/-- Two objects are equal if they have the same fields with equal values. -/
def ComparesObjects : Prop :=
  ∀ json1 json2, node.isEqual json1 json2 = true ↔ (∀ key, key ∈ json1.keys ↔ key ∈ json2.keys) ∧
      ∀ key ∈ json1.keys, node.comparison.isEqual (property json1 key) (property json2 key) = true

variable {node} {items : Items} {pair : Nat × Nat} {state next last : Compared Made}
  {fields : List String} {value : String → Option JsonValue} {json : Fields}

theorem seesAllFields_iff (objects : node.ComparesObjects) : node.SeesAllFields items pair ↔
      (node.isItemsEqual (items (.input1 pair.1)) (items (.input2 pair.2)) = true ↔
        node.FieldsAgree items pair) := by
  simp only [SeesAllFields, isItemsEqual, FieldsAgree, List.forall_mem_append]
  cases fuzzy : node.fuzzyCompare with
  | true =>
    simp only [if_true, List.all_eq_true, mem_ownKeys]
    tauto
  | false =>
    have strict : node.isEntriesEqual = node.comparison.isEqual := by
      funext value1 value2
      simp [isEntriesEqual, Comparison.fuzzyCompare, fuzzy]
    simp only [Bool.false_eq_true, if_false, objects _ _, fieldEqual, strict]
    constructor
    · intro sees
      refine ⟨?_, fun agree => ⟨sees agree, agree.1⟩⟩
      rintro ⟨same, agree⟩
      exact ⟨agree, fun key mem => agree key ((same key).mpr mem)⟩
    · exact fun both agree => (both.mpr agree).1

theorem setFields_eq_self (holds : ∀ field ∈ fields, json.get? field = some (value field)) :
    fields.foldl (fun json field => json.set field (value field)) json = json := by
  induction fields with
  | nil => rfl
  | cons field fields ih =>
    rw [List.foldl_cons, set_eq_self (holds field List.mem_cons_self)]
    exact ih fun other mem => holds other (List.mem_cons_of_mem field mem)

theorem combineItems_eq {entry other : ItemRef} (ne : other ≠ entry) :
    node.combineItems items entry other = Function.update items entry
      (node.exceptFields.foldl (fun json field =>
        json.set field (node.exceptValue (items other) field)) (items entry)) := by
  rw [combineItems]
  generalize node.exceptFields = fields
  induction fields generalizing items with
  | nil => exact (Function.update_eq_self entry items).symm
  | cons field fields ih =>
    rw [List.foldl_cons, ih]
    simp [Function.update_of_ne ne, set_set]

theorem combineItems_eq_self_iff {entry other : ItemRef} (ne : other ≠ entry) :
    node.combineItems items entry other = items ↔ ∀ field ∈ node.exceptFields,
      (items entry).get? field = some (node.exceptValue (items other) field) := by
  rw [combineItems_eq ne, Function.update_eq_self_iff]
  constructor
  · intro same field mem
    rw [← same, get?_foldl_set_keys, if_pos mem]
  · exact setFields_eq_self

theorem handlesPair_iff_of_different {entry : Difference Made}
    (copies : next.entryCopy = state.entryCopy)
    (grown : next.different = state.different ++ [entry]) :
    node.HandlesPair state next pair ↔ ¬ node.FieldsAgree state.items pair ∧
      next.items = state.items ∧ node.BuiltFrom state.items next.items pair entry := by
  constructor
  · intro handles
    have differs : ¬ node.FieldsAgree state.items pair := by
      intro agree
      have same := (handles.same agree).1
      simp [grown] at same
    obtain ⟨_, built, listed, isBuilt⟩ := handles.different differs
    rw [grown] at listed
    obtain rfl : entry = built := by simpa using listed
    exact ⟨differs, handles.unchanged, isBuilt⟩
  · rintro ⟨differs, unchanged, isBuilt⟩
    exact ⟨unchanged, fun agree => absurd agree differs, fun _ => ⟨copies, entry, grown, isBuilt⟩⟩

theorem handlesPair_iff (objects : node.ComparesObjects)
    (compared : node.comparePair state pair = .ok next) :
    node.HandlesPair state next pair ↔ node.SeesAllFields state.items pair ∧
        node.KeepsPreferred state.items pair := by
  rw [seesAllFields_iff objects]
  simp only [comparePair] at compared
  split at compared
  next isEqual =>
    cases compared
    constructor
    · intro handles
      have agree : node.FieldsAgree state.items pair := by
        by_contra differs
        obtain ⟨_, _, grown, _⟩ := handles.different differs
        simp at grown
      exact ⟨iff_of_true isEqual agree, fun _ differs => absurd agree differs⟩
    · rintro ⟨same, _⟩
      have agree := same.mp isEqual
      exact ⟨rfl, fun _ => ⟨rfl, by simp⟩, fun differs => absurd agree differs⟩
  next notEqual =>
    rw [iff_false_left notEqual]
    cases resolve : node.resolve with
    | preferInput1 | preferInput2 =>
      rw [resolve] at compared
      cases compared
      refine Iff.trans (handlesPair_iff_of_different rfl rfl) ?_
      simp [BuiltFrom, KeepsPreferred, resolve]
    | includeBoth =>
      rw [resolve] at compared
      obtain ⟨made, isMade, result⟩ := Except.bind_eq_ok_iff.mp compared
      cases result
      refine Iff.trans (handlesPair_iff_of_different rfl rfl) ?_
      simp [BuiltFrom, KeepsPreferred, resolve, isMade]
    | mix =>
      rw [resolve] at compared
      cases compared
      refine Iff.trans (handlesPair_iff_of_different rfl rfl) ?_
      have ne : node.other pair ≠ node.preferred pair := by
        rw [other, preferred]
        split <;> simp
      simp only [BuiltFrom, KeepsPreferred, resolve, true_and, forall_const]
      apply and_congr_right
      intro differs
      constructor
      · rintro ⟨unchanged, mixed⟩ _ field mem
        have held := (combineItems_eq_self_iff ne).mp unchanged field mem
        have taken := mixed field
        rw [unchanged, if_pos mem, property, held] at taken
        exact ⟨_, held, rfl, taken.symm⟩
      · intro keeps
        have unchanged := (combineItems_eq_self_iff ne).mpr fun field mem => by
          obtain ⟨value, held, rfl, _⟩ := keeps differs field mem
          exact held
        refine ⟨unchanged, fun key => ?_⟩
        rw [unchanged]
        split
        next mem =>
          obtain ⟨value, held, _, taken⟩ := keeps differs key mem
          rw [property, held, taken]
          rfl
        · rfl

theorem classifies_iff (objects : node.ComparesObjects) {pairs : List (Nat × Nat)}
    (returned : pairs.foldlM node.comparePair state = .ok last) :
    node.Classifies pairs state ↔ ∀ pair ∈ pairs,
      node.SeesAllFields state.items pair ∧ node.KeepsPreferred state.items pair := by
  induction pairs generalizing state with
  | nil => simp [Classifies]
  | cons pair rest ih =>
    obtain ⟨next, compared, remaining⟩ := Except.bind_eq_ok_iff.mp returned
    rw [List.forall_mem_cons, ← handlesPair_iff objects compared]
    constructor
    · intro classifies
      obtain ⟨handles, later⟩ := classifies next compared
      exact ⟨handles, handles.unchanged ▸ (ih remaining).mp later⟩
    · rintro ⟨handles, later⟩ other same
      cases compared.symm.trans same
      exact ⟨handles, (ih remaining).mpr (handles.unchanged.symm ▸ later)⟩

end CompareNode

namespace CompareExample

def options : CompareNode Unit where
  comparison :=
    { isEqual := fun item1 item2 => item1 = item2
      jsonParse := fun _ => none
      numberToString := toString
      toLocaleLowerCase := String.toLower }
  isEqual json1 json2 := json1.keys.all (· ∈ json2.keys) && json2.keys.all (· ∈ json1.keys) &&
      json1.keys.all fun key => property json1 key = property json2 key
  get := property
  omitFields := List.foldl delete
  unset := delete
  compareItems _ _ _ := .ok ()

def fuzzy : CompareNode Unit := { options with fuzzyCompare := true }

def mixed : CompareNode Unit :=
  { options with
    resolve := .mix
    exceptFields := ["price"] }

def items : Items
  | .input1 _ => empty.set "id" (some (.number 1))
  | .input2 _ => (empty.set "id" (some (.number 1))).set "price" (some (.number 5))

theorem fuzzy_comparesObjects : fuzzy.ComparesObjects := by
  intro json1 json2
  simp only [fuzzy, options, Bool.and_eq_true, List.all_eq_true, decide_eq_true_eq]
  grind

end CompareExample

end CompareDatasets

end N8n
