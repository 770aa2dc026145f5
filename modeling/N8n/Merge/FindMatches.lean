import Mathlib.Algebra.Order.BigOperators.Group.List
import Mathlib.Algebra.Order.Group.Nat
import N8n.Library.JsonValue
import N8n.Library.OrderedMap

/-!
# Matching of the Merge node

The fields to match are collected in an object that is keyed by the field of the
second input, so that of several pairs with one second field only the last one
is compared.
-/

namespace N8n

open List OrderedMap Bool

namespace MergeNode

structure PairToMatch where
  field1 : String
  field2 : String

inductive MultipleMatches where
  | all
  | first

inductive MatchFieldsJoinMode where
  | keepMatches
  | keepNonMatches
  | keepEverything
  | enrichInput1
  | enrichInput2
deriving DecidableEq

inductive MatchFieldsOutput where
  | both
  | input1
  | input2
deriving DecidableEq

structure MatchFieldsOptions where
  joinMode : Option MatchFieldsJoinMode := none
  outputDataFrom : Option MatchFieldsOutput := none
  multipleMatches : Option MultipleMatches := none
  disableDotNotation : Bool := false
  fuzzyCompare : Bool := false

structure EntryMatches (Entry : Type) where
  entry : Entry
  matchEntries : List Entry

structure FilteredData (Entry : Type) where
  matched : List (EntryMatches Entry) := []
  matched2 : List Entry := []
  unmatched1 : List Entry := []
  unmatched2 : List Entry := []

/-- How a field of an item is read, by its name or by a path.  The value is
`none` when it is undefined. -/
structure FieldAccess (Entry : Type) where
  property : Entry → String → Option JsonValue
  get : Entry → String → Option JsonValue

/-- The functions of the comparison that other packages have. -/
structure Comparison where
  isEqual : Option JsonValue → Option JsonValue → Bool
  jsonParse : String → Option JsonValue
  numberToString : Rat → String
  toLocaleLowerCase : String → String

namespace Comparison

variable (comparison : Comparison)

def isFalsy : Option JsonValue → Bool
  | some .null => true
  | some (.string value) => value = ""
  | some (.array items) => items.isEmpty
  | _ => false

/-- What does not parse is not equal. -/
def parseStringAndCompareToObject (str : String) (value : JsonValue) : Bool :=
  match comparison.jsonParse str with
  | none => false
  | some parsed => comparison.isEqual (some parsed) (some value)

/-- `typeof` of both values is the same, and neither is null. -/
def sameType : Option JsonValue → Option JsonValue → Bool
  | none, none => true
  | some (.bool _), some (.bool _) => true
  | some (.number _), some (.number _) => true
  | some (.string _), some (.string _) => true
  | some (.array _), some (.array _) => true
  | some (.array _), some (.object _) => true
  | some (.object _), some (.array _) => true
  | some (.object _), some (.object _) => true
  | _, _ => false

/-- A boolean and a string in which it is written. -/
def boolMatchesString (value : Bool) (text : String) : Bool :=
  match value with
  | true => comparison.toLocaleLowerCase text = "true" || text = "1"
  | false => comparison.toLocaleLowerCase text = "false" || text = "0"

def boolMatchesNumber (value : Bool) (number : Rat) : Bool :=
  match value with
  | true => number = 1
  | false => number = 0

/-- What is left of the comparison of two types. -/
def compareTypes (item1 item2 : Option JsonValue) : Bool :=
  match item1, item2 with
  | some (.number number), some (.string text)
  | some (.string text), some (.number number) =>
    comparison.numberToString number = text
  | some (.array items), some (.string text)
  | some (.string text), some (.array items) =>
    comparison.parseStringAndCompareToObject text (.array items)
  | some (.object fields), some (.string text)
  | some (.string text), some (.object fields) =>
    comparison.parseStringAndCompareToObject text (.object fields)
  | some (.bool value), some (.string text)
  | some (.string text), some (.bool value) =>
    comparison.boolMatchesString value text || comparison.isEqual item1 item2
  | some (.bool value), some (.number number)
  | some (.number number), some (.bool value) =>
    boolMatchesNumber value number || comparison.isEqual item1 item2
  | _, _ => comparison.isEqual item1 item2

/-- Null, `0` and `"0"` are equal from version 2 on. -/
def isZeroLike : Option JsonValue → Bool
  | some .null => true
  | some (.number value) => value = 0
  | some (.string value) => value = "0"
  | _ => false

def fuzzyCompare (useFuzzyCompare : Bool) (compareVersion : Nat)
    (item1 item2 : Option JsonValue) : Bool :=
  if !useFuzzyCompare then comparison.isEqual item1 item2
  else if sameType item1 item2 then comparison.isEqual item1 item2
  else if compareVersion ≥ 2 ∧ item1 = some .null ∧ isZeroLike item2 then true
  else if compareVersion ≥ 2 ∧ item2 = some .null ∧ isZeroLike item1 then true
  else if isFalsy item1 && isFalsy item2 then true
  else if isFalsy item1 && item2.isNone then true
  else if item1.isNone && isFalsy item2 then true
  else comparison.compareTypes item1 item2

end Comparison

section Matching

variable {Entry : Type} (access : FieldAccess Entry) (comparison : Comparison)
  (options : MatchFieldsOptions)

/-- The value of a field, read with or without dot notation. -/
def fieldValue (entry : Entry) (key : String) : Option JsonValue :=
  if options.disableDotNotation then access.property entry key
  else access.get entry key

def isEntriesEqual (item1 item2 : Option JsonValue) : Bool :=
  comparison.fuzzyCompare options.fuzzyCompare 1 item1 item2

variable (lookup : OrderedMap String (Option JsonValue))

/-- An assignment to the property of a plain object, which has no own property
with the name of its prototype. -/
def setLookup (key : String) (value : Option JsonValue) : OrderedMap String (Option JsonValue) :=
  if key = "__proto__" then lookup else lookup.set key value

def createLookup (fieldsToMatch : List PairToMatch) (entry1 : Entry) :
    OrderedMap String (Option JsonValue) :=
  fieldsToMatch.foldl (fun lookup matchCase =>
    setLookup lookup matchCase.field2 (fieldValue access options entry1 matchCase.field1)) .empty

/-- The loop through the keys of the lookup finds no difference. -/
def matchesLookup (entry2 : Entry) : Bool :=
  lookup.ownEntries.all fun expected =>
    isEntriesEqual comparison options expected.2 (fieldValue access options entry2 expected.1)

section

variable (data : List Entry)

variable (lookup : OrderedMap String (Option JsonValue))

def findAllMatches : List (Entry × Nat) :=
  data.zipIdx.filter fun entry =>
    matchesLookup access comparison options lookup entry.1

def findFirstMatch : List (Entry × Nat) :=
  (data.zipIdx.find? fun entry =>
    matchesLookup access comparison options lookup entry.1).toList

def foundMatches : List (Entry × Nat) :=
  match options.multipleMatches.getD .all with
  | .all => findAllMatches access comparison options data lookup
  | .first => findFirstMatch access comparison options data lookup

end

def groupMatches (entry : Entry) (matched : List Entry) : List (EntryMatches Entry) :=
  if options.outputDataFrom = some .both ∨ options.joinMode = some .enrichInput1 ∨
      options.joinMode = some .enrichInput2 then
    matched.map fun found => { entry, matchEntries := [found] }
  else [{ entry, matchEntries := matched }]

/-- The body of `matchesLoop`, with the indexes of `matchedInInput2`. -/
def matchEntry (fieldsToMatch : List PairToMatch) (data2 : List Entry)
    (state : FilteredData Entry × List Nat) (entry1 : Entry) :
    FilteredData Entry × List Nat :=
  let (filteredData, matchedInInput2) := state
  let lookup := createLookup access options fieldsToMatch entry1
  if lookup.ownValues.any Option.isNone then
    ({ filteredData with unmatched1 := filteredData.unmatched1 ++ [entry1] }, matchedInInput2)
  else
    let foundedMatches := foundMatches access comparison options data2 lookup
    let matched := foundedMatches.map Prod.fst
    let indexes := matchedInInput2 ++ foundedMatches.map Prod.snd
    if matched.isEmpty then
      ({ filteredData with unmatched1 := filteredData.unmatched1 ++ [entry1] }, indexes)
    else
      ({ filteredData with
          matched := filteredData.matched ++ groupMatches options entry1 matched },
        indexes)

def findMatches (input1 input2 : List Entry) (fieldsToMatch : List PairToMatch) :
    FilteredData Entry :=
  let (filteredData, matchedInInput2) :=
    input1.foldl (matchEntry access comparison options fieldsToMatch input2) ({}, [])
  { filteredData with
    matched2 := (input2.zipIdx.filter fun entry =>
      entry.2 ∈ matchedInInput2).map Prod.fst
    unmatched2 := (input2.zipIdx.filter fun entry =>
      entry.2 ∉ matchedInInput2).map Prod.fst }

/-- The field of the first item is defined and equal to the one of the second. -/
def pairAgrees (entry1 entry2 : Entry) (pair : PairToMatch) : Bool :=
  let value := fieldValue access options entry1 pair.field1
  value.isSome && isEntriesEqual comparison options value
    (fieldValue access options entry2 pair.field2)

/-- The items with this property, or the first one of them, and where they
are. -/
def selectEntries (multipleMatches : MultipleMatches) (data : List Entry)
    (property : Entry → Bool) : List (Entry × Nat) :=
  match multipleMatches with
  | .all => data.zipIdx.filter fun entry => property entry.1
  | .first => (data.zipIdx.find? fun entry => property entry.1).toList

/-- What of the second input agrees on all these pairs with an item of the
first. -/
def agreeing (pairs : List PairToMatch) (data2 : List Entry) (entry1 : Entry) :
    List (Entry × Nat) :=
  selectEntries (options.multipleMatches.getD .all) data2 fun entry2 =>
    pairs.all (pairAgrees access comparison options entry1 entry2)

end Matching

/-- Each item of the first input is matched with what is expected for it, or is
unmatched; each item of the second one is matched where it is expected. -/
structure MatchesExpected {Entry : Type} (input1 input2 : List Entry)
    (expected : Entry → List (Entry × Nat)) (output : FilteredData Entry) :
    Prop where
  matched : (output.matched.flatMap fun group =>
      group.matchEntries.map fun found => (group.entry, found)) =
    input1.flatMap fun entry1 =>
      (expected entry1).map fun found => (entry1, found.1)
  nonempty : ∀ group ∈ output.matched, group.matchEntries ≠ []
  unmatched1 : output.unmatched1 = input1.filter fun entry1 => (expected entry1).isEmpty
  matched2 : output.matched2 = (input2.zipIdx.filter fun entry =>
    entry.2 ∈ (input1.flatMap expected).map Prod.snd).map Prod.fst
  unmatched2 : output.unmatched2 = (input2.zipIdx.filter fun entry =>
    entry.2 ∉ (input1.flatMap expected).map Prod.snd).map Prod.fst

/-- The pairs that are not followed by one with the same second field, without
those of which the second field is the name of the prototype. -/
def lastPairs : List PairToMatch → List PairToMatch
  | [] => []
  | pair :: rest =>
    if pair.field2 = "__proto__" ∨ rest.any (fun other => other.field2 = pair.field2)
    then lastPairs rest
    else pair :: lastPairs rest

variable {Entry : Type} {access : FieldAccess Entry} {comparison : Comparison}
  {options : MatchFieldsOptions} {fieldsToMatch pairs : List PairToMatch}
  {entry1 entry2 : Entry} {input1 data input2 : List Entry}
  {property stronger : Entry → Bool}
  {value : Option JsonValue}

theorem mem_foldl_setLookup {start : OrderedMap String (Option JsonValue)} {key : String} :
    (key, value) ∈ (pairs.foldl (fun lookup matchCase =>
        setLookup lookup matchCase.field2
          (fieldValue access options entry1 matchCase.field1)) start).entries ↔
      (∃ pair ∈ lastPairs pairs, pair.field2 = key ∧
        fieldValue access options entry1 pair.field1 = value) ∨
      ((key, value) ∈ start.entries ∧ (key = "__proto__" ∨ ∀ pair ∈ pairs, pair.field2 ≠ key)) := by
  induction pairs generalizing start with
  | nil => simp [lastPairs]
  | cons pair rest ih =>
    rw [foldl_cons, ih, setLookup, lastPairs]
    by_cases isPrototype : pair.field2 = "__proto__"
    · grind
    · rw [if_neg isPrototype, mem_entries_set, Prod.mk.injEq]
      by_cases repeated : rest.any (fun other => other.field2 = pair.field2) = true
      · grind
      · simp only [any_eq_true, decide_eq_true_eq] at repeated
        grind

theorem mem_createLookup {key : String} :
    (key, value) ∈ (createLookup access options pairs entry1).entries ↔
      ∃ pair ∈ lastPairs pairs, pair.field2 = key ∧
        fieldValue access options entry1 pair.field1 = value := by
  rw [createLookup, mem_foldl_setLookup]
  simp [empty]

theorem all_pairAgrees_of_undefined
    (undefined : (createLookup access options pairs entry1).ownValues.any Option.isNone = true) :
    (lastPairs pairs).all (pairAgrees access comparison options entry1 entry2) =
      false := by
  obtain ⟨value, mem, isNone⟩ := any_eq_true.mp undefined
  obtain ⟨⟨key, stored⟩, entryMem, same⟩ := mem_map.mp mem
  obtain ⟨pair, isLast, _, ofPair⟩ := mem_createLookup.mp (mem_ownEntries.mp entryMem)
  rw [all_eq_false]
  refine ⟨pair, isLast, ?_⟩
  have noValue : stored = none := by
    rw [Option.isNone_iff_eq_none.mp isNone] at same
    exact same
  simp [pairAgrees, ofPair, noValue]

theorem matchesLookup_eq (defined : ¬ (createLookup access options pairs entry1).ownValues.any
      Option.isNone = true) :
    matchesLookup access comparison options (createLookup access options pairs entry1) entry2 =
      (lastPairs pairs).all (pairAgrees access comparison options entry1 entry2) := by
  rw [Bool.eq_iff_iff, matchesLookup, all_eq_true, all_eq_true]
  constructor
  · intro equal pair isLast
    have stored : (pair.field2, fieldValue access options entry1 pair.field1) ∈
        (createLookup access options pairs entry1).entries :=
      mem_createLookup.mpr ⟨pair, isLast, rfl, rfl⟩
    have agrees := equal _ (mem_ownEntries.mpr stored)
    have isDefined : (fieldValue access options entry1 pair.field1).isSome = true := by
      by_contra undefined
      apply defined
      rw [any_eq_true]
      refine ⟨_, mem_map.mpr ⟨_, mem_ownEntries.mpr stored, rfl⟩, ?_⟩
      rw [Option.isNone_iff_eq_none]
      exact Option.not_isSome_iff_eq_none.mp undefined
    rw [pairAgrees, isDefined, Bool.true_and]
    exact agrees
  · intro agrees stored mem
    obtain ⟨pair, isLast, sameKey, sameValue⟩ := mem_createLookup.mp (mem_ownEntries.mp mem)
    have both := agrees pair isLast
    rw [pairAgrees, and_eq_true] at both
    rw [← sameKey, ← sameValue]
    exact both.2

theorem selectEntries_false (multipleMatches : MultipleMatches) :
    selectEntries multipleMatches data (fun _ => false) = [] := by
  cases multipleMatches <;> simp [selectEntries]

theorem matchEntry_eq {found : List (Entry × Nat)}
    (isFound : agreeing access comparison options (lastPairs fieldsToMatch)
      input2 entry1 = found) (state : FilteredData Entry × List Nat) :
    matchEntry access comparison options fieldsToMatch input2 state entry1 = ({ state.1 with
          matched := state.1.matched ++ if found.isEmpty then []
            else groupMatches options entry1 (found.map Prod.fst)
          unmatched1 := state.1.unmatched1 ++
            if found.isEmpty then [entry1] else [] },
        state.2 ++ found.map Prod.snd) := by
  rw [matchEntry]
  split
  next undefined =>
    have nothing : found = [] := by
      rw [← isFound, agreeing]
      simp only [all_pairAgrees_of_undefined undefined]
      exact selectEntries_false _
    simp [nothing]
  next defined =>
    have byLookup : foundMatches access comparison options input2
        (createLookup access options fieldsToMatch entry1) = found := by
      rw [← isFound, foundMatches, agreeing]
      cases options.multipleMatches.getD .all with
      | all => simp only [findAllMatches, selectEntries, matchesLookup_eq defined]
      | first =>
        simp only [findFirstMatch, selectEntries, matchesLookup_eq defined]
    split <;> simp [*]

theorem foldl_matchEntry {found : Entry → List (Entry × Nat)}
    (isFound : agreeing access comparison options (lastPairs fieldsToMatch)
      input2 = found) (state : FilteredData Entry × List Nat) :
    input1.foldl (matchEntry access comparison options fieldsToMatch input2) state = ({ state.1 with
          matched := state.1.matched ++ input1.flatMap fun entry1 =>
            if (found entry1).isEmpty then []
            else groupMatches options entry1 ((found entry1).map Prod.fst)
          unmatched1 := state.1.unmatched1 ++ input1.filter fun entry1 => (found entry1).isEmpty },
        state.2 ++ (input1.flatMap found).map Prod.snd) := by
  induction input1 generalizing state with
  | nil => simp
  | cons entry1 rest ih =>
    rw [foldl_cons, ih, matchEntry_eq (congrFun isFound entry1)]
    by_cases nothing : found entry1 = []
    · simp [nothing]
    · simp [nothing]

theorem flatMap_groupMatches (matched : List Entry) :
    ((groupMatches options entry1 matched).flatMap fun group =>
        group.matchEntries.map fun found => (group.entry, found)) =
      matched.map fun found => (entry1, found) := by
  rw [groupMatches]
  split
  · induction matched with
    | nil => rfl
    | cons found rest ih =>
      rw [map_cons, flatMap_cons, ih]
      rfl
  · simp

theorem groupMatches_nonempty {matched : List Entry} (some : matched ≠ [])
    {group : EntryMatches Entry}
    (mem : group ∈ groupMatches options entry1 matched) :
    group.matchEntries ≠ [] := by
  rw [groupMatches] at mem
  split at mem
  · obtain ⟨found, _, same⟩ := mem_map.mp mem
    rw [← same]
    exact cons_ne_nil _ _
  · rw [mem_singleton.mp mem]
    exact some

theorem findMatches_matchesLastPairs (access : FieldAccess Entry)
    (comparison : Comparison) (options : MatchFieldsOptions)
    (input1 input2 : List Entry) (fieldsToMatch : List PairToMatch) :
    MatchesExpected input1 input2
      (agreeing access comparison options (lastPairs fieldsToMatch) input2)
      (findMatches access comparison options input1 input2 fieldsToMatch) := by
  rw [findMatches, foldl_matchEntry rfl]
  refine ⟨?_, ?_, ?_, ?_, ?_⟩
  · simp only [nil_append, flatMap_assoc]
    apply flatMap_congr
    intro entry1 _
    split
    next nothing =>
      rw [isEmpty_iff.mp nothing]
      rfl
    · rw [flatMap_groupMatches, map_map]
      rfl
  · intro group mem
    obtain ⟨entry1, _, inGroups⟩ := mem_flatMap.mp mem
    split at inGroups
    · exact absurd inGroups not_mem_nil
    next something =>
      apply groupMatches_nonempty _ inGroups
      intro nothing
      rw [map_eq_nil_iff] at nothing
      exact something (isEmpty_iff.mpr nothing)
  · simp
  · simp
  · simp

variable {multipleMatches : MultipleMatches}

theorem mem_selectEntries {found : Entry × Nat}
    (mem : found ∈ selectEntries multipleMatches data property) :
    property found.1 = true := by
  cases multipleMatches with
  | all => exact (mem_filter.mp mem).2
  | first =>
    rw [selectEntries, Option.mem_toList] at mem
    exact find?_some (p := fun entry : Entry × Nat => property entry.1) mem

theorem length_selectEntries_le (multipleMatches : MultipleMatches)
    (implied : ∀ entry, stronger entry = true → property entry = true) :
    (selectEntries multipleMatches data stronger).length ≤
      (selectEntries multipleMatches data property).length := by
  cases multipleMatches with
  | all =>
    rw [selectEntries, selectEntries, ← countP_eq_length_filter, ← countP_eq_length_filter]
    exact countP_mono_left fun entry _ => implied entry.1
  | first =>
    rw [selectEntries, selectEntries]
    cases found : data.zipIdx.find? fun entry => property entry.1 with
    | none =>
      rw [find?_eq_none] at found
      rw [find?_eq_none.mpr fun entry mem holds =>
        found entry mem (implied entry.1 holds)]
    | some entry => cases data.zipIdx.find? _ <;> simp

theorem selectEntries_eq (implied : ∀ entry, stronger entry = true → property entry = true)
    (all : ∀ found ∈ selectEntries multipleMatches data property, stronger found.1 = true) :
    selectEntries multipleMatches data property = selectEntries multipleMatches data stronger := by
  cases multipleMatches with
  | all =>
    apply filter_congr
    intro entry mem
    rw [Bool.eq_iff_iff]
    exact ⟨fun holds => all entry (mem_filter.mpr ⟨mem, holds⟩), implied entry.1⟩
  | first =>
    rw [selectEntries, selectEntries]
    congr 1
    cases found : data.zipIdx.find? fun entry => property entry.1 with
    | none =>
      symm
      rw [find?_eq_none] at found ⊢
      exact fun entry mem holds =>
        found entry mem (implied entry.1 holds)
    | some entry =>
      have holds : stronger entry.1 = true := by
        apply all
        rw [selectEntries, found]
        exact mem_singleton_self entry
      obtain ⟨_, before, after, split, none⟩ := find?_eq_some_iff_append.mp found
      symm
      apply find?_eq_some_iff_append.mpr
      refine ⟨holds, before, after, split, ?_⟩
      intro other mem
      have absent := none other mem
      rw [not_eq_true', eq_false_iff] at absent ⊢
      exact fun otherHolds => absent (implied _ otherHolds)

theorem eq_of_flatMap_eq {α β : Type} {items : List α} {first second : α → List β}
    (le : ∀ item ∈ items, (second item).length ≤ (first item).length)
    (same : items.flatMap first = items.flatMap second) :
    ∀ item ∈ items, first item = second item := by
  induction items with
  | nil => simp
  | cons head rest ih =>
    have headLe := le head mem_cons_self
    have restLe := fun item mem => le item (mem_cons_of_mem head mem)
    have restTotal := sum_le_sum restLe
    rw [← length_flatMap, ← length_flatMap] at restTotal
    rw [flatMap_cons, flatMap_cons] at same
    have lengths := congrArg List.length same
    rw [length_append, length_append] at lengths
    obtain ⟨sameHead, sameRest⟩ := append_inj same (by omega)
    intro item mem
    rcases mem_cons.mp mem with isHead | inRest
    · rw [isHead]
      exact sameHead
    · exact ih restLe sameRest item inRest

theorem mem_of_mem_lastPairs {pair : PairToMatch}
    (isLast : pair ∈ lastPairs pairs) : pair ∈ pairs := by
  induction pairs with
  | nil => exact isLast
  | cons head rest ih =>
    rw [lastPairs] at isLast
    split at isLast
    · exact mem_cons_of_mem head (ih isLast)
    · rcases mem_cons.mp isLast with isHead | inRest
      · exact isHead ▸ mem_cons_self
      · exact mem_cons_of_mem head (ih inRest)

theorem all_lastPairs {agrees : PairToMatch → Bool}
    (all : pairs.all agrees = true) : (lastPairs pairs).all agrees = true := by
  rw [all_eq_true] at all ⊢
  exact fun pair isLast => all pair (mem_of_mem_lastPairs isLast)

/-- The items are matched on all pairs exactly when what agrees on the last
pair of each second field agrees on the earlier pairs as well. -/
theorem findMatches_matchesAllPairs_iff (access : FieldAccess Entry)
    (comparison : Comparison) (options : MatchFieldsOptions)
    (input1 input2 : List Entry) (fieldsToMatch : List PairToMatch) :
    MatchesExpected input1 input2 (agreeing access comparison options fieldsToMatch input2)
        (findMatches access comparison options input1 input2 fieldsToMatch) ↔
      ∀ entry1 ∈ input1, ∀ found ∈ agreeing access comparison options
          (lastPairs fieldsToMatch) input2 entry1,
        fieldsToMatch.all (pairAgrees access comparison options entry1 found.1) = true := by
  have byLastPairs := findMatches_matchesLastPairs access comparison options input1
    input2 fieldsToMatch
  constructor
  · intro onAllPairs entry1 isFirst found mem
    have same := byLastPairs.matched.symm.trans onAllPairs.matched
    have selected := eq_of_flatMap_eq (fun entry _ => by
      rw [length_map, length_map]
      exact length_selectEntries_le _ fun _ => all_lastPairs) same entry1 isFirst
    have paired : (entry1, found.1) ∈ (agreeing access comparison options
        fieldsToMatch input2 entry1).map fun other => (entry1, other.1) := by
      rw [← selected]
      exact mem_map.mpr ⟨found, mem, rfl⟩
    obtain ⟨other, otherMember, sameEntry⟩ := mem_map.mp paired
    rw [← (Prod.mk.inj sameEntry).2]
    exact mem_selectEntries otherMember
  · intro enough
    have same : ∀ entry1 ∈ input1,
        agreeing access comparison options (lastPairs fieldsToMatch) input2 entry1 =
          agreeing access comparison options fieldsToMatch input2 entry1 :=
      fun entry1 isFirst =>
        selectEntries_eq (fun _ => all_lastPairs) (enough entry1 isFirst)
    have joined := flatMap_congr same
    refine ⟨?_, byLastPairs.nonempty, ?_, ?_, ?_⟩
    · rw [byLastPairs.matched]
      exact flatMap_congr fun entry1 isFirst => by rw [same entry1 isFirst]
    · rw [byLastPairs.unmatched1]
      exact filter_congr fun entry1 isFirst => by rw [same entry1 isFirst]
    · rw [← joined]
      exact byLastPairs.matched2
    · rw [← joined]
      exact byLastPairs.unmatched2

/-- Items as lists of fields, which are read by their names, and values that are
equal as they are. -/
private def fieldNames : FieldAccess (List (String × JsonValue)) :=
  { property := fun entry key => entry.lookup key
    get := fun entry key => entry.lookup key }

private def plainComparison : Comparison :=
  { isEqual := fun item1 item2 => item1 = item2
    jsonParse := fun _ => none
    numberToString := toString
    toLocaleLowerCase := String.toLower }

/-- Of two pairs with one second field the first one is not compared. -/
theorem not_matchesAllPairs_repeatedField : let input1 := [[("id", .number 1), ("code", .number 2)]]
    let input2 := [[("key", .number 2)]]
    let fieldsToMatch := [⟨"id", "key"⟩, ⟨"code", "key"⟩]
    ¬ MatchesExpected input1 input2 (agreeing fieldNames plainComparison {} fieldsToMatch input2)
      (findMatches fieldNames plainComparison {} input1 input2 fieldsToMatch) := by
  intro input1 input2 fieldsToMatch onAllPairs
  have unmatched := onAllPairs.unmatched1
  revert unmatched
  decide +kernel

end MergeNode

end N8n
