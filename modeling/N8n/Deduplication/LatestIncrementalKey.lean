import Mathlib.Data.List.Sort
import Mathlib.Order.WithBot
import N8n.Deduplication.DeduplicationHelper
import N8n.Library.FoldExcept

/-!
# Deduplication in mode `latestIncrementalKey`

The row of a context has the largest item so far, and a batch passes on what is
greater.  A context whose first batch is empty has a row without an item, with
which nothing can be compared.
-/

namespace N8n

open List

inductive DeduplicationMode where
  | entries
  | latestIncrementalKey
  | latestDate
deriving DecidableEq

inductive DeduplicationError where
  | onlyNumbers
  | incompatibleMode

def DeduplicationError.message : DeduplicationError → String
  | .onlyNumbers =>
    "Invalid value. Only numbers are supported in mode \"latestIncrementalKey\""
  | .incompatibleMode =>
    "Deduplication data was originally saved with an incompatible setting of the ‘Keep Items Where’ parameter. Try ’Clean Database’ operation to reset."

/-- What a row has: hashes, or the latest item.  A `data` that is `undefined` is
missing in the stored row. -/
inductive ProcessedValue (Item : Type) where
  | entries (data : List String)
  | latest (data : Option Item)

structure ProcessedData (Item : Type) where
  mode : DeduplicationMode
  value : ProcessedValue Item

namespace DeduplicationHelper

variable {Item Num : Type} [LinearOrder Num]

section Calls

-- `Number` of an item, or `none` where that is `NaN`
variable (toNumber : Item → Option Num)

/-- The second value may be `undefined`, whose number is `NaN`. -/
def compareValues (value1 : Item) (value2 : Option Item) : Except DeduplicationError Ordering :=
  match toNumber value1, value2.bind toNumber with
  | some num1, some num2 =>
    .ok (if num1 = num2 then .eq else if num1 > num2 then .gt else .lt)
  | _, _ => .error .onlyNumbers

/-- Of two numbers the first is the greater one. -/
def isGreater (value1 value2 : Item) : Bool :=
  match toNumber value1, toNumber value2 with
  | some num1, some num2 => num2 < num1
  | _, _ => false

section

variable (items : List Item)

/-- The sort compares each item at least once if there are two. -/
def sortEntries : Except DeduplicationError (List Item) :=
  if 2 ≤ items.length ∧ items.any (fun item => (toNumber item).isNone) then
    .error .onlyNumbers
  else
    .ok (items.insertionSort fun a b => isGreater toNumber a b = false)

/-- The body of `incomingItems.forEach`. -/
def recordLatest (latest : Option Item)
    (state : DeduplicationOutput Item × Option Item) (item : Item) :
    Except DeduplicationError (DeduplicationOutput Item × Option Item) := do
  let (returnData, largestValue) := state
  if (← compareValues toNumber item latest) = .gt then
    let recorded := { returnData with new := returnData.new ++ [item] }
    if (← compareValues toNumber item largestValue) = .gt then
      return (recorded, some item)
    else
      return (recorded, largestValue)
  else
    return ({ returnData with processed := returnData.processed ++ [item] }, largestValue)

def handleLatestModes (mode : DeduplicationMode) (processedData : Option (ProcessedData Item)) :
    Except DeduplicationError (DeduplicationOutput Item × Option (ProcessedData Item)) := do
  let incomingItems ← sortEntries toNumber items
  match processedData with
  | none =>
    return ({ new := items }, some { mode, value := .latest incomingItems.getLast? })
  | some row =>
    match row.value with
    | .entries _ => return ({}, some row)
    | .latest data =>
      let (returnData, largestValue) ← incomingItems.foldlM (recordLatest toNumber data) ({}, data)
      return (returnData, some { row with value := .latest largestValue })

variable (processedData : Option (ProcessedData Item))

def validateMode (mode : DeduplicationMode) : Except DeduplicationError Unit :=
  match processedData with
  | none => .ok ()
  | some row => if row.mode ≠ mode then .error .incompatibleMode else .ok ()

/-- `checkProcessedAndRecord` in mode `latestIncrementalKey`. -/
def checkLatestIncrementalKey :
    Except DeduplicationError (DeduplicationOutput Item × Option (ProcessedData Item)) := do
  validateMode processedData .latestIncrementalKey
  handleLatestModes toNumber items .latestIncrementalKey processedData

/-- A call that fails leaves the row as it is. -/
def recordBatch (items : List Item) : Option (ProcessedData Item) :=
  match checkLatestIncrementalKey toNumber items processedData with
  | .ok (_, row) => row
  | .error _ => processedData

/-- The row of a context for which these batches were recorded. -/
def rowAfter (batches : List (List Item)) : Option (ProcessedData Item) :=
  batches.foldl (recordBatch toNumber) none

/-- The stored item is one that no item exceeds.  Without items there is none. -/
def IsMaximum : Option Item → Prop
  | none => items = []
  | some item => item ∈ items ∧ ∀ other ∈ items, isGreater toNumber other item = false

def StoresMaximum (row : Option (ProcessedData Item)) : Prop :=
  ∃ data, row = some { mode := .latestIncrementalKey, value := .latest data } ∧
    IsMaximum toNumber items data

/-- The call does not fail, reports as new the items that are greater than all
before and the others as processed, and stores the maximum. -/
def PassesGreater (earlier : List (List Item)) (batch : List Item) : Prop :=
  ∃ returnData row, checkLatestIncrementalKey toNumber batch (rowAfter toNumber earlier) =
      .ok (returnData, row) ∧
    returnData.new.Perm (batch.filter fun item => earlier.flatten.all (isGreater toNumber item)) ∧
    returnData.processed.Perm
      (batch.filter fun item => !earlier.flatten.all (isGreater toNumber item)) ∧
    StoresMaximum toNumber (earlier ++ [batch]).flatten row

def IsNumeric : Prop :=
  ∀ item ∈ items, ∃ number, toNumber item = some number

end

end Calls

variable {toNumber : Item → Option Num} {items known : List Item} {item other : Item}
  {data : Option Item} {row : Option (ProcessedData Item)} {earlier : List (List Item)}
  {batch : List Item} {second : Num}

theorem isGreater_eq {first : Num} (ofItem : toNumber item = some first)
    (ofOther : toNumber other = some second) :
    isGreater toNumber item other = decide (second < first) := by
  rw [isGreater, ofItem, ofOther]

theorem isGreater_self (item : Item) : isGreater toNumber item item = false := by
  rw [isGreater]
  cases toNumber item with
  | none => rfl
  | some number => exact decide_eq_false (lt_irrefl number)

theorem compareValues_numeric {first : Num} (ofItem : toNumber item = some first)
    (ofOther : toNumber other = some second) :
    ∃ ordering, compareValues toNumber item (some other) = .ok ordering ∧
      (ordering = .gt ↔ isGreater toNumber item other = true) := by
  rw [compareValues, Option.bind_some, ofItem, ofOther,
    isGreater_eq ofItem ofOther, decide_eq_true_iff]
  refine ⟨_, rfl, ?_⟩
  by_cases same : first = second
  · simp [same]
  · by_cases greater : second < first
    · simp [same, greater]
    · simp [same, greater]

theorem IsMaximum.congr {others : List Item} (maximum : IsMaximum toNumber items data)
    (same : ∀ item, item ∈ items ↔ item ∈ others) :
    IsMaximum toNumber others data := by
  cases data with
  | none =>
    have isEmpty : items = [] := maximum
    subst isEmpty
    exact eq_nil_iff_forall_not_mem.mpr fun item mem =>
      not_mem_nil ((same item).mpr mem)
  | some item =>
    obtain ⟨mem, greatest⟩ := maximum
    exact ⟨(same item).mp mem, fun other otherMem => greatest other ((same other).mpr otherMem)⟩

variable {largest : Item}

theorem IsMaximum.append_of_not_greater (maximum : IsMaximum toNumber known (some largest))
    (notGreater : isGreater toNumber item largest = false) :
    IsMaximum toNumber (known ++ [item]) (some largest) := by
  obtain ⟨mem, greatest⟩ := maximum
  refine ⟨mem_append_left _ mem, ?_⟩
  intro other otherMem
  rcases mem_append.mp otherMem with inKnown | added
  · exact greatest other inKnown
  · rw [mem_singleton.mp added]
    exact notGreater

theorem IsMaximum.append_of_greater (numeric : IsNumeric toNumber (known ++ [item]))
    (maximum : IsMaximum toNumber known (some largest))
    (greater : isGreater toNumber item largest = true) :
    IsMaximum toNumber (known ++ [item]) (some item) := by
  obtain ⟨mem, greatest⟩ := maximum
  have isLast : item ∈ known ++ [item] := mem_append_right _ (mem_singleton_self item)
  refine ⟨isLast, ?_⟩
  intro other otherMem
  rcases mem_append.mp otherMem with inKnown | added
  · obtain ⟨number, ofItem⟩ := numeric item isLast
    obtain ⟨otherNumber, ofOther⟩ := numeric other otherMem
    obtain ⟨largestNumber, ofLargest⟩ := numeric largest (mem_append_left _ mem)
    have least := greatest other inKnown
    rw [isGreater_eq ofOther ofLargest, decide_eq_false_iff_not, not_lt] at least
    rw [isGreater_eq ofItem ofLargest, decide_eq_true_iff] at greater
    rw [isGreater_eq ofOther ofItem, decide_eq_false_iff_not, not_lt]
    exact least.trans greater.le
  · rw [mem_singleton.mp added]
    exact isGreater_self item

theorem all_isGreater (numeric : IsNumeric toNumber known)
    (maximum : IsMaximum toNumber known (some largest)) {number : Num}
    (ofItem : toNumber item = some number) :
    known.all (isGreater toNumber item) = isGreater toNumber item largest := by
  obtain ⟨mem, greatest⟩ := maximum
  obtain ⟨largestNumber, ofLargest⟩ := numeric largest mem
  rw [Bool.eq_iff_iff, all_eq_true]
  constructor
  · intro all
    exact all largest mem
  · intro greater other otherMem
    obtain ⟨otherNumber, ofOther⟩ := numeric other otherMem
    have least := greatest other otherMem
    rw [isGreater_eq ofOther ofLargest, decide_eq_false_iff_not, not_lt] at least
    rw [isGreater_eq ofItem ofLargest, decide_eq_true_iff] at greater
    rw [isGreater_eq ofItem ofOther, decide_eq_true_iff]
    exact least.trans_lt greater

theorem pairwise_sorted (numeric : IsNumeric toNumber items) :
    (items.insertionSort fun a b => isGreater toNumber a b = false).Pairwise
      fun a b => isGreater toNumber a b = false := by
  let number : Item → WithBot Num := toNumber
  have same : ∀ a ∈ items, ∀ b ∈ items, isGreater toNumber a b = false ↔ number a ≤ number b := by
    intro a aMem b bMem
    obtain ⟨first, ofFirst⟩ := numeric a aMem
    obtain ⟨second, ofSecond⟩ := numeric b bMem
    have isFirst : number a = (first : WithBot Num) := ofFirst
    have isSecond : number b = (second : WithBot Num) := ofSecond
    rw [isGreater_eq ofFirst ofSecond, decide_eq_false_iff_not, not_lt,
      isFirst, isSecond, WithBot.coe_le_coe]
  have mapped := map_insertionSort _ (fun a b : WithBot Num => a ≤ b) number items same
  have ordered := pairwise_insertionSort (fun a b : WithBot Num => a ≤ b) (items.map number)
  rw [← mapped, pairwise_map] at ordered
  refine ordered.imp_of_mem ?_
  intro a b aMem bMem notAfter
  exact (same a ((mem_insertionSort _).mp aMem) b ((mem_insertionSort _).mp bMem)).mpr notAfter

theorem sortEntries_numeric (numeric : IsNumeric toNumber items) :
    ∃ sorted, sortEntries toNumber items = .ok sorted ∧ sorted.Perm items ∧
      IsMaximum toNumber items sorted.getLast? := by
  have noneMissing : ¬ items.any (fun item => (toNumber item).isNone) = true := by
    rw [any_eq_true]
    intro ⟨item, mem, missing⟩
    obtain ⟨number, ofItem⟩ := numeric item mem
    rw [ofItem] at missing
    cases missing
  refine ⟨_, if_neg fun both => noneMissing both.2, perm_insertionSort _ items, ?_⟩
  generalize sortedEq : items.insertionSort (fun a b => isGreater toNumber a b = false) = sorted
  have permuted : sorted.Perm items := by
    rw [← sortedEq]
    exact perm_insertionSort _ items
  have ordered : sorted.Pairwise fun a b => isGreater toNumber a b = false := by
    rw [← sortedEq]
    exact pairwise_sorted numeric
  cases last : sorted.getLast? with
  | none =>
    rw [getLast?_eq_none_iff] at last
    subst last
    exact permuted.nil_eq.symm
  | some item =>
    obtain ⟨front, split⟩ := getLast?_eq_some_iff.mp last
    suffices ofSorted : IsMaximum toNumber sorted (some item) from
      ofSorted.congr fun item => permuted.mem_iff
    subst split
    refine ⟨mem_append_right _ (mem_singleton_self item), ?_⟩
    intro other mem
    rcases mem_append.mp mem with inFront | isLast
    · exact (pairwise_append.mp ordered).2.2 other inFront item (mem_singleton_self item)
    · rw [mem_singleton.mp isLast]
      exact isGreater_self item

variable {stored : Item} (returnData : DeduplicationOutput Item)

theorem recordLatest_numeric
    (numeric : IsNumeric toNumber (known ++ [item])) (isKnown : stored ∈ known)
    (maximum : IsMaximum toNumber known (some largest)) :
    ∃ next, recordLatest toNumber (some stored) (returnData, some largest) item =
        .ok ({ new := returnData.new ++ [item].filter fun item => isGreater toNumber item stored
               processed := returnData.processed ++
                [item].filter fun item => !isGreater toNumber item stored },
          some next) ∧
      IsMaximum toNumber (known ++ [item]) (some next) := by
  have isLast : item ∈ known ++ [item] := mem_append_right _ (mem_singleton_self item)
  obtain ⟨number, ofItem⟩ := numeric item isLast
  obtain ⟨storedNumber, ofStored⟩ := numeric stored (mem_append_left _ isKnown)
  obtain ⟨largestNumber, ofLargest⟩ := numeric largest (mem_append_left _ maximum.1)
  obtain ⟨ordering, compared, afterStored⟩ := compareValues_numeric ofItem ofStored
  obtain ⟨largestOrdering, comparedLargest, afterLargest⟩ := compareValues_numeric ofItem ofLargest
  by_cases greater : isGreater toNumber item stored = true
  · have isAfter := afterStored.mpr greater
    by_cases exceeds : isGreater toNumber item largest = true
    · refine ⟨item, ?_, maximum.append_of_greater numeric exceeds⟩
      have isLargest := afterLargest.mpr exceeds
      simp [recordLatest, compared, comparedLargest, isAfter, isLargest, greater,
        bind, Except.bind, pure, Except.pure]
    · refine ⟨largest, ?_, maximum.append_of_not_greater (Bool.not_eq_true _ ▸ exceeds)⟩
      have notLargest := afterLargest.not.mpr exceeds
      simp [recordLatest, compared, comparedLargest, isAfter, notLargest, greater,
        bind, Except.bind, pure, Except.pure]
  · refine ⟨largest, ?_, ?_⟩
    · have notAfter := afterStored.not.mpr greater
      simp [recordLatest, compared, notAfter, greater, bind, Except.bind, pure, Except.pure]
    · -- what does not exceed the stored item does not exceed the largest one
      apply maximum.append_of_not_greater
      have least := maximum.2 stored isKnown
      rw [isGreater_eq ofStored ofLargest, decide_eq_false_iff_not, not_lt] at least
      rw [isGreater_eq ofItem ofStored, decide_eq_true_iff, not_lt] at greater
      rw [isGreater_eq ofItem ofLargest, decide_eq_false_iff_not, not_lt]
      exact greater.trans least

theorem foldlM_recordLatest
    (numeric : IsNumeric toNumber (known ++ items)) (isKnown : stored ∈ known)
    (maximum : IsMaximum toNumber known (some largest)) :
    ∃ last, items.foldlM (recordLatest toNumber (some stored)) (returnData, some largest) =
        .ok ({ new := returnData.new ++ items.filter fun item => isGreater toNumber item stored
               processed := returnData.processed ++
                items.filter fun item => !isGreater toNumber item stored },
          some last) ∧
      IsMaximum toNumber (known ++ items) (some last) := by
  induction items generalizing known largest returnData with
  | nil => exact ⟨largest, by simp [pure, Except.pure], by simpa using maximum⟩
  | cons item items ih =>
    rw [append_cons] at numeric
    obtain ⟨next, recorded, nextMaximum⟩ := recordLatest_numeric returnData
        (fun other mem => numeric other (mem_append_left _ mem))
        isKnown maximum
    obtain ⟨last, folded, lastMaximum⟩ := ih _ numeric (mem_append_left _ isKnown) nextMaximum
    refine ⟨last, ?_, by rwa [append_cons]⟩
    rw [foldlM_cons, recorded]
    refine folded.trans ?_
    rw [append_assoc, append_assoc, ← filter_append, ← filter_append, singleton_append]

theorem validateMode_latest (value : ProcessedValue Item) :
    validateMode (some { mode := .latestIncrementalKey, value }) .latestIncrementalKey = .ok () :=
  rfl

theorem passesGreater_first (numeric : IsNumeric toNumber batch) :
    PassesGreater toNumber [] batch := by
  obtain ⟨sorted, isSorted, _, maximum⟩ := sortEntries_numeric numeric
  refine ⟨{ new := batch }, _, ?_, ?_, ?_, sorted.getLast?, rfl, ?_⟩
  · simp [checkLatestIncrementalKey, rowAfter, validateMode, handleLatestModes,
      isSorted, bind, Except.bind, pure, Except.pure]
  · simp
  · simp
  · simpa using maximum

theorem passesGreater_later (numeric : IsNumeric toNumber (earlier.flatten ++ batch))
    (stores : rowAfter toNumber earlier = some
      { mode := .latestIncrementalKey, value := .latest (some stored) })
    (maximum : IsMaximum toNumber earlier.flatten (some stored)) :
    PassesGreater toNumber earlier batch := by
  have batchNumeric : IsNumeric toNumber batch :=
    fun item mem => numeric item (mem_append_right _ mem)
  obtain ⟨sorted, isSorted, permuted, _⟩ := sortEntries_numeric batchNumeric
  have sortedNumeric : IsNumeric toNumber (earlier.flatten ++ sorted) := by
    intro item mem
    apply numeric item
    rw [mem_append] at mem ⊢
    exact mem.imp_right permuted.mem_iff.mp
  obtain ⟨last, folded, lastMaximum⟩ := foldlM_recordLatest {} sortedNumeric maximum.1 maximum
  have same (item : Item) (mem : item ∈ batch) :
      earlier.flatten.all (isGreater toNumber item) = isGreater toNumber item stored := by
    obtain ⟨number, ofItem⟩ := batchNumeric item mem
    exact all_isGreater (fun other mem => numeric other (mem_append_left _ mem)) maximum ofItem
  refine ⟨{ new := sorted.filter fun item => isGreater toNumber item stored
            processed := sorted.filter fun item =>
              !isGreater toNumber item stored },
    _, ?_, ?_, ?_, some last, rfl, ?_⟩
  · rw [stores, checkLatestIncrementalKey, validateMode_latest]
    simp only [handleLatestModes, isSorted, folded, bind, Except.bind, pure,
      Except.pure, nil_append]
  · rw [filter_congr same]
    exact permuted.filter _
  · rw [filter_congr fun item mem =>
      congrArg (fun greater => !greater) (same item mem)]
    exact permuted.filter _
  · refine lastMaximum.congr fun item => ?_
    rw [flatten_append, flatten_singleton, mem_append, mem_append, permuted.mem_iff]

theorem passesGreater_empty (stores : rowAfter toNumber earlier = some
      { mode := .latestIncrementalKey, value := .latest none })
    (noItems : earlier.flatten = []) : PassesGreater toNumber earlier [] := by
  refine ⟨{}, _, ?_, ?_, ?_, none, rfl, ?_⟩
  · rw [stores, checkLatestIncrementalKey, validateMode_latest]
    rfl
  · exact .refl _
  · exact .refl _
  · rw [flatten_append, noItems]
    rfl

theorem PassesGreater.stores (passes : PassesGreater toNumber earlier batch) :
    StoresMaximum toNumber (earlier ++ [batch]).flatten
      (rowAfter toNumber (earlier ++ [batch])) := by
  obtain ⟨returnData, row, checked, _, _, stores⟩ := passes
  rw [rowAfter, foldl_append, ← rowAfter, foldl_cons, foldl_nil, recordBatch, checked]
  exact stores

theorem eq_nil_of_passesGreater (noItems : earlier.flatten = [])
    (stores : StoresMaximum toNumber earlier.flatten (rowAfter toNumber earlier))
    (numeric : IsNumeric toNumber batch)
    (passes : PassesGreater toNumber earlier batch) : batch = [] := by
  obtain ⟨data, isStored, maximum⟩ := stores
  obtain ⟨sorted, isSorted, permuted, _⟩ := sortEntries_numeric numeric
  obtain ⟨returnData, row, checked, _⟩ := passes
  cases data with
  | some item =>
    rw [noItems] at maximum
    exact absurd maximum.1 not_mem_nil
  | none =>
    cases sorted with
    | nil => exact permuted.nil_eq.symm
    | cons item rest =>
      have trap : recordLatest toNumber none ({}, none) item = .error .onlyNumbers := by
        rw [recordLatest, compareValues, Option.bind_none]
        cases toNumber item <;> rfl
      rw [isStored, checkLatestIncrementalKey, validateMode_latest] at checked
      simp [handleLatestModes, isSorted, trap, bind, Except.bind] at checked

theorem passesGreater_of (numeric : IsNumeric toNumber (earlier.flatten ++ batch))
    (started : (earlier ++ [batch]).head? = some [] → (earlier ++ [batch]).flatten = []) :
    PassesGreater toNumber earlier batch := by
  induction earlier using List.reverseRecOn generalizing batch with
  | nil => exact passesGreater_first numeric
  | append_singleton earlier last ih =>
    have sameHead : (earlier ++ [last] ++ [batch]).head? = (earlier ++ [last]).head? := by
      cases earlier <;> rfl
    rw [sameHead, flatten_append, append_eq_nil_iff] at started
    have prior : PassesGreater toNumber earlier last := by
      apply ih
      · intro item mem
        apply numeric item (mem_append_left _ ?_)
        rwa [flatten_append, flatten_singleton]
      · exact fun isEmpty => (started isEmpty).1
    obtain ⟨data, isStored, maximum⟩ := prior.stores
    cases data with
    | some stored => exact passesGreater_later numeric isStored maximum
    | none =>
      have noItems : (earlier ++ [last]).flatten = [] := maximum
      have isEmpty : (earlier ++ [last]).head? = some [] := by
        cases earlier with
        | nil =>
          rw [nil_append, flatten_singleton] at noItems
          rw [noItems]
          rfl
        | cons first rest =>
          rw [cons_append, flatten_cons, append_eq_nil_iff] at noItems
          rw [noItems.1]
          rfl
      have noBatch := (started isEmpty).2
      rw [flatten_singleton] at noBatch
      subst noBatch
      exact passesGreater_empty isStored noItems

theorem flatten_eq_nil {batches : List (List Item)} (numeric : IsNumeric toNumber batches.flatten)
    (passes : ∀ earlier batch later, batches = earlier ++ batch :: later →
      PassesGreater toNumber earlier batch)
    (isEmpty : batches.head? = some []) : batches.flatten = [] := by
  induction batches using List.reverseRecOn with
  | nil => rfl
  | append_singleton earlier last ih =>
    cases earlier using List.reverseRecOn with
    | nil =>
      rw [flatten_append, flatten_singleton]
      exact Option.some.inj isEmpty
    | append_singleton before previous =>
      have numericBefore : IsNumeric toNumber (before ++ [previous]).flatten := by
        intro item mem
        apply numeric item
        rw [flatten_append]
        exact mem_append_left _ mem
      have noItems : (before ++ [previous]).flatten = [] := by
        apply ih numericBefore
        · intro earlier batch later split
          apply passes earlier batch (later ++ [last])
          rw [split, append_assoc, cons_append]
        · cases before with
          | nil | cons => exact isEmpty
      have stores := (passes before previous [last] (by rw [append_assoc]; rfl)).stores
      have numericLast : IsNumeric toNumber last := by
        intro item mem
        apply numeric item
        rw [flatten_append, flatten_singleton]
        exact mem_append_right _ mem
      have isLast := eq_nil_of_passesGreater noItems stores numericLast (passes _ last [] rfl)
      rw [flatten_append, noItems, isLast]
      rfl

/-- Every call of a sequence of batches passes on the greater items exactly when
the first batch has an item or all batches are empty. -/
theorem passesGreater_iff (batches : List (List Item))
    (numeric : IsNumeric toNumber batches.flatten) :
    (∀ earlier batch later, batches = earlier ++ batch :: later →
      PassesGreater toNumber earlier batch) ↔
      (batches.head? = some [] → batches.flatten = []) := by
  constructor
  · exact flatten_eq_nil numeric
  · intro started earlier batch later split
    subst split
    rw [flatten_append, flatten_cons] at started numeric
    apply passesGreater_of
    · intro item mem
      apply numeric item
      rw [← append_assoc]
      exact mem_append_left _ mem
    · intro isEmpty
      rw [flatten_append, flatten_singleton]
      have noItems := started (by cases earlier <;> exact isEmpty)
      rw [← append_assoc, append_eq_nil_iff] at noItems
      exact noItems.1

theorem passesGreater_unsorted : IsNumeric (some : Int → Option Int) [3, 1, 2, 5, 3] ∧
      (∀ earlier batch later, [[3, 1], [], [2, 5, 3]] = earlier ++ batch :: later →
          PassesGreater (some : Int → Option Int) earlier batch) := by
  have numeric : IsNumeric (some : Int → Option Int) [3, 1, 2, 5, 3] :=
    fun item _ => ⟨item, rfl⟩
  exact ⟨numeric, (passesGreater_iff [[3, 1], [], [2, 5, 3]] numeric).mpr (by decide)⟩

/-- An empty first batch makes the next call fail. -/
theorem not_passesGreater_emptyFirst :
    ¬ ∀ earlier batch later, [[], [1]] = earlier ++ batch :: later →
      PassesGreater (some : Int → Option Int) earlier batch := by
  intro passes
  obtain ⟨returnData, row, checked, _⟩ := passes [[]] [1] [] rfl
  cases checked

end DeduplicationHelper

end N8n
