import Mathlib.Data.List.ReduceOption
import N8n.Library.FoldExcept
import N8n.Engine.NodeOutput

/-!
# Splitting the outputs of a node

Each regular output is emptied item by item, so that an array the node
returned for two of its outputs is empty when the second one is reached.
-/

namespace N8n

open Except List

/-- An output is an array which the node returned, by its reference, or one
which was made here. -/
inductive OutputItems where
  | returned (reference : Nat)
  | made (items : List INodeExecutionData)

/-- The returned arrays, where `none` is an undefined item, with the outputs
and the error items found so far. -/
structure ErrorSplit where
  arrays : Nat → List (Option INodeExecutionData)
  nodeSuccessData : SlotArray OutputItems
  errorItems : List INodeExecutionData := []

namespace ErrorSplit

section

variable (split : ErrorSplit) (outputIndex : Nat)

/-- The reference of the array at an output. -/
def referenceAt : Option Nat :=
  match (split.nodeSuccessData.at' outputIndex).value? with
  | some (.returned reference) => some reference
  | _ => none

def output : List (Option INodeExecutionData) :=
  match (split.nodeSuccessData.at' outputIndex).value? with
  | some (.returned reference) => split.arrays reference
  | some (.made items) => items.map some
  | none => []

/-- The items are taken out of the array. -/
def drain : Nat → List (Option INodeExecutionData) :=
  match split.referenceAt outputIndex with
  | some reference => Function.update split.arrays reference []
  | none => split.arrays

end

def splitOutput (getPairedItem : GetPairedItem) (executionData : IExecuteData) (split : ErrorSplit)
    (outputIndex : Nat) : Except ExecutionError ErrorSplit := do
  let (successItems, errorItems) ← splitItems getPairedItem executionData
    split.errorItems (split.output outputIndex).reduceOption
  return {
    arrays := split.drain outputIndex
    nodeSuccessData := split.nodeSuccessData.put outputIndex (.value (.made successItems))
    errorItems := errorItems }

def handleNodeErrorOutput (workflow : Workflow) (getPairedItem : GetPairedItem)
    (executionData : IExecuteData) (returned : ErrorSplit) :
    Except ExecutionError ErrorSplit := do
  let mainOutputs := workflow.numberOfMainOutputs executionData.node
  let split ← (List.range (mainOutputs - 1)).foldlM
    (splitOutput getPairedItem executionData) { returned with errorItems := [] }
  return { split with
    nodeSuccessData := split.nodeSuccessData.put ((mainOutputs : Int) - 1)
      (.value (.made split.errorItems)) }

end ErrorSplit

section Items

def INodeExecutionData.failed (item : INodeExecutionData) : Bool :=
  item.errorData.isSome

/-- The entry of the source data that a paired item names. -/
def sourceEntry (source : ITaskDataConnectionsSource)
    (pairedItemData : IPairedItemData) : Option ISourceData :=
  (source.get? .main).bind fun slots =>
    (slots.at' (pairedItemData.input.getD 0)).value?

/-- The source entry of a failed item is there if it is looked for. -/
def SourcePresent (executionData : IExecuteData) (item : INodeExecutionData) : Prop :=
  ∀ source pairedItemData, executionData.source = some source →
    item.pairedItemData = some pairedItemData → (sourceEntry source pairedItemData).isSome

/-- The answers of `$getPairedItem`: an item or `null`. -/
abbrev PairedItems :=
  String → ISourceData → IPairedItemData → Option INodeExecutionData

def pairedItemOf (paired : PairedItems) (executionData : IExecuteData)
    (item : INodeExecutionData) : Option INodeExecutionData := do
  let source ← executionData.source
  let pairedItemData ← item.pairedItemData
  let sourceData ← sourceEntry source pairedItemData
  paired sourceData.previousNode sourceData pairedItemData

/-- The failed item with the fields of the item it comes from. -/
def enriched (paired : PairedItems) (executionData : IExecuteData)
    (item : INodeExecutionData) : INodeExecutionData :=
  match pairedItemOf paired executionData item with
  | none => item
  | some constPairedItem =>
    { item with json := IDataObject.spread constPairedItem.json item.json }

variable {paired : PairedItems} {executionData : IExecuteData} {item : INodeExecutionData}

theorem errorItem_eq_ok (present : SourcePresent executionData item) :
    errorItem (fun name source data => .ok (paired name source data))
      executionData item = .ok (enriched paired executionData item) := by
  cases sourceFound : executionData.source with
  | none => simp [errorItem, enriched, pairedItemOf, sourceFound]
  | some source =>
    cases dataFound : item.pairedItemData with
    | none =>
      simp [errorItem, enriched, pairedItemOf, sourceFound, dataFound]
    | some pairedItemData =>
      obtain ⟨sourceData, entry⟩ := Option.isSome_iff_exists.mp
        (present source pairedItemData sourceFound dataFound)
      have entryFound := entry
      rw [sourceEntry] at entry
      simp only [errorItem, enriched, pairedItemOf, sourceFound,
        dataFound, entry, entryFound, Option.bind_eq_bind,
        Option.bind_some]
      cases paired sourceData.previousNode sourceData pairedItemData with
      | none => rfl
      | some constPairedItem => rfl

theorem sourcePresent_of_errorItem {getPairedItem : GetPairedItem}
    {item result : INodeExecutionData}
    (ok : errorItem getPairedItem executionData item = .ok result) :
    SourcePresent executionData item := by
  intro source pairedItemData sourceFound dataFound
  cases entry : sourceEntry source pairedItemData with
  | some sourceData => rfl
  | none =>
    rw [sourceEntry] at entry
    simp only [errorItem, sourceFound, dataFound, entry] at ok
    cases ok

def splitItem (getPairedItem : GetPairedItem) (executionData : IExecuteData)
    (found : List INodeExecutionData × List INodeExecutionData)
    (item : INodeExecutionData) :
    Except ExecutionError (List INodeExecutionData × List INodeExecutionData) :=
  match item.errorData with
  | some _ => do
    return (found.1, found.2 ++ [← errorItem getPairedItem executionData item])
  | none => return (found.1 ++ [item], found.2)

theorem splitItem_eq_ok_iff {found result : List INodeExecutionData × List INodeExecutionData} :
    splitItem (fun name source data => .ok (paired name source data))
        executionData found item = .ok result ↔
      (item.failed → SourcePresent executionData item) ∧ result = if item.failed then
            (found.1, found.2 ++ [enriched paired executionData item])
          else (found.1 ++ [item], found.2) := by
  rw [splitItem, INodeExecutionData.failed]
  cases item.errorData with
  | none =>
    simp only [Option.isSome_none, Bool.false_eq_true, false_implies, true_and, if_false]
    exact ⟨fun same => (ok.inj same).symm, fun same => same ▸ rfl⟩
  | some error =>
    simp only [Option.isSome_some, true_implies, if_true, bind_eq_ok_iff]
    constructor
    · intro ok
      obtain ⟨failed, made, same⟩ := ok
      have present := sourcePresent_of_errorItem made
      rw [errorItem_eq_ok present] at made
      cases made
      exact ⟨present, (ok.inj same).symm⟩
    · intro made
      obtain ⟨present, same⟩ := made
      exact ⟨_, errorItem_eq_ok present, same ▸ rfl⟩

theorem splitItems_eq_ok_iff {errorItems items : List INodeExecutionData}
    {result : List INodeExecutionData × List INodeExecutionData} :
    splitItems (fun name source data => .ok (paired name source data))
        executionData errorItems items = .ok result ↔
      (∀ item ∈ items, item.failed → SourcePresent executionData item) ∧
        result = (items.filter (fun item => !item.failed),
          errorItems ++ (items.filter (·.failed)).map (enriched paired executionData)) := by
  have loop : ∀ found : List INodeExecutionData × List INodeExecutionData,
      items.foldlM (splitItem (fun name source data =>
        .ok (paired name source data)) executionData) found = .ok result ↔
      (∀ item ∈ items, item.failed → SourcePresent executionData item) ∧
        result = (found.1 ++ items.filter (fun item => !item.failed),
          found.2 ++ (items.filter (·.failed)).map (enriched paired executionData)) := by
    induction items with
    | nil =>
      intro found
      simp only [foldlM_nil, not_mem_nil, false_implies,
        implies_true, true_and, filter_nil, append_nil,
        map_nil]
      exact ⟨fun same => (ok.inj same).symm, fun same => same ▸ rfl⟩
    | cons item items ih =>
      intro found
      simp only [foldlM_cons, bind_eq_ok_iff, splitItem_eq_ok_iff, ih, forall_mem_cons]
      cases failed : item.failed with
      | true => simp [failed, and_assoc]
      | false => simp [failed]
  exact loop ([], errorItems)

end Items

section Loop

variable {paired : PairedItems} {executionData : IExecuteData} {given : ErrorSplit}

namespace ErrorSplit

/-- An earlier output has this array. -/
def takenBefore (given : ErrorSplit) (outputIndex reference : Nat) : Bool :=
  (List.range outputIndex).any fun earlier =>
    given.referenceAt earlier = some reference

/-- The items of an output when the loop reaches it. -/
def reached (given : ErrorSplit) (outputIndex : Nat) : List INodeExecutionData :=
  match given.referenceAt outputIndex with
  | some reference =>
    if given.takenBefore outputIndex reference then []
    else (given.arrays reference).reduceOption
  | none => (given.output outputIndex).reduceOption

/-- The state when the loop reaches an output. -/
structure SplitTo (paired : PairedItems) (executionData : IExecuteData)
    (given : ErrorSplit) (reachedOutput : Nat) (split : ErrorSplit) :
    Prop where
  arrays : ∀ reference, split.arrays reference =
    if given.takenBefore reachedOutput reference then []
    else given.arrays reference
  done : ∀ outputIndex < reachedOutput, split.nodeSuccessData.at' outputIndex = .value (.made
      ((given.reached outputIndex).filter fun item => !item.failed))
  rest : ∀ outputIndex : Nat, reachedOutput ≤ outputIndex →
    split.nodeSuccessData.at' outputIndex = given.nodeSuccessData.at' outputIndex
  errorItems : split.errorItems = (List.range reachedOutput).flatMap fun outputIndex =>
      ((given.reached outputIndex).filter (·.failed)).map (enriched paired executionData)

variable {outputIndex reference : Nat}

theorem output_of_referenceAt (found : given.referenceAt outputIndex = some reference) :
    given.output outputIndex = given.arrays reference := by
  rw [referenceAt] at found
  rw [output]
  split at found
  next returned =>
    cases found
    rw [returned]
  · cases found

variable {split : ErrorSplit}

theorem SplitTo.referenceAt (splitTo : SplitTo paired executionData given outputIndex split) :
    split.referenceAt outputIndex = given.referenceAt outputIndex := by
  rw [ErrorSplit.referenceAt, ErrorSplit.referenceAt, splitTo.rest outputIndex (Nat.le_refl _)]

theorem SplitTo.output (splitTo : SplitTo paired executionData given outputIndex split) :
    (split.output outputIndex).reduceOption = given.reached outputIndex := by
  rw [reached]
  cases found : given.referenceAt outputIndex with
  | some reference =>
    rw [output_of_referenceAt (splitTo.referenceAt.trans found), splitTo.arrays]
    simp only
    split
    · simp
    · rfl
  | none =>
    have same := splitTo.rest outputIndex (Nat.le_refl _)
    rw [ErrorSplit.referenceAt] at found
    simp only [ErrorSplit.output, same]
    split at found
    · cases found
    next notReturned =>
      split
      next reference returned =>
        exact absurd returned (notReturned reference)
      · rfl
      · rfl

theorem takenBefore_succ : given.takenBefore (outputIndex + 1) reference =
      (given.takenBefore outputIndex reference ||
        decide (given.referenceAt outputIndex = some reference)) := by
  rw [takenBefore, range_succ, any_append]
  simp [takenBefore]

/-- The loop body without its errors. -/
def splitNext (paired : PairedItems) (executionData : IExecuteData)
    (split : ErrorSplit) (outputIndex : Nat) : ErrorSplit where
  arrays := split.drain outputIndex
  nodeSuccessData := split.nodeSuccessData.put outputIndex (.value (.made
    ((split.output outputIndex).reduceOption.filter fun item => !item.failed)))
  errorItems := split.errorItems ++ ((split.output outputIndex).reduceOption.filter (·.failed)).map
      (enriched paired executionData)

theorem splitOutput_eq_ok_iff {next : ErrorSplit} :
    splitOutput (fun name source data => .ok (paired name source data))
        executionData split outputIndex = .ok next ↔
      (∀ item ∈ (split.output outputIndex).reduceOption, item.failed →
        SourcePresent executionData item) ∧
        next = splitNext paired executionData split outputIndex := by
  rw [splitOutput]
  simp only [bind_eq_ok_iff, splitItems_eq_ok_iff]
  constructor
  · intro ok
    obtain ⟨_, ⟨present, same⟩, result⟩ := ok
    subst same
    exact ⟨present, (ok.inj result).symm⟩
  · intro ok
    obtain ⟨present, same⟩ := ok
    subst same
    exact ⟨_, ⟨present, rfl⟩, rfl⟩

theorem SplitTo.next {split : ErrorSplit} {outputIndex : Nat}
    (splitTo : SplitTo paired executionData given outputIndex split) :
    SplitTo paired executionData given (outputIndex + 1)
      (splitNext paired executionData split outputIndex) := by
  refine ⟨?_, ?_, ?_, ?_⟩
  · intro reference
    simp only [splitNext, drain, splitTo.referenceAt, takenBefore_succ]
    cases found : given.referenceAt outputIndex with
    | none => simp [splitTo.arrays]
    | some taken =>
      by_cases same : reference = taken
      · simp [same]
      · simp [Function.update_of_ne same, splitTo.arrays, Ne.symm same]
  · intro other before
    simp only [splitNext, SlotArray.at'_put, splitTo.output]
    by_cases same : outputIndex = other
    · simp [same]
    · rw [if_neg same]
      exact splitTo.done other (by omega)
  · intro other later
    simp only [splitNext, SlotArray.at'_put]
    rw [if_neg (by omega)]
    exact splitTo.rest other (by omega)
  · simp only [splitNext, splitTo.errorItems, splitTo.output]
    rw [range_succ, flatMap_append]
    simp

theorem splitTo_zero (empty : given.errorItems = []) :
    SplitTo paired executionData given 0 given := by
  refine ⟨?_, ?_, ?_, ?_⟩
  · intro reference
    simp [takenBefore]
  · intro outputIndex before
    exact absurd before (Nat.not_lt_zero _)
  · intro outputIndex _
    rfl
  · simp [empty]

theorem splitLoop (empty : given.errorItems = []) (outputs : Nat) :
    (∀ split, (List.range outputs).foldlM (splitOutput
        (fun name source data => .ok (paired name source data)) executionData)
        given = .ok split →
      (∀ outputIndex < outputs, ∀ item ∈ given.reached outputIndex,
        item.failed → SourcePresent executionData item) ∧
        SplitTo paired executionData given outputs split) ∧
    ((∀ outputIndex < outputs, ∀ item ∈ given.reached outputIndex,
        item.failed → SourcePresent executionData item) →
      ∃ split, (List.range outputs).foldlM (splitOutput
        (fun name source data => .ok (paired name source data)) executionData)
        given = .ok split) := by
  induction outputs with
  | zero =>
    refine ⟨?_, fun _ => ⟨given, rfl⟩⟩
    intro split ok
    cases ok
    exact ⟨fun outputIndex before => absurd before (Nat.not_lt_zero _), splitTo_zero empty⟩
  | succ outputs ih =>
    rw [range_succ, foldlM_append]
    simp only [foldlM_cons, foldlM_nil, bind_pure]
    constructor
    · intro split ok
      obtain ⟨before, loop, step⟩ := bind_eq_ok_iff.mp ok
      obtain ⟨present, splitTo⟩ := ih.1 before loop
      obtain ⟨last, same⟩ := splitOutput_eq_ok_iff.mp step
      subst same
      rw [splitTo.output] at last
      refine ⟨?_, splitTo.next⟩
      intro outputIndex inside
      rcases Nat.lt_succ_iff_lt_or_eq.mp inside with earlier | same
      · exact present outputIndex earlier
      · exact same ▸ last
    · intro present
      obtain ⟨before, loop⟩ := ih.2 fun outputIndex inside =>
        present outputIndex (Nat.lt_succ_of_lt inside)
      obtain ⟨_, splitTo⟩ := ih.1 before loop
      refine ⟨_, bind_eq_ok_iff.mpr ⟨before, loop, splitOutput_eq_ok_iff.mpr ⟨?_, rfl⟩⟩⟩
      rw [splitTo.output]
      exact present outputs (Nat.lt_succ_self _)

/-- No two regular outputs have the same array with items in it. -/
def NothingShared (outputs : Nat) (given : ErrorSplit) : Prop :=
  ∀ earlier later reference, earlier < later → later < outputs →
    given.referenceAt earlier = some reference →
    given.referenceAt later = some reference → (given.arrays reference).reduceOption = []

theorem reached_eq_or (given : ErrorSplit) (outputIndex : Nat) :
    given.reached outputIndex = (given.output outputIndex).reduceOption ∨
      given.reached outputIndex = [] := by
  rw [reached]
  cases found : given.referenceAt outputIndex with
  | none => exact .inl rfl
  | some reference =>
    rw [output_of_referenceAt found]
    simp only
    split
    · exact .inr rfl
    · exact .inl rfl

theorem nothingShared_iff {outputs : Nat} :
    NothingShared outputs given ↔ ∀ outputIndex < outputs, given.reached outputIndex =
        (given.output outputIndex).reduceOption := by
  constructor
  · intro nothingShared outputIndex inside
    rw [reached]
    cases found : given.referenceAt outputIndex with
    | none => rfl
    | some reference =>
      rw [output_of_referenceAt found]
      simp only
      split
      next taken =>
        obtain ⟨earlier, before, same⟩ := any_eq_true.mp taken
        exact (nothingShared earlier outputIndex reference
          (mem_range.mp before) inside (of_decide_eq_true same)
          found).symm
      · rfl
  · intro reaches earlier later reference before inside atEarlier atLater
    rw [← output_of_referenceAt atLater, ← reaches later inside, reached, atLater]
    apply if_pos
    exact any_eq_true.mpr ⟨earlier, mem_range.mpr before, decide_eq_true atEarlier⟩

end ErrorSplit

end Loop

end N8n
