import Mathlib.Algebra.Order.BigOperators.Group.List
import Mathlib.Algebra.Order.Group.Nat
import N8n.Engine.SplitOutputs

/-!
# The error output

The failed items of a node are moved to its error output, each with the fields
of the item it comes from.  The source of a failed item is only looked for if
there is any source data, and then it has to be there.
-/

namespace N8n

open List ErrorSplit OrderedMap SlotArray

section Outcome

variable {paired : PairedItems} {executionData : IExecuteData}

theorem lookupIn_spread {object other : IDataObject}
    (nodup : (other.map Prod.fst).Nodup) (field : String) :
    lookupIn field (object.spread other) = (lookupIn field other).or (lookupIn field object) := by
  induction other generalizing object with
  | nil => simp [IDataObject.spread, lookupIn]
  | cons entry other ih =>
    obtain ⟨key, value⟩ := entry
    rw [map_cons, nodup_cons] at nodup
    refine (ih nodup.2).trans ?_
    simp only [IDataObject.setField, lookupIn_setIn]
    by_cases same : key = field
    · subst same
      rw [lookupIn_eq_none_iff.mpr nodup.1]
      simp [lookupIn]
    · simp [lookupIn, same]

/-- The item is in the error output as it is, but for the fields which it
takes over from the item it comes from. -/
structure ErrorItemOf (paired : PairedItems) (executionData : IExecuteData)
    (item result : INodeExecutionData) : Prop where
  rest : result = { item with json := result.json }
  fields : (item.json.map Prod.fst).Nodup → ∀ field, lookupIn field result.json =
      (lookupIn field item.json).or
        ((pairedItemOf paired executionData item).bind fun constPairedItem =>
          lookupIn field constPairedItem.json)

theorem errorItemOf_enriched (item : INodeExecutionData) :
    ErrorItemOf paired executionData item (enriched paired executionData item) := by
  rw [enriched]
  cases found : pairedItemOf paired executionData item with
  | none =>
    refine ⟨rfl, fun _ field => ?_⟩
    rw [found, Option.bind_none, Option.or_none]
  | some constPairedItem =>
    refine ⟨rfl, fun nodup field => ?_⟩
    rw [found, Option.bind_some]
    exact lookupIn_spread nodup field

/-- The regular items stay in their outputs, and the failed items are in the
last output, in the order of the outputs. -/
structure SplitsErrors (paired : PairedItems) (executionData : IExecuteData)
    (mainOutputs : Nat) (returned result : ErrorSplit) : Prop where
  regular : ∀ outputIndex < mainOutputs - 1, result.output outputIndex =
      ((returned.output outputIndex).reduceOption.filter fun item => !item.failed).map some
  failed : 0 < mainOutputs → ∃ errorItems : List INodeExecutionData,
    result.output (mainOutputs - 1) = errorItems.map some ∧
      List.Forall₂ (ErrorItemOf paired executionData)
        ((List.range (mainOutputs - 1)).flatMap fun outputIndex =>
          (returned.output outputIndex).reduceOption.filter (·.failed))
        errorItems

/-- The source entries of the failed items are there. -/
def SourcesPresent (executionData : IExecuteData) (outputs : Nat) (returned : ErrorSplit) : Prop :=
  ∀ outputIndex < outputs, ∀ item ∈ (returned.output outputIndex).reduceOption,
    item.failed → SourcePresent executionData item

/-- Of two lists of parts, one with smaller parts, the lengths are equal only
if those of the parts are. -/
theorem length_eq_of_flatMap {α β : Type} {items : List α} (left right : α → List β)
    (le : ∀ item ∈ items, (left item).length ≤ (right item).length)
    (length : (items.flatMap left).length = (items.flatMap right).length) :
    ∀ item ∈ items, (left item).length = (right item).length := by
  induction items with
  | nil => simp
  | cons item items ih =>
    rw [forall_mem_cons] at le ⊢
    simp only [flatMap_cons, length_append, length_flatMap] at length ih
    have rest := sum_le_sum le.2
    exact ⟨by omega, ih le.2 (by omega)⟩

variable {workflow : Workflow} {returned result : ErrorSplit}

theorem handleNodeErrorOutput_eq_ok (ok : returned.handleNodeErrorOutput workflow
      (fun name source data => .ok (paired name source data)) executionData = .ok result) :
    (∀ outputIndex < workflow.numberOfMainOutputs executionData.node - 1,
      ∀ item ∈ returned.reached outputIndex, item.failed → SourcePresent executionData item) ∧
    (∀ outputIndex < workflow.numberOfMainOutputs executionData.node - 1,
      result.output outputIndex = ((returned.reached outputIndex).filter
          fun item => !item.failed).map some) ∧
    (0 < workflow.numberOfMainOutputs executionData.node →
      result.output (workflow.numberOfMainOutputs executionData.node - 1) =
        ((List.range (workflow.numberOfMainOutputs executionData.node -
          1)).flatMap fun outputIndex =>
            ((returned.reached outputIndex).filter (·.failed)).map
              (enriched paired executionData)).map some) := by
  obtain ⟨split, loop, same⟩ := Except.bind_eq_ok_iff.mp ok
  generalize workflow.numberOfMainOutputs executionData.node = mainOutputs at *
  cases same
  obtain ⟨present, splitTo⟩ := (ErrorSplit.splitLoop rfl (mainOutputs - 1)).1 split loop
  refine ⟨present, ?_, ?_⟩
  · intro outputIndex inside
    have index : (mainOutputs : Int) - 1 = ((mainOutputs - 1 : Nat) : Int) := by
      omega
    simp only [output, index, at'_put]
    rw [if_neg (by omega), splitTo.done outputIndex inside]
    rfl
  · intro positive
    have index : (mainOutputs : Int) - 1 = ((mainOutputs - 1 : Nat) : Int) := by
      omega
    simp only [output, index, at'_put, if_true, splitTo.errorItems]
    rfl

theorem exists_handleNodeErrorOutput
    (present : ∀ outputIndex < workflow.numberOfMainOutputs executionData.node - 1,
      ∀ item ∈ returned.reached outputIndex, item.failed → SourcePresent executionData item) :
    ∃ result, returned.handleNodeErrorOutput workflow
      (fun name source data => .ok (paired name source data)) executionData = .ok result := by
  obtain ⟨split, loop⟩ := (@ErrorSplit.splitLoop paired executionData
    { returned with errorItems := [] } rfl _).2 present
  exact ⟨_, Except.bind_eq_ok_iff.mpr ⟨split, loop, rfl⟩⟩

/-- The error output gets the failed items, and the others stay, if and only
if no array with items is at two regular outputs and the source of each failed
item is there. -/
theorem handleNodeErrorOutput_splits_iff (workflow : Workflow)
    (paired : PairedItems) (executionData : IExecuteData) (returned : ErrorSplit) :
    (∃ result, returned.handleNodeErrorOutput workflow
        (fun name source data => .ok (paired name source data))
        executionData = .ok result ∧
      SplitsErrors paired executionData
        (workflow.numberOfMainOutputs executionData.node) returned result) ↔
      returned.NothingShared (workflow.numberOfMainOutputs executionData.node - 1) ∧
        SourcesPresent executionData
          (workflow.numberOfMainOutputs executionData.node - 1) returned := by
  constructor
  · intro handled
    obtain ⟨result, success, splits⟩ := handled
    obtain ⟨present, regular, failed⟩ := handleNodeErrorOutput_eq_ok success
    generalize workflow.numberOfMainOutputs executionData.node = mainOutputs at *
    have reaches : ∀ outputIndex < mainOutputs - 1, returned.reached outputIndex =
          (returned.output outputIndex).reduceOption := by
      intro outputIndex inside
      rcases returned.reached_eq_or outputIndex with same | taken
      · exact same
      -- Of a taken array neither a regular nor a failed item is left.
      have noRegular : ((returned.output outputIndex).reduceOption.filter
          fun item => !item.failed) = [] := by
        have left := splits.regular outputIndex inside
        rw [regular outputIndex inside, taken] at left
        simpa using left.symm
      obtain ⟨errorItems, last, items⟩ := splits.failed (by omega)
      rw [failed (by omega)] at last
      have same := map_injective_iff.mpr (Option.some_injective INodeExecutionData) last
      have lengths := items.length_eq
      rw [← same] at lengths
      have noFailed : ((returned.reached outputIndex).filter (·.failed)).length =
            ((returned.output outputIndex).reduceOption.filter (·.failed)).length := by
        have smaller : ∀ other ∈ List.range (mainOutputs - 1),
            (((returned.reached other).filter (·.failed)).map
              (enriched paired executionData)).length ≤
            ((returned.output other).reduceOption.filter (·.failed)).length := by
          intro other _
          rcases returned.reached_eq_or other with same | taken
          · simp [same]
          · simp [taken]
        have parts := length_eq_of_flatMap
          (fun other => ((returned.reached other).filter (·.failed)).map
            (enriched paired executionData))
          (fun other => (returned.output other).reduceOption.filter (·.failed))
          smaller lengths.symm outputIndex (mem_range.mpr inside)
        simpa using parts
      rw [taken] at noFailed ⊢
      symm
      apply eq_nil_iff_forall_not_mem.mpr
      intro item mem
      cases isFailed : item.failed with
      | false =>
        have listed : item ∈ (returned.output outputIndex).reduceOption.filter
            fun item => !item.failed :=
          mem_filter.mpr ⟨mem, by simp [isFailed]⟩
        rw [noRegular] at listed
        cases listed
      | true =>
        have listed : item ∈ (returned.output outputIndex).reduceOption.filter
            (·.failed) := mem_filter.mpr ⟨mem, isFailed⟩
        rw [eq_nil_of_length_eq_zero noFailed.symm] at listed
        cases listed
    refine ⟨nothingShared_iff.mpr reaches, ?_⟩
    intro outputIndex inside item mem
    rw [← reaches outputIndex inside] at mem
    exact present outputIndex inside item mem
  · intro condition
    obtain ⟨nothingShared, sources⟩ := condition
    have reaches := nothingShared_iff.mp nothingShared
    have present : ∀ outputIndex < workflow.numberOfMainOutputs executionData.node - 1,
        ∀ item ∈ returned.reached outputIndex, item.failed → SourcePresent executionData item := by
      intro outputIndex inside item mem
      rw [reaches outputIndex inside] at mem
      exact sources outputIndex inside item mem
    obtain ⟨result, success⟩ := exists_handleNodeErrorOutput present
    refine ⟨result, success, ?_⟩
    obtain ⟨_, regular, failed⟩ := handleNodeErrorOutput_eq_ok success
    refine ⟨?_, fun positive => ⟨_, failed positive, ?_⟩⟩
    · intro outputIndex inside
      rw [regular outputIndex inside, reaches outputIndex inside]
    · have same : ((List.range (workflow.numberOfMainOutputs
            executionData.node - 1)).flatMap fun outputIndex =>
          ((returned.reached outputIndex).filter (·.failed)).map (enriched paired executionData)) =
          ((List.range (workflow.numberOfMainOutputs
            executionData.node - 1)).flatMap fun outputIndex =>
              (returned.output outputIndex).reduceOption.filter
                (·.failed)).map (enriched paired executionData) := by
        rw [map_flatMap]
        apply flatMap_congr
        intro outputIndex listed
        rw [reaches outputIndex (mem_range.mp listed)]
      rw [same, forall₂_map_right_iff, forall₂_same]
      exact fun item _ => errorItemOf_enriched item

end Outcome

section Values

/-- The items of an output in the value model of the loop. -/
def itemsAt (nodeSuccessData : NodeSuccessData) (outputIndex : Nat) : List INodeExecutionData :=
  ((nodeSuccessData.at' outputIndex).value?).getD []

theorem itemsAt_put (nodeSuccessData : NodeSuccessData)
    (outputIndex other : Nat) (items : List INodeExecutionData) :
    itemsAt (nodeSuccessData.put outputIndex (.value items)) other =
      if outputIndex = other then items else itemsAt nodeSuccessData other := by
  rw [itemsAt, at'_put]
  split <;> simp [itemsAt]

/-- The outputs have arrays of their own, with the given items. -/
structure ErrorSplit.HasValues (split : ErrorSplit)
    (nodeSuccessData : NodeSuccessData) : Prop where
  own : ∀ first second reference, split.referenceAt first = some reference →
    split.referenceAt second = some reference → first = second
  items : ∀ outputIndex, (split.output outputIndex).reduceOption =
    itemsAt nodeSuccessData outputIndex

/-- The same error, or related results. -/
inductive SameOutcome {α β : Type} (related : α → β → Prop) :
    Except ExecutionError α → Except ExecutionError β → Prop where
  | error (error : ExecutionError) : SameOutcome related (.error error) (.error error)
  | ok {left : α} {right : β} : related left right → SameOutcome related (.ok left) (.ok right)

theorem SameOutcome.bind {α β γ δ : Type} {related : α → β → Prop}
    {later : γ → δ → Prop} {left : Except ExecutionError α}
    {right : Except ExecutionError β} {next : α → Except ExecutionError γ}
    {other : β → Except ExecutionError δ} (first : SameOutcome related left right)
    (second : ∀ value result, related value result →
      SameOutcome later (next value) (other result)) :
    SameOutcome later (left >>= next) (right >>= other) := by
  cases first with
  | error error => exact .error error
  | ok results => exact second _ _ results

variable {split : ErrorSplit} {nodeSuccessData : NodeSuccessData}

theorem ErrorSplit.HasValues.put (values : split.HasValues nodeSuccessData)
    (outputIndex : Nat) (items errorItems : List INodeExecutionData)
    {arrays : Nat → List (Option INodeExecutionData)}
    (kept : ∀ other reference, outputIndex ≠ other → split.referenceAt other = some reference →
        arrays reference = split.arrays reference) :
    ErrorSplit.HasValues
      { arrays := arrays
        nodeSuccessData := split.nodeSuccessData.put outputIndex (.value (.made items))
        errorItems := errorItems }
      (nodeSuccessData.put outputIndex (.value items)) := by
  have others : ∀ other, outputIndex ≠ other → (split.nodeSuccessData.put outputIndex
        (.value (.made items))).at' other = split.nodeSuccessData.at' other := by
    intro other ne
    rw [at'_put, if_neg ne]
  have made : (split.nodeSuccessData.put outputIndex
      (.value (.made items))).at' outputIndex = .value (.made items) := by
    rw [at'_put, if_pos rfl, Slot.read_value]
  constructor
  · intro first second reference atFirst atSecond
    by_cases here : outputIndex = first
    · subst here
      rw [referenceAt, made] at atFirst
      cases atFirst
    · by_cases there : outputIndex = second
      · subst there
        rw [referenceAt, made] at atSecond
        cases atSecond
      · rw [referenceAt, others _ here] at atFirst
        rw [referenceAt, others _ there] at atSecond
        exact values.own first second reference atFirst atSecond
  · intro other
    rw [itemsAt_put]
    by_cases here : outputIndex = other
    · subst here
      rw [output, made, if_pos rfl]
      simp [List.reduceOption, filterMap_map]
    · rw [if_neg here, ← values.items, output, output, others other here]
      cases found : (split.nodeSuccessData.at' (other : Int)).value? with
      | none => rfl
      | some items =>
        cases items with
        | made items => rfl
        | returned reference =>
          have atOther : split.referenceAt other = some reference := by
            rw [referenceAt, found]
          simp only [kept other reference here atOther]

theorem ErrorSplit.HasValues.drain_of_ne
    (values : split.HasValues nodeSuccessData) (outputIndex : Nat) :
    ∀ other reference, outputIndex ≠ other → split.referenceAt other = some reference →
        split.drain outputIndex reference = split.arrays reference := by
  intro other reference ne atOther
  rw [drain]
  cases taken : split.referenceAt outputIndex with
  | none => rfl
  | some drained =>
    apply Function.update_of_ne
    intro same
    subst same
    exact ne (values.own _ _ _ taken atOther)

/-- With arrays of their own the outputs are split as the loop does it. -/
theorem handleNodeErrorOutput_sameOutcome {workflow : Workflow}
    {getPairedItem : GetPairedItem} {executionData : IExecuteData}
    (positive : 0 < workflow.numberOfMainOutputs executionData.node)
    (values : split.HasValues nodeSuccessData) :
    SameOutcome (fun nodeSuccessData split =>
        ErrorSplit.HasValues split nodeSuccessData)
      (handleNodeErrorOutput workflow getPairedItem executionData nodeSuccessData)
      (split.handleNodeErrorOutput workflow getPairedItem executionData) := by
  have loop : ∀ (outputs : List Nat) (split : ErrorSplit)
      (nodeSuccessData : NodeSuccessData), split.HasValues nodeSuccessData →
      SameOutcome (fun found split =>
          ErrorSplit.HasValues split found.1 ∧ split.errorItems = found.2)
        (outputs.foldlM (fun found (outputIndex : Nat) => do
          let items ← splitItems getPairedItem executionData found.2 (itemsAt found.1 outputIndex)
          return (found.1.put outputIndex (.value items.1), items.2))
          (nodeSuccessData, split.errorItems))
        (outputs.foldlM (splitOutput getPairedItem executionData) split) := by
    intro outputs
    induction outputs with
    | nil =>
      intro split nodeSuccessData values
      exact .ok ⟨values, rfl⟩
    | cons outputIndex outputs ih =>
      intro split nodeSuccessData values
      rw [foldlM_cons, foldlM_cons, splitOutput, values.items outputIndex]
      cases splitItems getPairedItem executionData split.errorItems
          (itemsAt nodeSuccessData outputIndex) with
      | error error => exact .error error
      | ok found =>
        exact ih _ _ (values.put outputIndex found.1 found.2 (values.drain_of_ne outputIndex))
  refine SameOutcome.bind (loop _ { split with errorItems := [] } nodeSuccessData
      ⟨values.own, values.items⟩) ?_
  intro found last related
  obtain ⟨found, errorItems⟩ := found
  obtain ⟨lastValues, same⟩ := related
  have index : ((workflow.numberOfMainOutputs executionData.node : Nat) : Int) -
      1 = ((workflow.numberOfMainOutputs executionData.node - 1 : Nat) : Int) := by
    omega
  subst same
  rw [index]
  exact .ok (lastValues.put _ last.errorItems last.errorItems fun _ _ _ _ => rfl)

end Values

namespace ErrorOutputExample

def merge : INode :=
  { name := "Merge", type := "merge", onError := some .continueErrorOutput }

def failedItem : INodeExecutionData :=
  { json := [("error", .string "Boom")]
    pairedItem := some (.single { item := 0 }) }

def workflow (mainOutputs : Nat) : Workflow where
  nodes := empty.set "Merge" merge
  connectionsBySourceNode := .empty
  getByNameAndVersion := fun _ _ => { mainOutputs := mainOutputs }

def secondInputOnly : IExecuteData where
  node := merge
  data := .empty
  source := some (empty.set .main [.null, .value { previousNode := "Fetch" }])

def oneOutput : ErrorSplit where
  arrays := fun _ => [some failedItem]
  nodeSuccessData := [.value (.returned 0)]

def oneArray : ErrorSplit where
  arrays := fun _ => [some { json := [("id", .number 1)] }]
  nodeSuccessData := [.value (.returned 0), .value (.returned 0)]

theorem sameOutcome_oneOutput : SameOutcome (fun nodeSuccessData split =>
        ErrorSplit.HasValues split nodeSuccessData)
      (handleNodeErrorOutput (workflow 2) (fun _ _ _ => .ok none) secondInputOnly
        [.value [failedItem]])
      (oneOutput.handleNodeErrorOutput (workflow 2) (fun _ _ _ => .ok none) secondInputOnly) := by
  refine handleNodeErrorOutput_sameOutcome (by decide) ⟨?_, ?_⟩
  · intro first second reference atFirst atSecond
    match first, second with
    | 0, 0 => rfl
    | _ + 1, _ => cases atFirst
    | _, _ + 1 => cases atSecond
  · intro outputIndex
    cases outputIndex <;> rfl

theorem not_splitsErrors : (oneOutput.handleNodeErrorOutput (workflow 1) (fun _ _ _ => .ok none)
      secondInputOnly).toOption.isNone ∧
    ((oneArray.handleNodeErrorOutput (workflow 2) (fun _ _ _ => .ok none)
      secondInputOnly).toOption.map fun result =>
        (result.output 0).length == 1 && (result.output 1).isEmpty) = some true ∧
    ¬ ∀ (workflow : Workflow) (paired : PairedItems)
        (executionData : IExecuteData) (returned : ErrorSplit),
      ∃ result, returned.handleNodeErrorOutput workflow
          (fun name source data => .ok (paired name source data))
          executionData = .ok result ∧
        SplitsErrors paired executionData (workflow.numberOfMainOutputs executionData.node) returned
          result := by
  have throws : (oneOutput.handleNodeErrorOutput (workflow 1)
      (fun _ _ _ => .ok none) secondInputOnly).toOption.isNone := by
    decide +kernel
  refine ⟨throws, by decide +kernel, ?_⟩
  intro always
  obtain ⟨result, success, _⟩ := always (workflow 1) (fun _ _ _ => none) secondInputOnly oneOutput
  rw [success] at throws
  cases throws

end ErrorOutputExample

end N8n
