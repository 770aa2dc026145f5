import Mathlib.Algebra.Order.Ring.Rat
import N8n.Library.AgreeingSearch
import N8n.Library.OrderedMap

/-!
# Paired items

`getPairedItem` follows the links of an item back to a node.  The links name
items and inputs by numbers that come from the nodes, and nothing checks them
before they are used.
-/

namespace N8n

namespace PairedItems

structure ISourceData where
  previousNode : String
  previousNodeOutput : Option Rat := none
  previousNodeRun : Option Rat := none

structure IPairedItemData where
  item : Rat
  input : Option Rat := none
  sourceOverwrite : Option ISourceData := none

inductive PairedItemEntry where
  | index (item : Rat)
  | data (pairedItem : IPairedItemData)

inductive PairedItem where
  | missing
  | single (entry : PairedItemEntry)
  | several (entries : List PairedItemEntry)

structure ITaskData (Item : Type) where
  main : Option (List (Option (List Item)))
  source : List (Option ISourceData)

/-- What is read of the execution and the workflow.  Items are compared by
reference, so they are taken for references here.  `executeSource` has the
sources of the node that is executed. -/
structure WorkflowDataProxy (Item : Type) where
  runData : OrderedMap String (List (ITaskData Item))
  pinData : OrderedMap String (List Item)
  isManual : Bool
  connectionInputData : List Item
  executeSource : List (Option ISourceData)
  pairedItem : Item → PairedItem
  isScriptingNode : String → Bool
  activeNodeName : String
  runIndex : Int
  itemIndex : Int
  numberText : Rat → String

inductive PairedItemMethod where
  | pairedItem
  | itemMatching
  | item
  | getPairedItem

def PairedItemMethod.name : PairedItemMethod → String
  | .pairedItem => "pairedItem"
  | .itemMatching => "itemMatching"
  | .item => "item"
  | .getPairedItem => "$getPairedItem"

structure ExpressionError where
  message : String
  runIndex : Int
  itemIndex : Int
  type : String
  messageTemplate : Option String := none
  description : Option String := none
  descriptionKey : Option String := none
  causeDetailed : Option String := none
  functionality : Option String := none
  nodeCause : Option String := none
deriving DecidableEq

inductive Failure where
  | expressionError (error : ExpressionError)
  | typeError
deriving DecidableEq

/-- What a call of `getPairedItem` gets besides the destination. -/
structure PairedItemCall where
  incomingSourceData : Option ISourceData
  initialPairedItem : PairedItemEntry
  nodeBeforeLast : Option String := none

/-- An array has an item under an index that is a natural number below its
length. -/
def atIndex {α : Type} (items : List α) (index : Rat) : Option α :=
  if index.den = 1 ∧ 0 ≤ index.num then items[index.num.toNat]? else none

theorem mem_of_atIndex {α : Type} {items : List α} {index : Rat} {item : α}
    (found : atIndex items index = some item) : item ∈ items := by
  unfold atIndex at found
  split_ifs at found
  exact List.mem_of_getElem? found

def PairedItemEntry.normalize : PairedItemEntry → IPairedItemData
  | .index item => { item := item }
  | .data pairedItem => pairedItem

def normalizePairedItem : PairedItem → List IPairedItemData
  | .missing => []
  | .single entry => [entry.normalize]
  | .several entries => entries.map PairedItemEntry.normalize

def PairedItemCall.pairedItem (call : PairedItemCall) : IPairedItemData :=
  call.initialPairedItem.normalize

/-- The source after `normalizeInputs`. -/
def PairedItemCall.sourceData (call : PairedItemCall) : Option ISourceData :=
  call.pairedItem.sourceOverwrite.orElse fun _ => call.incomingSourceData

section Proxy

variable {Item : Type} (proxy : WorkflowDataProxy Item)

/-! ## Errors -/

def getPinDataIfManualExecution (nodeName : String) : Option (List Item) :=
  if proxy.isManual then proxy.pinData.get? nodeName else none

structure ExpressionErrorOptions where
  type : String
  messageTemplate : Option String := none
  functionality : Option String := none
  functionMessage : Option String := none
  nodeCause : Option String := none
  description : Option String := none
  descriptionKey : Option String := none
  moreInfoLink : Bool := false

def moreInfo : String :=
  " <a target=\"_blank\" href=\"https://docs.n8n.io/data/data-mapping/data-item-linking/item-linking-errors/\">More info</a>"

/-- A node that runs code gets a message of its own, and a node with pinned data
the advice to unpin it. -/
def createExpressionError (message : String) (context : ExpressionErrorOptions) : ExpressionError :=
  let inFunction := proxy.isScriptingNode proxy.activeNodeName && context.functionMessage.isSome
  let message :=
    if inFunction then context.functionMessage.getD message else message
  let messageTemplate := if inFunction then none else context.messageTemplate
  let pinned : Bool :=
    match context.nodeCause with
    | none => false
    | some nodeName =>
      nodeName ≠ "" && (getPinDataIfManualExecution proxy nodeName).isSome
  let nodeName := context.nodeCause.getD ""
  let linked := context.moreInfoLink && nodeName ≠ "" && (pinned || proxy.isScriptingNode nodeName)
  { message := if pinned then "Unpin '" ++ nodeName ++ "' to execute" else message
    runIndex := proxy.runIndex
    itemIndex := proxy.itemIndex
    type := context.type
    messageTemplate := if pinned then none else messageTemplate
    description :=
      -- A description that is undefined is added to like a text.
      if linked then some (context.description.getD "undefined" ++ moreInfo)
      else context.description
    descriptionKey :=
      if pinned then some "pairedItemPinned" else context.descriptionKey
    functionality := context.functionality
    nodeCause := context.nodeCause }

def createMissingPairedItemError (nodeCause : String)
    (usedMethodName : PairedItemMethod) : ExpressionError where
  message :=
    if (getPinDataIfManualExecution proxy nodeCause).isSome then
      "Using the " ++ usedMethodName.name ++
        " method doesn't work with pinned data in this scenario. Please unpin '" ++
        nodeCause ++ "' and try again."
    else
      "Paired item data for " ++ usedMethodName.name ++ " from node '" ++
        nodeCause ++ "' is unavailable. Ensure '" ++ nodeCause ++
        "' is providing the required output."
  runIndex := proxy.runIndex
  itemIndex := proxy.itemIndex
  type := "paired_item_no_info"
  functionality := some "pairedItem"
  descriptionKey :=
    if proxy.isScriptingNode nodeCause then some "pairedItemNoInfoCodeNode"
    else some "pairedItemNoInfo"
  nodeCause := some nodeCause
  causeDetailed := some ("Missing pairedItem data (node '" ++ nodeCause ++
      "' probably didn't supply it)")

def createNoConnectionError (nodeCause : String) : ExpressionError :=
  createExpressionError proxy "Invalid expression"
    { messageTemplate := some "No path back to referenced node"
      functionality := some "pairedItem"
      descriptionKey :=
        if proxy.isScriptingNode nodeCause then
          some "pairedItemNoConnectionCodeNode"
        else some "pairedItemNoConnection"
      type := "paired_item_no_connection"
      moreInfoLink := true
      nodeCause := some nodeCause }

def createBranchNotFoundError (node : String) (item : Rat)
    (cause : Option String) : ExpressionError :=
  createExpressionError proxy "Branch not found"
    { messageTemplate := some "Paired item references non-existent branch"
      functionality := some "pairedItem"
      nodeCause := cause
      functionMessage := some "Invalid branch reference"
      description := some ("Item " ++ proxy.numberText item ++ " in node " ++ node ++
          " references a branch that doesn't exist.")
      type := "paired_item_invalid_info" }

def createPairedItemNotFound (destNode : String) (cause : Option String) : ExpressionError :=
  createExpressionError proxy "Paired item resolution failed"
    { messageTemplate := some "Unable to find paired item source"
      functionality := some "pairedItem"
      nodeCause := cause
      functionMessage := some "Data not found"
      description := some ("Could not trace back to node '" ++ destNode ++ "'")
      type := "paired_item_no_info"
      moreInfoLink := true }

def createPairedItemMultipleItemsFound (destNode : String) (itemIndex : Rat) : ExpressionError :=
  createExpressionError proxy "Multiple matches found"
    { messageTemplate :=
        some ("Multiple matching items for item [" ++ proxy.numberText itemIndex ++ "]")
      functionality := some "pairedItem"
      functionMessage := some "Multiple matches"
      nodeCause := some destNode
      descriptionKey :=
        if proxy.isScriptingNode destNode then
          some "pairedItemMultipleMatchesCodeNode"
        else some "pairedItemMultipleMatches"
      type := "paired_item_multiple_matches" }

def createMissingOutputError (source : ISourceData) (nodeCause : Option String) : ExpressionError :=
  createExpressionError proxy "Can’t get data for expression"
    { messageTemplate := some "Missing output data"
      functionMessage := some "Missing output"
      nodeCause := nodeCause
      description := some ("Expected output #" ++
          proxy.numberText (source.previousNodeOutput.getD 0) ++
          " from node " ++ source.previousNode)
      type := "internal" }

/-! ## Following the links -/

def pinDataToTask (pinData : Option (List Item)) : Option (ITaskData Item) :=
  pinData.map fun items => { main := some [some items], source := [] }

def getTaskData (source : ISourceData) : Option (ITaskData Item) :=
  ((proxy.runData.get? source.previousNode).bind fun runs =>
    atIndex runs (source.previousNodeRun.getD 0)).orElse fun _ =>
      pinDataToTask (getPinDataIfManualExecution proxy source.previousNode)

def getNodeOutput (taskData : Option (ITaskData Item)) (source : ISourceData) :
    Option (List Item) :=
  ((taskData.bind ITaskData.main).bind fun outputs =>
    atIndex outputs (source.previousNodeOutput.getD 0)).join

variable (sourceArray : List (Option ISourceData)) (previousNode : String)

/-- The call for a link, unless the input of the link is none of the sources. -/
def nextCall (nextPairedItem : IPairedItemData) : Option PairedItemCall :=
  let inputIndex := nextPairedItem.input.getD 0
  if inputIndex ≥ sourceArray.length then none
  else
    some
      { incomingSourceData :=
          nextPairedItem.sourceOverwrite.orElse fun _ =>
            (atIndex sourceArray inputIndex).join
        initialPairedItem := .data { nextPairedItem with input := some inputIndex }
        nodeBeforeLast := some previousNode }

def nextCalls (item : Item) : List PairedItemCall :=
  (normalizePairedItem (proxy.pairedItem item)).filterMap (nextCall sourceArray previousNode)

variable [DecidableEq Item]

/-- The result of the branches.  `every` holds of no result too, so that the
error of the first one is read then, and the errors for no match are never
thrown. -/
def resolveResults (destinationNodeName : String) (call : PairedItemCall)
    (sourceData : ISourceData) (sourceArray : List (Option ISourceData))
    (results : List (Except Failure (Option Item))) :
    Except Failure (Option Item) :=
  if results.all fun result => !result.isOk then
    match results.head? with
    | some (.error error) => .error error
    | _ => .error .typeError
  else
    match results.filterMap Except.toOption with
    | [] =>
      if sourceArray.isEmpty then
        .error (.expressionError (createNoConnectionError proxy destinationNodeName))
      else
        .error (.expressionError (createBranchNotFoundError proxy sourceData.previousNode
            call.pairedItem.item call.nodeBeforeLast))
    | first :: rest =>
      if rest.any (· ≠ first) then
        .error (.expressionError (createPairedItemMultipleItemsFound proxy destinationNodeName
            call.pairedItem.item))
      else .ok first

/-- An item that is undefined is returned as such.  There is no result when the
fuel is used up. -/
def getPairedItem (destinationNodeName : String) (usedMethodName : PairedItemMethod) :
    Nat → PairedItemCall → Option (Except Failure (Option Item))
  | 0, _ => none
  | fuel + 1, call =>
    match call.sourceData with
    | none =>
      some (.error (.expressionError (createPairedItemNotFound proxy destinationNodeName
          call.nodeBeforeLast)))
    | some sourceData =>
      let taskData := getTaskData proxy sourceData
      match getNodeOutput taskData sourceData with
      | none =>
        some (.error (.expressionError (createMissingOutputError proxy sourceData
            call.nodeBeforeLast)))
      | some outputData =>
        let item := atIndex outputData call.pairedItem.item
        let sourceArray := (taskData.map ITaskData.source).getD []
        if sourceData.previousNode = destinationNodeName then
          if call.pairedItem.item ≥ outputData.length then
            some (.error (.expressionError
              (createMissingPairedItemError proxy sourceData.previousNode usedMethodName)))
          else some (.ok item)
        else
          match item with
          | none => some (.error .typeError)
          | some item =>
            let nextPairedItems := normalizePairedItem (proxy.pairedItem item)
            if nextPairedItems.isEmpty then
              some (.error (.expressionError (createMissingPairedItemError proxy
                  sourceData.previousNode usedMethodName)))
            else
              ((nextCalls proxy sourceArray sourceData.previousNode item).mapM
                (getPairedItem destinationNodeName usedMethodName fuel)).map
                (resolveResults proxy destinationNodeName call sourceData sourceArray)

end Proxy

/-! ## The search that follows the links -/

section Search

variable {Item : Type} (proxy : WorkflowDataProxy Item) (destinationNodeName : String)

section

variable (call : PairedItemCall)

/-- The items to which a call refers, and the task that has them. -/
def outputOf : Option (ISourceData × List Item) :=
  call.sourceData.bind fun sourceData =>
    (getNodeOutput (getTaskData proxy sourceData) sourceData).map fun items =>
      (sourceData, items)

def sourcesOf (sourceData : ISourceData) : List (Option ISourceData) :=
  ((getTaskData proxy sourceData).map ITaskData.source).getD []

def linkedCalls (sourceData : ISourceData) (item : Item) : List PairedItemCall :=
  nextCalls proxy (sourcesOf proxy sourceData) sourceData.previousNode item

/-- A link leads from an item that is not at the destination to the call. -/
def FollowsLink (next call : PairedItemCall) : Prop :=
  ∃ sourceData items item, outputOf proxy call = some (sourceData, items) ∧
      sourceData.previousNode ≠ destinationNodeName ∧
      atIndex items call.pairedItem.item = some item ∧
      next ∈ linkedCalls proxy sourceData item

/-- A chain of links leads to what is at an index of an output of the
destination.  It is undefined when the index is below the length of the output
without being one of its indexes. -/
inductive LinkChain : PairedItemCall → Option Item → Prop where
  | arrived {call : PairedItemCall} {sourceData : ISourceData} {items : List Item} :
      outputOf proxy call = some (sourceData, items) →
      sourceData.previousNode = destinationNodeName →
      call.pairedItem.item < items.length →
      LinkChain call (atIndex items call.pairedItem.item)
  | follow {call next : PairedItemCall} {found : Option Item} :
      FollowsLink proxy destinationNodeName next call →
      LinkChain next found → LinkChain call found

/-- The chains from a call lead to one thing. -/
def LeadsToOne (found : Option Item) : Prop :=
  ∀ other, LinkChain proxy destinationNodeName call other ↔ other = found

def LeadsToSeveral : Prop :=
  ∃ found other, LinkChain proxy destinationNodeName call found ∧
    LinkChain proxy destinationNodeName call other ∧ found ≠ other

end

/-- From one of the links chains lead to several things, and those of the other
links that lead to a single one lead to the same. -/
def HidesAmbiguity (links : List PairedItemCall) : Prop :=
  (∃ link ∈ links, LeadsToSeveral proxy destinationNodeName link) ∧
    ∃ found, (∃ link ∈ links, LeadsToOne proxy destinationNodeName link found) ∧
      ∀ link ∈ links, ∀ other, LeadsToOne proxy destinationNodeName link other → other = found

def placeOf (usedMethodName : PairedItemMethod) (call : PairedItemCall) :
    AgreeingSearch.Place PairedItemCall (Option Item) Failure :=
  match outputOf proxy call with
  | none =>
    .failed (.expressionError (match call.sourceData with
      | none =>
        createPairedItemNotFound proxy destinationNodeName call.nodeBeforeLast
      | some sourceData =>
        createMissingOutputError proxy sourceData call.nodeBeforeLast))
  | some (sourceData, items) =>
    if sourceData.previousNode = destinationNodeName then
      if call.pairedItem.item ≥ items.length then
        .failed (.expressionError
          (createMissingPairedItemError proxy sourceData.previousNode usedMethodName))
      else .arrived (atIndex items call.pairedItem.item)
    else
      match atIndex items call.pairedItem.item with
      | none => .failed .typeError
      | some item =>
        if (normalizePairedItem (proxy.pairedItem item)).isEmpty then
          .failed (.expressionError
            (createMissingPairedItemError proxy sourceData.previousNode usedMethodName))
        else
          .branching (linkedCalls proxy sourceData item) .typeError (.expressionError
              (createPairedItemMultipleItemsFound proxy destinationNodeName call.pairedItem.item))

variable {proxy} {destinationNodeName}

/-- The branch that is left out of `resolveResults` is never taken. -/
theorem resolveResults_eq [DecidableEq Item] (call : PairedItemCall)
    (sourceData : ISourceData) (sourceArray : List (Option ISourceData))
    (results : List (Except Failure (Option Item))) :
    resolveResults proxy destinationNodeName call sourceData sourceArray results =
      AgreeingSearch.combine .typeError (.expressionError
          (createPairedItemMultipleItemsFound proxy destinationNodeName
            call.pairedItem.item)) results := by
  unfold resolveResults AgreeingSearch.combine AgreeingSearch.found
  have allFailed_iff : (results.all fun result => !result.isOk) = true ↔
      results.filterMap Except.toOption = [] := by
    rw [List.all_eq_true, List.filterMap_eq_nil_iff]
    apply forall₂_congr
    intro result _
    cases result <;> simp [Except.isOk, Except.toBool, Except.toOption]
  by_cases failed : (results.all fun result => !result.isOk) = true
  · rw [if_pos failed, allFailed_iff.mp failed]
    rcases results with _ | ⟨_ | _, _⟩ <;> rfl
  · rw [if_neg failed]
    cases matched : results.filterMap Except.toOption with
    | cons first rest => rfl
    | nil => exact absurd (allFailed_iff.mpr matched) failed

theorem getPairedItem_eq_search [DecidableEq Item]
    (usedMethodName : PairedItemMethod) (fuel : Nat) (call : PairedItemCall) :
    getPairedItem proxy destinationNodeName usedMethodName fuel call =
      AgreeingSearch.search (placeOf proxy destinationNodeName usedMethodName) fuel call := by
  induction fuel generalizing call with
  | zero => rfl
  | succ fuel ih =>
    rw [AgreeingSearch.search_succ]
    unfold getPairedItem placeOf outputOf
    have same : getPairedItem proxy destinationNodeName usedMethodName fuel =
        AgreeingSearch.search (placeOf proxy destinationNodeName usedMethodName) fuel :=
      funext ih
    cases call.sourceData with
    | none => rfl
    | some sourceData =>
      cases output : getNodeOutput (getTaskData proxy sourceData) sourceData with
      | none => simp only [output, Option.bind_some, Option.map_none]
      | some items =>
        simp only [output, Option.bind_some, Option.map_some]
        by_cases arrived : sourceData.previousNode = destinationNodeName
        · split_ifs <;> rfl
        · rw [if_neg arrived, if_neg arrived]
          cases atIndex items call.pairedItem.item with
          | none => rfl
          | some item =>
            by_cases unlinked : (normalizePairedItem (proxy.pairedItem item)).isEmpty = true
            · simp only [unlinked, if_true]
            · simp only [unlinked, Bool.false_eq_true, if_false, same]
              congr 1
              funext results
              exact resolveResults_eq call sourceData _ results

/-! ## Chains of links are paths of the search -/

variable {usedMethodName : PairedItemMethod} {call next : PairedItemCall} {items : List Item}
  {sourceData : ISourceData}

theorem outputOf_eq_some_iff :
    outputOf proxy call = some (sourceData, items) ↔ call.sourceData = some sourceData ∧
        getNodeOutput (getTaskData proxy sourceData) sourceData = some items := by
  simp only [outputOf, Option.bind_eq_some_iff, Option.map_eq_some_iff, Prod.mk.injEq]
  constructor
  · rintro ⟨_, given, _, output, rfl, rfl⟩
    exact ⟨given, output⟩
  · intro ⟨given, output⟩
    exact ⟨_, given, _, output, rfl, rfl⟩

theorem linkedCalls_eq_nil {item : Item}
    (unlinked : normalizePairedItem (proxy.pairedItem item) = []) :
    linkedCalls proxy sourceData item = [] := by
  unfold linkedCalls nextCalls
  rw [unlinked]
  rfl

theorem placeOf_of_links {item : Item} (output : outputOf proxy call = some (sourceData, items))
    (passed : sourceData.previousNode ≠ destinationNodeName)
    (indexed : atIndex items call.pairedItem.item = some item)
    (linked : normalizePairedItem (proxy.pairedItem item) ≠ []) :
    placeOf proxy destinationNodeName usedMethodName call =
      .branching (linkedCalls proxy sourceData item) .typeError (.expressionError
          (createPairedItemMultipleItemsFound proxy destinationNodeName call.pairedItem.item)) := by
  simp only [placeOf, output, if_neg passed, indexed, List.isEmpty_iff, linked, if_false]

variable {links : List PairedItemCall}

theorem exists_links_of_branching {nothing ambiguous : Failure}
    (here : placeOf proxy destinationNodeName usedMethodName call =
      .branching links nothing ambiguous) :
    ∃ sourceData items item, outputOf proxy call = some (sourceData, items) ∧
        sourceData.previousNode ≠ destinationNodeName ∧
        atIndex items call.pairedItem.item = some item ∧
        normalizePairedItem (proxy.pairedItem item) ≠ [] ∧
        links = linkedCalls proxy sourceData item := by
  unfold placeOf at here
  split at here
  · cases here
  next sourceData items output =>
    split_ifs at here with arrived
    split at here
    · cases here
    next item indexed =>
      split_ifs at here with unlinked
      cases here
      exact ⟨sourceData, items, item, output, arrived, indexed,
        fun empty => unlinked (List.isEmpty_iff.mpr empty), rfl⟩

theorem follows_iff : AgreeingSearch.Follows (placeOf proxy destinationNodeName usedMethodName)
        next call ↔
      FollowsLink proxy destinationNodeName next call := by
  constructor
  · intro follows
    obtain ⟨links, nothing, ambiguous, here, mem⟩ := follows
    obtain ⟨sourceData, items, item, output, passed, indexed, -, rfl⟩ :=
      exists_links_of_branching here
    exact ⟨sourceData, items, item, output, passed, indexed, mem⟩
  · intro follows
    obtain ⟨sourceData, items, item, output, passed, indexed, mem⟩ := follows
    have linked : normalizePairedItem (proxy.pairedItem item) ≠ [] := by
      intro unlinked
      rw [linkedCalls_eq_nil unlinked] at mem
      cases mem
    exact ⟨_, _, _, placeOf_of_links output passed indexed linked, mem⟩

theorem arrived_iff {found : Option Item} :
    placeOf proxy destinationNodeName usedMethodName call = .arrived found ↔
      ∃ sourceData items, outputOf proxy call = some (sourceData, items) ∧
        sourceData.previousNode = destinationNodeName ∧
        call.pairedItem.item < items.length ∧
        found = atIndex items call.pairedItem.item := by
  constructor
  · intro here
    unfold placeOf at here
    split at here
    · cases here
    next sourceData items output =>
      split_ifs at here with arrived beyond
      · cases here
        exact ⟨sourceData, items, output, arrived, not_le.mp beyond, rfl⟩
      · split at here
        · cases here
        · split_ifs at here
  · intro held
    obtain ⟨sourceData, items, output, arrived, below, rfl⟩ := held
    simp only [placeOf, output, if_pos arrived, if_neg (not_le.mpr below)]

theorem linkChain_iff_reaches {found : Option Item} :
    LinkChain proxy destinationNodeName call found ↔ AgreeingSearch.Reaches
        (placeOf proxy destinationNodeName usedMethodName) call found := by
  constructor
  · intro chain
    induction chain with
    | arrived output arrived below =>
      exact .arrived (arrived_iff.mpr ⟨_, _, output, arrived, below, rfl⟩)
    | follow follows _ ih => exact .follow (follows_iff.mpr follows) ih
  · intro reaches
    induction reaches with
    | arrived here =>
      obtain ⟨sourceData, items, output, arrived, below, rfl⟩ := arrived_iff.mp here
      exact .arrived output arrived below
    | follow follows _ ih => exact .follow (follows_iff.mp follows) ih

/-! ## The links of a run -/

variable (proxy) (destinationNodeName) (usedMethodName)

/-- The task is one of the run, or stands for pinned data. -/
def IsTaskOf (nodeName : String) (task : ITaskData Item) : Prop :=
  (∃ runs, proxy.runData.get? nodeName = some runs ∧ task ∈ runs) ∨
    pinDataToTask (getPinDataIfManualExecution proxy nodeName) = some task

/-- `pairedItemMethod` asks for the item behind an item of the node that is
executed, which is linked to one of the sources of the node. -/
def initialCall (entry : PairedItemEntry) : PairedItemCall where
  incomingSourceData :=
    let input :=
      match entry with
      | .index _ => 0
      | .data pairedItem => pairedItem.input.getD 0
    ((atIndex proxy.executeSource input).join).orElse fun _ =>
      proxy.executeSource.head?.join
  initialPairedItem := entry

/-- The calls for the items of the run and of the node that is executed. -/
inductive ItemCall : PairedItemCall → Prop where
  | ofInput {item : Item} {entry : PairedItemEntry} : item ∈ proxy.connectionInputData →
      proxy.pairedItem item = .single entry →
      ItemCall (initialCall proxy entry)
  | ofTask {nodeName : String} {task : ITaskData Item}
      {outputs : List (Option (List Item))} {items : List Item} {item : Item}
      {call : PairedItemCall} :
      IsTaskOf proxy nodeName task → task.main = some outputs →
      some items ∈ outputs → item ∈ items →
      call ∈ nextCalls proxy task.source nodeName item → ItemCall call

/-- The call ends with an item to which a chain of links leads, and no chain
leads to another one, or with an `ExpressionError`. -/
def Resolves [DecidableEq Item] (call : PairedItemCall) : Prop :=
  (∃ fuel item, getPairedItem proxy destinationNodeName usedMethodName fuel call =
        some (.ok (some item)) ∧
      LinkChain proxy destinationNodeName call (some item) ∧
      ∀ other, LinkChain proxy destinationNodeName call (some other) → other = item) ∨
    ∃ fuel error, getPairedItem proxy destinationNodeName usedMethodName fuel call =
        some (.error (.expressionError error))

def ResolvesPairedItems [DecidableEq Item] : Prop :=
  ∀ call, ItemCall proxy call → Resolves proxy destinationNodeName usedMethodName call

/-- No chain of links goes on for ever. -/
def ChainsEnd (call : PairedItemCall) : Prop :=
  Acc (FollowsLink proxy destinationNodeName) call

/-- A link to an output that is there names an item of it, or at the destination
an index behind it.  An item that is not at the destination has a link to one of
the sources, or none at all, and its links hide no ambiguity. -/
def SoundLink (call : PairedItemCall) : Prop :=
  ∀ sourceData items, outputOf proxy call = some (sourceData, items) →
    if sourceData.previousNode = destinationNodeName then
      call.pairedItem.item < items.length → (atIndex items call.pairedItem.item).isSome
    else
      ∃ item, atIndex items call.pairedItem.item = some item ∧
        (linkedCalls proxy sourceData item = [] →
          normalizePairedItem (proxy.pairedItem item) = []) ∧
        ¬ HidesAmbiguity proxy destinationNodeName (linkedCalls proxy sourceData item)

variable {proxy} {destinationNodeName} {usedMethodName}

def IsExpressionError (failure : Failure) : Prop :=
  ∃ error, failure = .expressionError error

theorem hidesAmbiguity_iff :
    HidesAmbiguity proxy destinationNodeName links ↔ AgreeingSearch.HidesAmbiguity
        (placeOf proxy destinationNodeName usedMethodName) links := by
  have same : LinkChain proxy destinationNodeName = AgreeingSearch.Reaches
        (placeOf proxy destinationNodeName usedMethodName) := by
    funext call found
    exact propext linkChain_iff_reaches
  unfold HidesAmbiguity LeadsToSeveral LeadsToOne
  rw [same]
  rfl

theorem not_hidesAmbiguity_nil : ¬ HidesAmbiguity proxy destinationNodeName [] := by
  intro hidden
  obtain ⟨⟨link, mem, _⟩, _⟩ := hidden
  cases mem

variable (usedMethodName) in
theorem sound_iff : AgreeingSearch.Sound (placeOf proxy destinationNodeName usedMethodName)
        (fun found => found.isSome = true) IsExpressionError call ↔
      SoundLink proxy destinationNodeName call := by
  unfold AgreeingSearch.Sound SoundLink
  cases output : outputOf proxy call with
  | none => simp [placeOf, output, IsExpressionError]
  | some found =>
    obtain ⟨sourceData, items⟩ := found
    have only (property : ISourceData → List Item → Prop) :
        (∀ source listed, some (sourceData, items) = some (source, listed) →
          property source listed) ↔ property sourceData items := by
      constructor
      · exact fun held => held sourceData items rfl
      · rintro held _ _ ⟨⟩
        exact held
    rw [only]
    by_cases arrived : sourceData.previousNode = destinationNodeName
    · simp only [placeOf, output, if_pos arrived]
      by_cases beyond : call.pairedItem.item ≥ items.length
      · simp [beyond, IsExpressionError]
      · simp [beyond, not_le.mp beyond]
    · rw [if_neg arrived]
      cases indexed : atIndex items call.pairedItem.item with
      | none => simp [placeOf, output, arrived, indexed, IsExpressionError]
      | some item =>
        by_cases unlinked : normalizePairedItem (proxy.pairedItem item) = []
        · simp [placeOf, output, arrived, indexed, unlinked,
            IsExpressionError, linkedCalls_eq_nil unlinked,
            not_hidesAmbiguity_nil]
        · rw [placeOf_of_links output arrived indexed unlinked]
          simp [unlinked, IsExpressionError, ← hidesAmbiguity_iff]

theorem resolves_iff [DecidableEq Item] :
    Resolves proxy destinationNodeName usedMethodName call ↔ AgreeingSearch.Meets
        (placeOf proxy destinationNodeName usedMethodName)
        (fun found => found.isSome = true) IsExpressionError call := by
  unfold Resolves AgreeingSearch.Meets AgreeingSearch.Answers
  simp only [getPairedItem_eq_search]
  constructor
  · intro resolves
    rcases resolves with ⟨fuel, item, ended, chain, only⟩ | failed
    · refine ⟨.ok (some item), ⟨fuel, ended⟩, rfl, linkChain_iff_reaches.mp chain, ?_⟩
      intro other isItem reaches
      obtain ⟨value, rfl⟩ := Option.isSome_iff_exists.mp isItem
      rw [only value (linkChain_iff_reaches.mpr reaches)]
    · obtain ⟨fuel, error, ended⟩ := failed
      exact ⟨_, ⟨fuel, ended⟩, error, rfl⟩
  · intro meets
    obtain ⟨answer, ⟨fuel, ended⟩, meets⟩ := meets
    cases answer with
    | error failure =>
      obtain ⟨error, rfl⟩ := meets
      exact .inr ⟨fuel, error, ended⟩
    | ok found =>
      obtain ⟨isItem, reaches, only⟩ := meets
      obtain ⟨item, rfl⟩ := Option.isSome_iff_exists.mp isItem
      refine .inl ⟨fuel, item, ended, linkChain_iff_reaches.mpr reaches, ?_⟩
      intro other chain
      exact Option.some.inj (only (some other) rfl (linkChain_iff_reaches.mp chain))

theorem isTaskOf_of_getTaskData
    {task : ITaskData Item} (found : getTaskData proxy sourceData = some task) :
    IsTaskOf proxy sourceData.previousNode task := by
  unfold getTaskData at found
  cases run : (proxy.runData.get? sourceData.previousNode).bind fun runs =>
      atIndex runs (sourceData.previousNodeRun.getD 0) with
  | none =>
    rw [run] at found
    exact .inr found
  | some other =>
    rw [run] at found
    cases found
    obtain ⟨runs, executed, indexed⟩ := Option.bind_eq_some_iff.mp run
    exact .inl ⟨runs, executed, mem_of_atIndex indexed⟩

theorem exists_task_of_output (output : outputOf proxy call = some (sourceData, items)) :
    ∃ task outputs, IsTaskOf proxy sourceData.previousNode task ∧
      task.main = some outputs ∧ some items ∈ outputs ∧
      sourcesOf proxy sourceData = task.source := by
  obtain ⟨-, given⟩ := outputOf_eq_some_iff.mp output
  obtain ⟨outputs, listed, indexed⟩ := Option.bind_eq_some_iff.mp (Option.join_eq_some_iff.mp given)
  obtain ⟨task, found, main⟩ := Option.bind_eq_some_iff.mp listed
  refine ⟨task, outputs, isTaskOf_of_getTaskData found, main, mem_of_atIndex indexed, ?_⟩
  unfold sourcesOf
  rw [found]
  rfl

theorem ItemCall.follow (follows : FollowsLink proxy destinationNodeName next call) :
    ItemCall proxy next := by
  obtain ⟨sourceData, items, item, output, _, indexed, mem⟩ := follows
  obtain ⟨task, outputs, isTask, main, inOutputs, sources⟩ := exists_task_of_output output
  unfold linkedCalls at mem
  rw [sources] at mem
  exact .ofTask isTask main inOutputs (mem_of_atIndex indexed) mem

/-- The items of a run resolve if and only if their chains of links end and
their links are sound. -/
theorem resolvesPairedItems_iff [DecidableEq Item]
    (proxy : WorkflowDataProxy Item) (destinationNodeName : String)
    (usedMethodName : PairedItemMethod) :
    ResolvesPairedItems proxy destinationNodeName usedMethodName ↔
      ∀ call, ItemCall proxy call → ChainsEnd proxy destinationNodeName call ∧
          SoundLink proxy destinationNodeName call := by
  have ambiguousProper : ∀ call links nothing ambiguous,
      placeOf proxy destinationNodeName usedMethodName call =
        .branching links nothing ambiguous → IsExpressionError ambiguous := by
    intro call links nothing ambiguous here
    obtain ⟨sourceData, items, item, output, passed, indexed, linked, -⟩ :=
      exists_links_of_branching here
    rw [placeOf_of_links output passed indexed linked] at here
    cases here
    exact ⟨_, rfl⟩
  have sameStep : FollowsLink proxy destinationNodeName = AgreeingSearch.Follows
        (placeOf proxy destinationNodeName usedMethodName) := by
    funext next call
    exact propext follows_iff.symm
  unfold ResolvesPairedItems ChainsEnd
  simp only [resolves_iff, ← sound_iff usedMethodName, sameStep]
  apply AgreeingSearch.forall_meets_iff
  · intro call _ next follows
    exact ItemCall.follow (follows_iff.mp follows)
  · exact ambiguousProper

/-! ## Runs in which the sources were executed earlier -/

def ISourceData.run (source : ISourceData) : Rat := source.previousNodeRun.getD 0

/-- The first source is a task run that comes before the one of the second. -/
def ExecutedEarlier (order : String → Rat → Nat) (source sourceData : ISourceData) : Prop :=
  order source.previousNode source.run < order sourceData.previousNode sourceData.run

def SourcesEarlier (proxy : WorkflowDataProxy Item) (order : String → Rat → Nat) : Prop :=
  ∀ sourceData source, some source ∈ sourcesOf proxy sourceData →
    ExecutedEarlier order source sourceData

/-- The sources that replace those of the task were executed earlier too. -/
def OverwritesEarlier (proxy : WorkflowDataProxy Item) (order : String → Rat → Nat) : Prop :=
  ∀ call sourceData items item, outputOf proxy call = some (sourceData, items) →
    atIndex items call.pairedItem.item = some item →
    ∀ link ∈ normalizePairedItem (proxy.pairedItem item),
      ∀ source, link.sourceOverwrite = some source → ExecutedEarlier order source sourceData

variable {order : String → Rat → Nat}

theorem executedEarlier_of_follows (sources : SourcesEarlier proxy order)
    (overwrites : OverwritesEarlier proxy order)
    (follows : FollowsLink proxy destinationNodeName next call)
    {source : ISourceData} (given : next.sourceData = some source) :
    ∃ sourceData, call.sourceData = some sourceData ∧ ExecutedEarlier order source sourceData := by
  obtain ⟨sourceData, items, item, output, _, indexed, mem⟩ := follows
  refine ⟨sourceData, (outputOf_eq_some_iff.mp output).1, ?_⟩
  obtain ⟨link, linked, made⟩ := List.mem_filterMap.mp mem
  unfold nextCall at made
  simp only at made
  split_ifs at made
  cases made
  cases overwrite : link.sourceOverwrite with
  | some replaced =>
    have same : replaced = source := by
      simpa [PairedItemCall.sourceData, PairedItemCall.pairedItem,
        PairedItemEntry.normalize, overwrite] using given
    exact overwrites call sourceData items item output indexed link linked
      source (overwrite.trans (congrArg some same))
  | none =>
    have listed : (atIndex (sourcesOf proxy sourceData)
        (link.input.getD 0)).join = some source := by
      simpa [PairedItemCall.sourceData, PairedItemCall.pairedItem,
        PairedItemEntry.normalize, overwrite] using given
    exact sources sourceData source (mem_of_atIndex (Option.join_eq_some_iff.mp listed))

/-- Chains of links end where all sources were executed earlier. -/
theorem chainsEnd_of_earlier (sources : SourcesEarlier proxy order)
    (overwrites : OverwritesEarlier proxy order) (call : PairedItemCall) :
    ChainsEnd proxy destinationNodeName call := by
  let rank : PairedItemCall → Nat := fun call =>
    match call.sourceData with
    | none => 0
    | some source => order source.previousNode source.run + 1
  have decreases : ∀ next call,
      FollowsLink proxy destinationNodeName next call → rank next < rank call := by
    intro next call follows
    cases given : next.sourceData with
    | none =>
      obtain ⟨sourceData, _, _, output, _, _, _⟩ := follows
      simp only [rank, given, (outputOf_eq_some_iff.mp output).1]
      exact Nat.succ_pos _
    | some source =>
      obtain ⟨sourceData, here, earlier⟩ :=
        executedEarlier_of_follows sources overwrites follows given
      simp only [rank, given, here]
      exact Nat.succ_lt_succ earlier
  exact Subrelation.accessible (fun {next call} => decreases next call)
    (InvImage.accessible rank (Nat.lt_wfRel.wf.apply (rank call)))

/-- Each call ends, with an item or an error. -/
theorem getPairedItem_ends_of_earlier [DecidableEq Item] (sources : SourcesEarlier proxy order)
    (overwrites : OverwritesEarlier proxy order) (destinationNodeName : String)
    (usedMethodName : PairedItemMethod) (call : PairedItemCall) :
    ∃ enough answer, ∀ fuel, enough ≤ fuel →
      getPairedItem proxy destinationNodeName usedMethodName fuel call = some answer := by
  have ends : ChainsEnd proxy destinationNodeName call := chainsEnd_of_earlier sources overwrites call
  have sameStep : FollowsLink proxy destinationNodeName = AgreeingSearch.Follows
        (placeOf proxy destinationNodeName usedMethodName) := by
    funext next call
    exact propext follows_iff.symm
  rw [ChainsEnd, sameStep] at ends
  obtain ⟨answer, enough, ended⟩ := AgreeingSearch.answers_of_acc ends
  refine ⟨enough, answer, fun fuel more => ?_⟩
  rw [getPairedItem_eq_search]
  exact AgreeingSearch.search_mono ended more

end Search

/-! ## A link to an input that is not there -/

/-- `A` has the item 0, and `B` made the item 1 of it.  The item names the
fourth input of `B`, which has one.  The item 2 is the input of `C`. -/
def inputBeyondSources : WorkflowDataProxy Nat where
  runData :=
    { entries := [("A", [{ main := some [some [0]], source := [] }]),
          ("B", [{ main := some [some [1]]
                   source := [some { previousNode := "A" }] }])]
      nodup := by decide }
  pinData := .empty
  isManual := false
  connectionInputData := [2]
  executeSource := [some { previousNode := "B" }]
  pairedItem
    | 0 => .missing
    | 1 => .single (.data { item := 0, input := some 3 })
    | _ => .single (.data { item := 0 })
  isScriptingNode _ := false
  activeNodeName := "C"
  runIndex := 0
  itemIndex := 0
  numberText number := toString number.num

theorem getPairedItem_ends_inputBeyondSources : ∃ enough answer, ∀ fuel, enough ≤ fuel →
    getPairedItem inputBeyondSources "A" .item fuel
      (initialCall inputBeyondSources (.data { item := 0 })) = some answer := by
  let order : String → Rat → Nat := fun nodeName _ => if nodeName = "B" then 1 else 0
  have sources : SourcesEarlier inputBeyondSources order := by
    intro sourceData source mem
    cases found : getTaskData inputBeyondSources sourceData with
    | none => simp [sourcesOf, found] at mem
    | some task =>
      simp only [sourcesOf, found, Option.map_some, Option.getD_some] at mem
      rcases isTaskOf_of_getTaskData found with ⟨runs, executed, inRuns⟩ | pinned
      · have entry := OrderedMap.get?_eq_some_iff.mp executed
        simp only [inputBeyondSources, List.mem_cons, Prod.mk.injEq, List.not_mem_nil,
          or_false] at entry
        rcases entry with ⟨named, rfl⟩ | ⟨named, rfl⟩ <;> cases List.mem_singleton.mp inRuns
        · cases mem
        · cases List.mem_singleton.mp mem
          simp [ExecutedEarlier, order, named]
      · cases pinned
  have overwrites : OverwritesEarlier inputBeyondSources order := by
    intro _ _ _ item _ _ link mem source overwrite
    rcases item with _ | _ | item
    · cases mem
    all_goals
      cases List.mem_singleton.mp mem
      cases overwrite
  exact getPairedItem_ends_of_earlier sources overwrites "A" .item _

theorem not_resolvesPairedItems_inputBeyondSources :
    (∃ order, SourcesEarlier inputBeyondSources order) ∧
      ¬ ResolvesPairedItems inputBeyondSources "A" .item := by
  constructor
  · refine ⟨fun nodeName _ => if nodeName = "B" then 1 else 0, ?_⟩
    intro sourceData source mem
    unfold sourcesOf at mem
    cases found : getTaskData inputBeyondSources sourceData with
    | none =>
      rw [found] at mem
      cases mem
    | some task =>
      rw [found] at mem
      rcases isTaskOf_of_getTaskData found with ⟨runs, executed, inRuns⟩ | pinned
      · have entry := OrderedMap.get?_eq_some_iff.mp executed
        simp only [inputBeyondSources, List.mem_cons, Prod.mk.injEq,
          List.not_mem_nil, or_false] at entry
        rcases entry with ⟨named, rfl⟩ | ⟨named, rfl⟩
        · cases List.mem_singleton.mp inRuns
          cases mem
        · cases List.mem_singleton.mp inRuns
          cases List.mem_singleton.mp mem
          simp [ExecutedEarlier, named]
      · cases pinned
  · intro resolves
    have isInput : 2 ∈ inputBeyondSources.connectionInputData := List.mem_singleton.mpr rfl
    have call := ItemCall.ofInput isInput rfl
    have failed : getPairedItem inputBeyondSources "A" .item 2
        (initialCall inputBeyondSources (.data { item := 0 })) = some (.error .typeError) := by
      decide +kernel
    obtain ⟨answer, answered, meets⟩ := resolves_iff.mp (resolves _ call)
    cases answered.unique ⟨2, failed⟩
    obtain ⟨error, impossible⟩ := meets
    cases impossible

end PairedItems

end N8n
