import N8n.Engine.HandleRequest

/-!
# The output of a node

What the loop does with the items a node receives and returns: it renews the
paired items of the input, moves failed items to the error output, pairs the
items of the output with those of the input, and merges error information
into the items.
-/

namespace N8n

open OrderedMap

abbrev NodeSuccessData := SlotArray (List INodeExecutionData)

section Input

/-- The paired item of an item of the input.  Only tools keep the source of
the item. -/
def pairedInputItem (keepsSource : Bool) (inputIndex itemIndex : Nat)
    (item : INodeExecutionData) : INodeExecutionData :=
  let sourceOverwrite :=
    match item.pairedItem with
    | some (.single data) => if keepsSource then data.sourceOverwrite else none
    | _ => none
  { item with
    pairedItem := some (.single
      { item := itemIndex
        input := orUndefined inputIndex
        sourceOverwrite := sourceOverwrite }) }

def pairedInput (keepsSource : Bool) (inputIndex : Nat) : Slot (List INodeExecutionData) →
      Except ExecutionError (Slot (List INodeExecutionData))
  | .hole => .ok .hole
  | .null => .ok .null
  | .undefined => .error .typeError
  | .value items =>
    .ok (.value (items.mapIdx (pairedInputItem keepsSource inputIndex)))

def newTaskDataConnections (executionData : IExecuteData) :
    Except ExecutionError ITaskDataConnections :=
  let isToolExecution := (executionData.metadata.map (·.preserveSourceOverwrite)).getD false
  executionData.data.entries.foldlM (fun connections (connectionType, inputs) => do
      let paired ← inputs.zipIdx.mapM fun (input, inputIndex) =>
        pairedInput isToolExecution inputIndex input
      return connections.set connectionType paired)
    .empty

end Input

section ErrorOutput

/-- `$getPairedItem` of the data proxy. -/
abbrev GetPairedItem :=
  String → ISourceData → IPairedItemData → Except ExecutionError (Option INodeExecutionData)

variable (item : INodeExecutionData)

/-- The error information of an item that counts as failed. -/
def INodeExecutionData.errorData : Option JsonValue :=
  let error := (lookupIn "error" item.json).filter (·.isTruthy)
  let message := (lookupIn "message" item.json).filter (·.isTruthy)
  match item.error.filter (·.isTruthy) with
  | some error => some error
  | none =>
    if item.json.length = 1 then error
    else if message.isSome ∧ item.json.length = 2 then error
    else none

/-- The first paired item when it is an object. -/
def INodeExecutionData.pairedItemData : Option IPairedItemData :=
  match item.pairedItem with
  | some (.single data) => some data
  | some (.multiple data) => data.head?
  | _ => none

variable (getPairedItem : GetPairedItem) (executionData : IExecuteData)

/-- A failed item as the error output receives it, with the fields of the
item it comes from. -/
def errorItem (item : INodeExecutionData) : Except ExecutionError INodeExecutionData :=
  match executionData.source, item.pairedItemData with
  | some source, some pairedItemData =>
    match (source.get? .main).bind fun slots =>
        (slots.at' (pairedItemData.input.getD 0)).value? with
    | none => .error .typeError
    | some sourceData => do
      match ← getPairedItem sourceData.previousNode sourceData pairedItemData with
      | none => return item
      | some constPairedItem =>
        return { item with
          json := IDataObject.spread constPairedItem.json item.json }
  | _, _ => .ok item

def splitItems (errorItems items : List INodeExecutionData) :
    Except ExecutionError (List INodeExecutionData × List INodeExecutionData) :=
  items.foldlM (fun (successItems, errorItems) item =>
      match item.errorData with
      | some _ => do
        return (successItems, errorItems ++ [← errorItem getPairedItem executionData item])
      | none => return (successItems ++ [item], errorItems))
    ([], errorItems)

def Workflow.numberOfMainOutputs (workflow : Workflow) (node : INode) : Nat :=
  (workflow.nodeType node).mainOutputs +
    if node.onError = some .continueErrorOutput then 1 else 0

def handleNodeErrorOutput (workflow : Workflow) (getPairedItem : GetPairedItem)
    (executionData : IExecuteData) (nodeSuccessData : NodeSuccessData) :
    Except ExecutionError NodeSuccessData := do
  let errorOutput := workflow.numberOfMainOutputs executionData.node - 1
  let (nodeSuccessData, errorItems) ← (List.range errorOutput).foldlM
    (fun (nodeSuccessData, errorItems) (outputIndex : Nat) => do
      let items := ((nodeSuccessData.at' outputIndex).value?).getD []
      let (successItems, errorItems) ← splitItems getPairedItem executionData errorItems items
      return (nodeSuccessData.put outputIndex (.value successItems), errorItems))
    (nodeSuccessData, [])
  return nodeSuccessData.put errorOutput (.value errorItems)

end ErrorOutput

section PairedItems

/-- What an item without paired item comes from. -/
inductive AutoPairing where
  | single
  | sameNumber
  | none

variable (inputs : SlotArray (List INodeExecutionData))

def autoPairing (nodeSuccessData : NodeSuccessData) : Except ExecutionError AutoPairing := do
  let inputLength := (inputs.at' 0).value?.map List.length
  let isSameNumberOfItems ←
    if nodeSuccessData.length = 1 ∧ inputs.length = 1 then
      match nodeSuccessData.at' 0 with
      | .value outputData => .ok (inputLength == some outputData.length)
      | _ => .error .typeError
    else .ok false
  if inputs.length = 1 ∧ inputLength = some 1 then return .single
  if isSameNumberOfItems then return .sameNumber
  return .none

/-- Pair the items of an output.  The second component says whether an item
could not be paired, which ends the pairing of all outputs. -/
def pairOutput (pairing : AutoPairing) :
    List (INodeExecutionData × Nat) → List INodeExecutionData × Bool
  | [] => ([], false)
  | (item, index) :: rest =>
    let source : Option Nat :=
      match pairing with
      | .single => some 0
      | .sameNumber => some index
      | .none => none
    match item.pairedItem, source with
    | none, none => (item :: rest.map Prod.fst, true)
    | none, some source =>
      let (paired, stopped) := pairOutput pairing rest
      ({ item with pairedItem := some (.single { item := source }) } :: paired, stopped)
    | some _, _ =>
      let (paired, stopped) := pairOutput pairing rest
      (item :: paired, stopped)

def pairOutputs (pairing : AutoPairing) : NodeSuccessData → Except ExecutionError NodeSuccessData
  | [] => .ok []
  | .null :: rest => do return .null :: (← pairOutputs pairing rest)
  | .value outputData :: rest => do
    let (paired, stopped) := pairOutput pairing outputData.zipIdx
    if stopped then return .value paired :: rest
    return .value paired :: (← pairOutputs pairing rest)
  | .hole :: _ | .undefined :: _ => .error .typeError

variable (nodeSuccessData : Option NodeSuccessData)

def assignPairedItems (executionData : IExecuteData) :
    Except ExecutionError (Option NodeSuccessData) :=
  match nodeSuccessData with
  | none => .ok none
  | some [] => .ok (some [])
  | some outputs =>
    match executionData.data.get? .main with
    | none => .error .typeError
    | some inputs => do
      return some (← pairOutputs (← autoPairing inputs outputs) outputs)

/-- `nodeSuccessData?.[0]?.[0]` -/
def firstItem : Option INodeExecutionData :=
  (nodeSuccessData.bind fun outputs => (outputs.at' 0).value?).bind List.head?

/-- The empty item of a node with `alwaysOutputData`, paired with all items of
the input. -/
def alwaysOutputItem : INodeExecutionData :=
  { json := []
    pairedItem := some (.multiple (inputs.zipIdx.flatMap fun (input, inputIndex) =>
        (input.value?.getD []).mapIdx fun itemIndex _ =>
          { item := itemIndex
            input := some inputIndex })) }

def alwaysOutputData (nodeSuccessData : Option NodeSuccessData) (executionData : IExecuteData) :
    Except ExecutionError (Option NodeSuccessData) :=
  if (firstItem nodeSuccessData).isNone ∧ executionData.node.alwaysOutputData = some true then
    match executionData.data.get? .main with
    | none => .error .typeError
    | some inputs =>
      .ok (some ((nodeSuccessData.getD []).put 0 (.value [alwaysOutputItem inputs])))
  else .ok nodeSuccessData

end PairedItems

section MergeErrors

/-- `{ error: error.message }` -/
def errorJson (error : JsonValue) : Except ExecutionError IDataObject :=
  match error with
  | .null => .error .typeError
  | error =>
    match error.property? "message" with
    | some message => .ok [("error", message)]
    | none => .ok []

/-- Move the error information of an item to its default place. -/
def mergeError (item : INodeExecutionData) : Except ExecutionError INodeExecutionData :=
  match lookupIn "$error" item.json, lookupIn "$json" item.json with
  | some error, some _ => do
    return { item with
      error := some error
      json := ← errorJson error }
  | _, _ =>
    match item.error with
    | some error => do return { item with json := ← errorJson error }
    | none => .ok item

/-- The outputs with merged errors.  The loop fails at a missing output. -/
def mergeErrors (nodeSuccessData : Option NodeSuccessData) :
    Except ExecutionError NodeSuccessData :=
  match nodeSuccessData with
  | none => .error .typeError
  | some outputs => outputs.mapM fun output =>
    match output with
    | .value items => do return .value (← items.mapM mergeError)
    | _ => .error .typeError

end MergeErrors

end N8n
