import N8n.Engine.State

/-!
# Releasing waiting nodes

When the stack is empty at the end of an iteration, the loop looks for a
waiting node that may execute although some of its inputs have no data.  Waiting
entries that received no items at all are removed on the way.
-/

namespace N8n

namespace Workflow

variable (workflow : Workflow)

def requiredInputs (checkNode : INode) : Option RequiredInputs :=
  if workflow.executionOrder = some .v1 then
    match (workflow.nodeType checkNode).requiredInputs with
    | some (.expression text) =>
      some (.indexes (workflow.getSimpleParameterValue checkNode text))
    | other => other
  else none

/-- All inputs are required, so the node only executes when all have data. -/
def requiresAllInputs (checkNode : INode) : Bool :=
  let inputs := (workflow.nodeType checkNode).inputsLength
  match workflow.requiredInputs checkNode with
  | some (.indexes required) => required.length == inputs
  | some (.count required) => required == inputs
  | _ => false

end Workflow

/-- `parseInt(Object.keys(entries).sort()[0])`: the indices are sorted as
texts. -/
def firstRunIndex {α : Type} (entries : SortedMap Nat α) : Option Nat :=
  entries.keys.foldl (fun first index =>
      match first with
      | none => some index
      | some other =>
        if Nat.toDigits 10 index < Nat.toDigits 10 other then some index
        else some other)
    none

def inputsWithData {α : Type} (slots : SlotArray α) : List Nat :=
  slots.zipIdx.filterMap fun (data, index) =>
    match data with
    | .null | .hole => none
    | _ => some index

def hasRequiredInputs (requiredInputs : Option RequiredInputs) (inputsWithData : List Nat) : Bool :=
  match requiredInputs with
  | some (.indexes required) => required.all (inputsWithData.contains ·)
  | some (.count required) => required ≤ inputsWithData.length
  | _ => true

variable (slots : SlotArray (List INodeExecutionData))

/-- The data of an entry with an empty array for each input without data. -/
def taskDataMain : SlotArray (List INodeExecutionData) :=
  slots.map fun data => if data = .null then .value [] else data

/-- `taskDataMain.filter((data) => data.length).length !== 0` -/
def hasItems : Except ExecutionError Bool :=
  slots.foldlM (fun found data =>
      match data with
      | .undefined => .error .typeError
      | .value items => .ok (found || !items.isEmpty)
      | _ => .ok found)
    false

structure Releasable where
  checkNode : INode
  firstRunIndex : Nat
  taskDataMain : SlotArray (List INodeExecutionData)

section

variable (workflow : Workflow) (data : ExecutionData)

/-- The first entry of a waiting node, unless the node has to wait on. -/
def releasableEntry (waitingNodes : List String) (nodeName : String) :
    Except ExecutionError (Option Releasable) :=
  match workflow.getNode nodeName with
  | none => .ok none
  | some checkNode =>
    if workflow.requiresAllInputs checkNode then .ok none
    -- one of its dependencies is still outstanding
    else if (workflow.getParentNodes nodeName).any (waitingNodes.contains ·)
    then .ok none
    else
      match firstRunIndex (data.waitingExecution.entriesOf nodeName) with
      | none => .error .typeError
      | some index => do
        let slots ← data.waitingExecution.main nodeName index
        if hasRequiredInputs (workflow.requiredInputs checkNode) (inputsWithData slots) then
          return some
            { checkNode := checkNode
              firstRunIndex := index
              taskDataMain := taskDataMain slots }
        else return none

def findReleasable (workflow : Workflow) (data : ExecutionData) (waitingNodes : List String) :
    List String → Except ExecutionError (Option Releasable)
  | [] => .ok none
  | nodeName :: rest => do
    match ← releasableEntry workflow data waitingNodes nodeName with
    | some releasable => return some releasable
    | none => findReleasable workflow data waitingNodes rest

variable (releasable : Releasable)

def releasedItem : IExecuteData :=
  let nodeName := releasable.checkNode.name
  let inputs := (workflow.nodeType releasable.checkNode).inputsLength
  { node := releasable.checkNode
    data := .ofMain (releasable.taskDataMain ++
      List.replicate (inputs - releasable.taskDataMain.length) (.value []))
    source := (data.waitingExecutionSource.entriesOf nodeName).get? releasable.firstRunIndex }

/-- Remove an entry, and put it on the stack if it has items. -/
def release (found : Bool) (data : ExecutionData) : ExecutionData :=
  let queued :=
    if found then
      { data with
        nodeExecutionStack := data.nodeExecutionStack ++ [releasedItem workflow data releasable] }
    else data
  queued.deleteWaiting releasable.checkNode.name releasable.firstRunIndex

/-- The search for a node to execute.  Each round but the last removes an
entry, so there are at most as many rounds as entries and one more. -/
def releaseWaitingNodes (workflow : Workflow) : Nat → Engine PUnit
  | 0 => pure ⟨⟩
  | rounds + 1 => do
    let data := (← get).executionData
    let waitingNodes := data.waitingExecution.ownKeys
    match ← StateExcept.ofExcept (findReleasable workflow data waitingNodes waitingNodes) with
    | none => pure ⟨⟩
    | some releasable => do
      let found ← StateExcept.ofExcept (hasItems releasable.taskDataMain)
      Engine.updateExecutionData fun data =>
        return release workflow releasable found data
      if found then pure ⟨⟩ else releaseWaitingNodes workflow rounds

def WaitingSlots.count {α : Type} (waiting : WaitingSlots α) : Nat :=
  (waiting.values.map SortedMap.size).foldl (· + ·) 0

/-- The end of an iteration. -/
def checkWaitingNodes : Engine PUnit := do
  let data := (← get).executionData
  if data.nodeExecutionStack.isEmpty then
    releaseWaitingNodes workflow (data.waitingExecution.count + 1)

end

end N8n
