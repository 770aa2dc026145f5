import N8n.Library.StateExcept
import N8n.Workflow.Workflow

/-!
# The state of a running execution

The parts of `runExecutionData` which the execution loop reads and writes,
with the operations on the execution stack and on the waiting entries.
-/

namespace N8n

open StateExcept

/-- The state of `WorkflowExecute`.  `rewireOutputLogTo` holds the types that
engine requests write into nodes of the workflow. -/
structure RunExecutionData where
  executionData : ExecutionData := {}
  runData : IRunData := .empty
  pinData : Option IPinData := none
  lastNodeExecuted : Option String := none
  waitTill : Bool := false
  runNodeFilter : Option (List String) := none
  destinationNode : Option String := none
  rewireOutputLogTo : OrderedMap String NodeConnectionType := .empty
  currentNodeExecutionIndex : Nat := 0
deriving DecidableEq

abbrev Engine := StateExcept RunExecutionData ExecutionError

namespace WaitingSlots

variable {α : Type}

def main (waiting : WaitingSlots α) (nodeName : String) (index : Nat) :
    Except ExecutionError (SlotArray α) :=
  match ((waiting.entriesOf nodeName).get? index).bind (·.get? .main) with
  | some slots => .ok slots
  | none => .error .typeError

theorem main_eq_ok {waiting : WaitingSlots α} {nodeName : String}
    {index : Nat} {slots : SlotArray α} :
    waiting.main nodeName index = .ok slots ↔
      ∃ connections, (waiting.entriesOf nodeName).get? index =
        some connections ∧ connections.get? .main = some slots := by
  rw [main, ← Option.bind_eq_some_iff]
  split
  next found =>
    rw [found, Except.ok.injEq, Option.some.injEq]
  next found =>
    rw [found]
    simp

variable (waiting : WaitingSlots α) (nodeName : String) (index : Nat)

/-- `waiting[nodeName][index].main[inputIndex] = slot` -/
def writeSlot (inputIndex : Int) (slot : Slot α) : Except ExecutionError (WaitingSlots α) := do
  let slots ← waiting.main nodeName index
  let entry := ((waiting.entriesOf nodeName).get? index).getD .empty
  return waiting.set nodeName ((waiting.entriesOf nodeName).set index
    (entry.set .main (slots.put inputIndex slot)))

/-- `waiting[nodeName][index] = { main: slots }` -/
def setMain (slots : SlotArray α) : WaitingSlots α :=
  waiting.set nodeName ((waiting.entriesOf nodeName).set index (OrderedMap.empty.set .main slots))

/-- Delete an entry, and the node with its last entry. -/
def deleteEntry (last : Bool) : WaitingSlots α :=
  if last then waiting.delete nodeName
  else waiting.set nodeName ((waiting.entriesOf nodeName).delete index)

end WaitingSlots

namespace ExecutionData

/-- `nodeExecutionStack[enqueueFn](item)` -/
def enqueue (workflow : Workflow) (data : ExecutionData) (item : IExecuteData) : ExecutionData :=
  { data with
    nodeExecutionStack :=
      if workflow.executionOrder = some .v1 then item :: data.nodeExecutionStack
      else data.nodeExecutionStack ++ [item] }

variable (data : ExecutionData)

section

variable (nodeName : String)

def startWaiting : ExecutionData :=
  if data.waitingExecution.has nodeName then data
  else
    { data with
      waitingExecution := data.waitingExecution.set nodeName .empty
      waitingExecutionSource := data.waitingExecutionSource.set nodeName .empty }

def prepareWaitingToExecution (numberOfConnections runIndex : Nat) : ExecutionData :=
  { data with
    waitingExecution := data.waitingExecution.setMain nodeName runIndex
      (SlotArray.nulls numberOfConnections)
    waitingExecutionSource := data.waitingExecutionSource.setMain nodeName
      runIndex (SlotArray.nulls numberOfConnections) }

def deleteWaiting (index : Nat) : ExecutionData :=
  let last := ((data.waitingExecution.entriesOf nodeName).delete index).isEmpty
  { data with
    waitingExecution := data.waitingExecution.deleteEntry nodeName index last
    waitingExecutionSource := data.waitingExecutionSource.deleteEntry nodeName index last }

end

end ExecutionData

namespace Engine

def updateExecutionData (change : ExecutionData → Except ExecutionError ExecutionData) :
    Engine PUnit :=
  modifyOrThrow fun state => do
    return { state with executionData := ← change state.executionData }

theorem exec_updateExecutionData_eq_ok
    {change : ExecutionData → Except ExecutionError ExecutionData}
    {state last : RunExecutionData} :
    exec (updateExecutionData change) state = (.ok ⟨⟩, last) ↔
      ∃ data, change state.executionData = .ok data ∧
        last = { state with executionData := data } := by
  rw [updateExecutionData, exec_modifyOrThrow_eq_ok]
  cases changed : change state.executionData with
  | error error => simp [bind, Except.bind]
  | ok data => simp [bind, Except.bind, pure, Except.pure, eq_comm]

end Engine

end N8n
