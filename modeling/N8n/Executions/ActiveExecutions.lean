import N8n.Concurrency.ConcurrencyControl
import N8n.Workflow.Interfaces

/-!
# Active executions

`ActiveExecutions.add` creates or resumes an execution, waits for a slot and
registers it with a promise that settles when the execution ends.  The callback
of the promise gives the slot back.  Calls of `add` are suspended while the
database and the concurrency control work, and stops, ends and other calls
happen in between.
-/

namespace N8n

/-- Where a call of `add` is.  A removed call waits for a slot that it will
not get. -/
inductive AddPhase where
  | creating
  | throttled
  | saving
  | added
  | removed
  | failed
deriving DecidableEq

/-- The promise of a registered execution, until its callback has run. -/
inductive PostExecutePromise where
  | pending
  | settled
  | handled
deriving DecidableEq

/-- A call of `add` with the execution it registers.  The history says whether
the execution was stopped or finalized since. -/
structure AddCall where
  mode : ExecutionMode
  executionId : Option String := none
  phase : AddPhase := .creating
  status : ExecutionStatus := .running
  responsePromise : Bool := false
  postExecutePromise : PostExecutePromise := .pending
  finalized : Bool := false

abbrev AddId := Nat

/-- The registered executions by their calls of `add`, in a regular process or
in one of the queue mode.  The last fields are history: the calls that the
concurrency control gave a slot, and those it took one back for. -/
structure ActiveExecutions where
  regular : Bool
  control : ConcurrencyControl
  activeExecutions : OrderedMap String AddId := .empty
  calls : List AddCall := []
  acquired : List AddId := []
  released : List AddId := []

namespace ActiveExecutions

variable (active : ActiveExecutions)

def addCall (mode : ExecutionMode) : ActiveExecutions :=
  { active with calls := active.calls ++ [{ mode := mode }] }

variable (addId : AddId)

def setCall (call : AddCall) : ActiveExecutions :=
  { active with calls := active.calls.set addId call }

/-- The call of `add` that waits first for the execution. -/
def throttled (active : ActiveExecutions)
    (type : Option ConcurrencyQueueType) (executionId : String) :
    Option AddId :=
  active.calls.findIdx? fun call =>
    call.phase = .throttled && call.executionId = some executionId && call.mode.queueType = type

def letThrough (type : Option ConcurrencyQueueType) (executionId : String) : ActiveExecutions :=
  match active.throttled type executionId with
  | none => active
  | some addId =>
    match active.calls[addId]? with
    | none => active
    | some call =>
      { active.setCall addId { call with phase := .saving } with
        acquired := active.acquired ++ [addId] }

def letNext (mode : ExecutionMode)
    (resolved : ConcurrencyControl × Option String) : ActiveExecutions :=
  let active := { active with control := resolved.1 }
  match resolved.2 with
  | none => active
  | some executionId => active.letThrough mode.queueType executionId

def throttle (active : ActiveExecutions) (addId : AddId) (call : AddCall)
    (executionId : String) : ActiveExecutions :=
  let call := { call with executionId := some executionId }
  if active.control.limits call.mode then
    (active.setCall addId { call with phase := .throttled }).letNext call.mode
      (active.control.throttle call.mode executionId)
  else active.setCall addId { call with phase := .saving }

def register (call : AddCall) (executionId : String) : ActiveExecutions :=
  let resumingExecution := (active.activeExecutions.get? executionId).bind (active.calls[·]?)
  { active.setCall addId { call with
        executionId := some executionId
        phase := .added
        status := .running
        responsePromise := resumingExecution.any (·.responsePromise) } with
    activeExecutions := active.activeExecutions.set executionId addId }

def settle : ActiveExecutions :=
  match active.calls[addId]? with
  | none => active
  | some call =>
    if call.postExecutePromise = .pending then
      active.setCall addId { call with postExecutePromise := .settled }
    else active

def get? (active : ActiveExecutions) (executionId : String) : Option (AddId × AddCall) :=
  (active.activeExecutions.get? executionId).bind fun addId =>
    active.calls[addId]?.map fun call => (addId, call)

variable (executionId : String)

/-- The history of an execution that is stopped or finalized. -/
def finish : ActiveExecutions :=
  { active with
    calls := active.calls.map fun call =>
      if call.phase = .added ∧ call.executionId = some executionId then
        { call with finalized := true }
      else call }

def finalizeExecution : ActiveExecutions :=
  match active.activeExecutions.get? executionId with
  | none => active
  | some addId => active.settle addId

def stopExecution : ActiveExecutions :=
  match active.get? executionId with
  | none => active
  | some (addId, call) =>
    if call.status = .waiting then
      { active with
        activeExecutions := active.activeExecutions.delete executionId }
    else active.settle addId

def handlePromise (call : AddCall) : ActiveExecutions :=
  let handled := ({ active.setCall addId { call with postExecutePromise := .handled } with
    released := if active.control.limits call.mode then
        active.released ++ [addId]
      else active.released }).letNext call.mode (active.control.release call.mode)
  match call.executionId with
  | none => handled
  | some executionId =>
    if call.status = .waiting then handled
    else
      { handled with
        activeExecutions := handled.activeExecutions.delete executionId }

/-- `ConcurrencyControlService.remove`, for an execution that waits.  When
another execution is let through, a slot was given back for it. -/
def remove (active : ActiveExecutions) (mode : ExecutionMode)
    (executionId : String) : ActiveExecutions :=
  let resolved := active.control.remove mode executionId
  match active.throttled mode.queueType executionId with
  | none => active.letNext mode resolved
  | some addId =>
    match active.calls[addId]? with
    | none => active.letNext mode resolved
    | some call =>
      { active.setCall addId { call with phase := .removed } with
        released := if resolved.2.isSome then
            active.released ++ [addId]
          else active.released }.letNext mode resolved

/-- One turn of the loop of `shutdown`. -/
def shutdownExecution (cancelAll : Bool) (active : ActiveExecutions)
    (executionId : String) : ActiveExecutions :=
  match active.get? executionId with
  | none => active
  | some (_, call) =>
    if call.responsePromise || active.regular && cancelAll then
      (active.stopExecution executionId).finish executionId
    else if call.status = .waiting ∨ call.status = .new then
      { active with
        activeExecutions := active.activeExecutions.delete executionId }
    else active

/-- `shutdown` up to the wait for the executions.  Behind it `removeAll` does
nothing, since the control is disabled. -/
def shutdown (cancelAll : Bool) : ActiveExecutions :=
  active.activeExecutions.keys.foldl (shutdownExecution cancelAll) { active with
      control := if active.regular then active.control.disable
        else active.control }

end ActiveExecutions

/-- What can happen next around the active executions: calls of `add` and their
continuations, and calls of the other functions. -/
inductive ActiveEvent where
  | add (mode : ExecutionMode)
  | resume (mode : ExecutionMode) (executionId : String)
  | created (addId : AddId) (executionId : String)
  | createFails (addId : AddId)
  | saved (addId : AddId)
  | saveFails (addId : AddId)
  | setStatus (executionId : String) (status : ExecutionStatus)
  | attachResponsePromise (executionId : String)
  | stopExecution (executionId : String)
  | finalizeExecution (executionId : String)
  | promiseHandled (addId : AddId)
  | remove (mode : ExecutionMode) (executionId : String)
  | shutdown (cancelAll : Bool)

namespace ActiveExecutions

def update (active : ActiveExecutions) (executionId : String)
    (change : AddCall → AddCall) : Option ActiveExecutions :=
  (active.get? executionId).map fun (addId, call) =>
    active.setCall addId (change call)

/-- One event.  The database draws a new identifier for each execution, and a
call that saves fails when the database does or the execution is being resumed
already. -/
def step : Machine ActiveExecutions ActiveEvent
  | active, .add mode =>
    some (active.addCall mode)
  | active, .resume mode executionId =>
    some ((active.addCall mode).throttle active.calls.length { mode := mode } executionId)
  | active, .created addId executionId =>
    match active.calls[addId]? with
    | none => none
    | some call =>
      if call.phase = .creating ∧ ∀ other ∈ active.calls, other.executionId ≠ some executionId then
        if active.regular then
          some (active.throttle addId call executionId)
        else some (active.register addId call executionId)
      else none
  | active, .createFails addId =>
    match active.calls[addId]? with
    | none => none
    | some call =>
      if call.phase = .creating then
        some (active.setCall addId { call with phase := .failed })
      else none
  | active, .saved addId =>
    match active.calls[addId]? with
    | none => none
    | some call =>
      match call.phase, call.executionId with
      | .saving, some executionId =>
        some (active.register addId call executionId)
      | _, _ => none
  | active, .saveFails addId =>
    match active.calls[addId]? with
    | none => none
    | some call =>
      if call.phase = .saving then
        some (active.setCall addId { call with phase := .failed })
      else none
  | active, .setStatus executionId status =>
    active.update executionId fun call => { call with status := status }
  | active, .attachResponsePromise executionId =>
    active.update executionId fun call =>
      { call with responsePromise := true }
  | active, .stopExecution executionId =>
    some ((active.stopExecution executionId).finish executionId)
  | active, .finalizeExecution executionId =>
    some ((active.finalizeExecution executionId).finish executionId)
  | active, .promiseHandled addId =>
    match active.calls[addId]? with
    | none => none
    | some call =>
      if call.postExecutePromise = .settled then
        some (active.handlePromise addId call)
      else none
  | active, .remove mode executionId =>
    if active.control.has executionId then
      some (active.remove mode executionId)
    else none
  | active, .shutdown cancelAll => some (active.shutdown cancelAll)

end ActiveExecutions

end N8n
