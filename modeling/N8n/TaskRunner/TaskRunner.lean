import N8n.Library.Machine
import N8n.Library.OrderedMap
import N8n.TaskRunner.TaskState

/-!
# The JavaScript task runner

`TaskRunner` offers its free places to the broker, turns accepted offers into
tasks, and answers each task.  Every event around it moves each of its tasks
along the life of a task or leaves it alone, and keeps open offers and running
tasks within the concurrency of the runner.
-/

namespace N8n

open OrderedMap List

structure TaskOffer where
  offerId : String
  validUntil : Nat

/-- The object of a task, with whether its timer is set. -/
structure TaskState where
  status : TaskStatus := .waitingForSettings
  timeoutTimer : Bool := true

inductive RunnerMessage where
  | taskoffer (taskType : String) (offerId : String) (validFor : Nat)
  | taskrejected (taskId : String) (reason : String)
  | taskaccepted (taskId : String)
  | taskdone (taskId : String) (data : String)
  | taskerror (taskId : String) (error : TaskError)

/-- The messages of a runner, and when its tasks were cancelled or left. -/
inductive TraceEntry where
  | sent (message : RunnerMessage)
  | cancelled (taskId : String)
  | left (taskId : String)

def TraceEntry.mark (taskId : String) : TraceEntry → Option Mark
  | .sent (.taskdone other _) => if other = taskId then some .answered else none
  | .sent (.taskerror other _) =>
    if other = taskId then some .answered else none
  | .sent _ => none
  | .cancelled other => if other = taskId then some .cancelled else none
  | .left other => if other = taskId then some .left else none

/-- The identifier and the random part of the validity of a new offer. -/
structure OfferDraw where
  offerId : String
  random : Fin 500

def offerValidTimeMs : Nat := 5000

def offerValidExtraMs : Nat := 100

def msToNs (ms : Nat) : Nat := ms * 1000000

/-- A runner.  `runningTasks` are the keys of the map of its tasks, whose
objects `taskStates` keeps also after they left the map.  `calls` are the
calls of `receivedSettings` that await something. -/
structure TaskRunner where
  taskType : String := "javascript"
  maxConcurrency : Nat
  taskTimeout : Nat := 300
  canSendOffers : Bool := false
  offerInterval : Bool := false
  openOffers : OrderedMap String TaskOffer := .empty
  runningTasks : List String := []
  taskStates : OrderedMap String TaskState := .empty
  calls : OrderedMap String Continuation := .empty
  clock : Nat := 0
  trace : List TraceEntry := []

namespace TaskRunner

section

variable (runner : TaskRunner)

def stopTaskOffers : TaskRunner :=
  { runner with
    canSendOffers := false
    offerInterval := false }

def startTaskOffers : TaskRunner :=
  { runner with
    canSendOffers := true
    offerInterval := true }

def send (message : RunnerMessage) : TaskRunner :=
  { runner with trace := runner.trace ++ [.sent message] }

def deleteStaleOffers : TaskRunner :=
  { runner with
    openOffers := runner.openOffers.filter fun entry =>
      ¬ entry.2.validUntil < runner.clock }

/-- One turn of the loop of `sendOffers`. -/
def sendOffer (draw : OfferDraw) : TaskRunner :=
  let validForInMs := offerValidTimeMs + draw.random
  { runner with
    openOffers := runner.openOffers.set draw.offerId
      { offerId := draw.offerId
        validUntil := runner.clock + msToNs (validForInMs + offerValidExtraMs) } }.send
    (.taskoffer runner.taskType draw.offerId validForInMs)

def sendOffers (draws : Nat → OfferDraw) : TaskRunner :=
  let runner := runner.deleteStaleOffers
  if runner.canSendOffers then
    (List.range (runner.maxConcurrency -
      (runner.openOffers.size + runner.runningTasks.length))).foldl
        (fun runner index => runner.sendOffer (draws index)) runner
  else runner

def hasOpenTaskSlots : Bool :=
  runner.runningTasks.length < runner.maxConcurrency

/-- Use up an offer for a new task. -/
def addTask (offerId taskId : String) : TaskRunner :=
  { runner with
    openOffers := runner.openOffers.delete offerId
    taskStates := runner.taskStates.set taskId {}
    runningTasks := runner.runningTasks ++ [taskId] }

def offerAccepted (offerId taskId : String) : TaskRunner :=
  if runner.hasOpenTaskSlots then
    match runner.openOffers.get? offerId with
    | none => runner.send (.taskrejected taskId
        "Offer expired - not accepted within validity window")
    | some _ => (runner.addTask offerId taskId).send (.taskaccepted taskId)
  else
    { runner with openOffers := runner.openOffers.delete offerId }.send
      (.taskrejected taskId "No open task slots - runner already at capacity")

section

variable (taskId : String)

section

variable (state : TaskState)

def setState : TaskRunner :=
  { runner with taskStates := runner.taskStates.set taskId state }

/-- Clear the timer of the task and remove it from the running tasks. -/
def removeTask : TaskRunner :=
  { runner.setState taskId { state with timeoutTimer := false } with
    runningTasks := runner.runningTasks.erase taskId
    trace := runner.trace ++ (if taskId ∈ runner.runningTasks then [.left taskId] else []) }

section

variable (draws : Nat → OfferDraw) (taskId : String)

def finishTask (state : TaskState) : TaskRunner :=
  (runner.removeTask taskId state).sendOffers draws

def getTask : Option TaskState :=
  if taskId ∈ runner.runningTasks then runner.taskStates.get? taskId
  else none

def cancelled (runner : TaskRunner) (taskId : String) : TaskRunner :=
  { runner with trace := runner.trace ++ [.cancelled taskId] }

def taskCancelled : TaskRunner :=
  match runner.getTask taskId with
  | none => runner
  | some state =>
    match state.status with
    | .waitingForSettings =>
      (runner.cancelled taskId).finishTask draws taskId state
    | .abortingTimeout => runner
    | .abortingCancelled => runner
    | .running =>
      (runner.cancelled taskId).setState taskId { state with status := .abortingCancelled }

def taskTimedOut : TaskRunner :=
  match runner.getTask taskId with
  | none => runner
  | some state =>
    match state.status with
    | .waitingForSettings =>
      (runner.send (.taskerror taskId (.timeout runner.taskTimeout))).finishTask draws taskId state
    -- the status is unexpected, and the error is not handled
    | .abortingTimeout => runner
    | .running =>
      runner.setState taskId { state with status := .abortingTimeout }
    | .abortingCancelled => runner

end

def setCall (call : Option Continuation) : TaskRunner :=
  { runner with calls := match call with
      | some call => runner.calls.set taskId call
      | none => runner.calls.delete taskId }

def receivedSettings : TaskRunner :=
  match runner.getTask taskId with
  | none => runner
  | some state =>
    match state.status with
    | .waitingForSettings =>
      (runner.setState taskId { state with status := .running }).setCall taskId (some .executing)
    -- the status is unexpected, and the error is not handled
    | .abortingCancelled => runner
    | .abortingTimeout => runner
    | .running => runner

/-- `taskExecutionSucceeded` up to the call of `finishTask`. -/
def taskExecutionSucceeded (data : Payload) : TaskRunner :=
  match state.status with
  | .waitingForSettings =>
    runner.setCall taskId (some (.replied (some .unexpectedTaskStatus)))
  | .abortingCancelled => runner.setCall taskId (some (.replied none))
  | .abortingTimeout | .running =>
    if data.serializable then
      (runner.send (.taskdone taskId data.content)).setCall taskId (some (.replied none))
    else runner.setCall taskId (some (.replied (some .stringify)))

/-- `taskExecutionFailed` up to the call of `finishTask`.  What it throws is
not handled. -/
def taskExecutionFailed (error : TaskError) : TaskRunner :=
  match state.status with
  | .waitingForSettings => runner.setCall taskId (some (.replied none))
  | .abortingCancelled => runner.setCall taskId (some (.replied none))
  | .abortingTimeout | .running =>
    if error.serializable then
      (runner.send (.taskerror taskId error)).setCall taskId (some (.replied none))
    else runner.setCall taskId (some (.replied none))

end

def task : Task :=
  { status := (runner.taskStates.get? taskId).map TaskState.status
    running := runner.runningTasks.contains taskId
    call := runner.calls.get? taskId
    marks := runner.trace.filterMap (TraceEntry.mark taskId) }

end

end

end TaskRunner

inductive TaskOutcome where
  | resolved (data : Payload)
  | rejected (error : Payload)

/-- What happens around a runner: broker messages, the loss of the
connection, the offer interval, the passing of time, the timers of the tasks,
and the continuations of `receivedSettings`. -/
inductive RunnerEvent where
  | runnerregistered
  | close
  | offerInterval (draws : Nat → OfferDraw)
  | elapse (nanoseconds : Nat)
  | taskofferaccept (offerId taskId : String)
  | taskcancel (draws : Nat → OfferDraw) (taskId : String)
  | tasksettings (taskId : String)
  | timeout (draws : Nat → OfferDraw) (taskId : String)
  | executed (taskId : String) (outcome : TaskOutcome)
  | rejected (taskId : String)
  | finish (draws : Nat → OfferDraw) (taskId : String)

namespace TaskRunner

/-- One event.  The broker draws a new identifier for each task. -/
def step : Machine TaskRunner RunnerEvent
  | runner, .runnerregistered => some runner.startTaskOffers
  | runner, .close => some runner.stopTaskOffers
  | runner, .offerInterval draws =>
    if runner.offerInterval then some (runner.sendOffers draws) else none
  | runner, .elapse nanoseconds =>
    some { runner with clock := runner.clock + nanoseconds }
  | runner, .taskofferaccept offerId taskId =>
    match runner.taskStates.get? taskId with
    | none => some (runner.offerAccepted offerId taskId)
    | some _ => none
  | runner, .taskcancel draws taskId =>
    some (runner.taskCancelled draws taskId)
  | runner, .tasksettings taskId => some (runner.receivedSettings taskId)
  | runner, .timeout draws taskId =>
    match runner.taskStates.get? taskId with
    | none => none
    | some state =>
      if state.timeoutTimer then
        some ((runner.setState taskId
          { state with timeoutTimer := false }).taskTimedOut draws taskId)
      else none
  | runner, .executed taskId outcome =>
    match runner.taskStates.get? taskId, runner.calls.get? taskId with
    | some state, some .executing =>
      match outcome with
      | .resolved data =>
        some (runner.taskExecutionSucceeded taskId state data)
      | .rejected error =>
        some (runner.setCall taskId (some (.rejected (.thrown error))))
    | _, _ => none
  | runner, .rejected taskId =>
    match runner.taskStates.get? taskId, runner.calls.get? taskId with
    | some state, some (.rejected error) =>
      some (runner.taskExecutionFailed taskId state error)
    | _, _ => none
  | runner, .finish draws taskId =>
    match runner.taskStates.get? taskId, runner.calls.get? taskId with
    | some state, some (.replied thrown) =>
      some ((runner.finishTask draws taskId state).setCall taskId (thrown.map .rejected))
    | _, _ => none

def validOffers (runner : TaskRunner) : OrderedMap String TaskOffer :=
  runner.deleteStaleOffers.openOffers

/-- The runner keeps within its concurrency, and each of its tasks leaves it
once and is answered once, and not after it was cancelled. -/
structure WithinCapacity (runner : TaskRunner) : Prop where
  capacity : runner.validOffers.size + runner.runningTasks.length ≤ runner.maxConcurrency
  orderly : ∀ taskId, Task.Orderly (runner.task taskId).marks

structure Invariant (runner : TaskRunner) : Prop where
  capacity : runner.openOffers.size + runner.runningTasks.length ≤ runner.maxConcurrency
  nodup : runner.runningTasks.Nodup
  ordered : ∀ taskId, (runner.task taskId).Ordered

section Steps

variable {runner next : TaskRunner}

theorem task_send (message : RunnerMessage) (taskId : String) :
    (runner.send message).task taskId = { runner.task taskId with
        marks := (runner.task taskId).marks ++
          ((TraceEntry.sent message).mark taskId).toList } := by
  cases mark : (TraceEntry.sent message).mark taskId <;> simp [task, send, mark]

theorem task_addTask (offerId taskId other : String) : (runner.addTask offerId taskId).task other =
      if taskId = other then
        { runner.task other with
          status := some .waitingForSettings
          running := true }
      else runner.task other := by
  by_cases same : taskId = other
  · simp [task, addTask, same]
  · simp [task, addTask, get?_set, same, Ne.symm same]

section

variable (taskId other : String)

theorem task_cancelled : (runner.cancelled taskId).task other = { runner.task other with
        marks := (runner.task other).marks ++
          if taskId = other then [.cancelled] else [] } := by
  by_cases same : taskId = other <;> simp [task, cancelled, TraceEntry.mark, same]

theorem task_setState (state : TaskState) : (runner.setState taskId state).task other =
      if taskId = other then
        { runner.task other with status := some state.status }
      else runner.task other := by
  by_cases same : taskId = other <;> simp [task, setState, get?_set, same]

theorem task_setCall (call : Option Continuation) : (runner.setCall taskId call).task other =
      if taskId = other then { runner.task other with call := call }
      else runner.task other := by
  cases call with
  | none =>
    by_cases same : taskId = other <;> simp [task, setCall, get?_delete, same]
  | some call =>
    by_cases same : taskId = other <;> simp [task, setCall, get?_set, same]

end

variable {taskId : String} {state : TaskState}

theorem task_removeTask (nodup : runner.runningTasks.Nodup) (found : runner.taskStates.get? taskId = some state)
    (other : String) :
    (runner.removeTask taskId state).task other =
      if taskId = other then
        { runner.task other with
          running := false
          marks := (runner.task other).marks ++
            if (runner.task other).running then [.left] else [] }
      else runner.task other := by
  by_cases same : taskId = other
  · subst same
    by_cases mem : taskId ∈ runner.runningTasks <;>
      simp [task, removeTask, setState, found, mem, nodup.not_mem_erase, TraceEntry.mark]
  · by_cases mem : taskId ∈ runner.runningTasks <;>
      simp [task, removeTask, setState, get?_set, same, mem,
        List.mem_erase_of_ne (Ne.symm same), TraceEntry.mark]

variable (draws : Nat → OfferDraw)

@[simp] theorem task_sendOffers (taskId : String) :
    (runner.sendOffers draws).task taskId = runner.task taskId := by
  have turns : ∀ (indices : List Nat) (runner : TaskRunner),
      (indices.foldl (fun runner index => runner.sendOffer (draws index))
        runner).task taskId = runner.task taskId := by
    intro indices
    induction indices with
    | nil => exact fun _ => rfl
    | cons index indices ih =>
      intro runner
      rw [List.foldl_cons, ih]
      exact (task_send _ _).trans (by simp [TraceEntry.mark, task])
  simp only [sendOffers]
  split
  · exact turns _ _
  · rfl

@[simp] theorem runningTasks_sendOffers :
    (runner.sendOffers draws).runningTasks = runner.runningTasks := by
  have turns : ∀ (indices : List Nat) (runner : TaskRunner),
      (indices.foldl (fun runner index => runner.sendOffer (draws index))
        runner).runningTasks = runner.runningTasks := by
    intro indices
    induction indices with
    | nil => exact fun _ => rfl
    | cons index indices ih => exact fun runner => ih _
  simp only [sendOffers]
  split
  · exact turns _ _
  · rfl

theorem capacity_sendOffers
    (capacity : runner.openOffers.size + runner.runningTasks.length ≤ runner.maxConcurrency) :
    (runner.sendOffers draws).openOffers.size + (runner.sendOffers draws).runningTasks.length ≤
        (runner.sendOffers draws).maxConcurrency := by
  have turns : ∀ (indices : List Nat) (runner : TaskRunner),
      runner.openOffers.size + runner.runningTasks.length + indices.length ≤ runner.maxConcurrency →
      let last := indices.foldl (fun runner index => runner.sendOffer (draws index)) runner
      last.openOffers.size + last.runningTasks.length ≤
        last.maxConcurrency := by
    intro indices
    induction indices with
    | nil => exact fun _ room => room
    | cons index indices ih =>
      intro runner room
      apply ih
      have grown := runner.openOffers.size_set_le (draws index).offerId
        { offerId := (draws index).offerId
          validUntil := runner.clock + msToNs (offerValidTimeMs +
            (draws index).random + offerValidExtraMs) }
      simp only [sendOffer, send, List.length_cons] at room grown ⊢
      omega
  have fewer := runner.openOffers.size_filter_le fun entry => ¬ entry.2.validUntil < runner.clock
  simp only [sendOffers]
  split
  · apply turns
    simp only [deleteStaleOffers, List.length_range] at fewer ⊢
    omega
  · simp only [deleteStaleOffers] at fewer ⊢
    omega

theorem Invariant.of_moves (inv : Invariant runner) (taskId : String)
    (capacity : next.openOffers.size + next.runningTasks.length ≤
      next.maxConcurrency)
    (nodup : next.runningTasks.Nodup)
    (moves : Task.Moves (runner.task taskId) (next.task taskId))
    (others : ∀ other, other ≠ taskId →
      next.task other = runner.task other) : Invariant next := by
  refine ⟨capacity, nodup, ?_⟩
  intro other
  by_cases same : other = taskId
  · subst same
    exact (inv.ordered other).moves moves
  · rw [others other same]
    exact inv.ordered other

theorem Invariant.of_task_moves (inv : Invariant runner)
    (taskId : String) (offers : next.openOffers = runner.openOffers)
    (running : next.runningTasks = runner.runningTasks)
    (limit : next.maxConcurrency = runner.maxConcurrency)
    (moves : Task.Moves (runner.task taskId) (next.task taskId))
    (others : ∀ other, other ≠ taskId →
      next.task other = runner.task other) : Invariant next := by
  apply inv.of_moves taskId
  · rw [offers, running, limit]
    exact inv.capacity
  · rw [running]
    exact inv.nodup
  · exact moves
  · exact others

theorem Invariant.of_offers (inv : Invariant runner)
    (capacity : next.openOffers.size + next.runningTasks.length ≤
      next.maxConcurrency)
    (running : next.runningTasks = runner.runningTasks)
    (tasks : ∀ taskId, next.task taskId = runner.task taskId) :
    Invariant next := by
  refine ⟨capacity, running ▸ inv.nodup, ?_⟩
  intro taskId
  rw [tasks taskId]
  exact inv.ordered taskId

theorem Invariant.sendOffers (inv : Invariant runner)
    (draws : Nat → OfferDraw) : Invariant (runner.sendOffers draws) := by
  apply inv.of_offers
  · exact capacity_sendOffers draws inv.capacity
  · exact runningTasks_sendOffers draws
  · exact task_sendOffers draws

theorem Invariant.offerAccepted (inv : Invariant runner) (offerId taskId : String)
    (fresh : runner.taskStates.get? taskId = none) :
    Invariant (runner.offerAccepted offerId taskId) := by
  have capacity := inv.capacity
  simp only [TaskRunner.offerAccepted]
  split
  · split
    · apply inv.of_offers
      · exact capacity
      · rfl
      · simp [task_send, TraceEntry.mark]
    next offer found =>
      have freed := size_delete_of_get? found
      have unknown : (runner.task taskId).status = none := by
        simp [task, fresh]
      have outside : taskId ∉ runner.runningTasks := by
        have running := ((inv.ordered taskId).unknown unknown).1
        simpa [task] using running
      apply inv.of_moves taskId
      · simp only [send, addTask, length_append, length_singleton]
        omega
      · apply nodup_append.mpr
        refine ⟨inv.nodup, nodup_singleton taskId, ?_⟩
        intro left mem right same equal
        rw [mem_singleton.mp same] at equal
        exact outside (equal ▸ mem)
      · have moves := Task.Moves.accept unknown
        simpa [task_send, task_addTask, TraceEntry.mark] using moves
      · intro other ne
        simp [task_send, task_addTask, TraceEntry.mark, Ne.symm ne]
  · have fewer := runner.openOffers.size_delete_le offerId
    apply inv.of_offers
    · simp only [send]
      omega
    · rfl
    · intro other
      rw [task_send]
      simp [TraceEntry.mark, task]

theorem getTask_eq_some (found : runner.getTask taskId = some state) :
    taskId ∈ runner.runningTasks ∧ runner.taskStates.get? taskId = some state := by
  simpa [getTask] using found

theorem waits_of_getTask (found : runner.getTask taskId = some state)
    (status : state.status = .waitingForSettings) :
    (runner.task taskId).Waits := by
  obtain ⟨mem, object⟩ := getTask_eq_some found
  simp [Task.Waits, task, mem, object, status]

theorem status_of_get? (found : runner.taskStates.get? taskId = some state) :
    (runner.task taskId).status = some state.status := by
  simp [task, found]

theorem task_finishTask (nodup : runner.runningTasks.Nodup)
    (found : runner.taskStates.get? taskId = some state) (other : String) :
    (runner.finishTask draws taskId state).task other =
      if taskId = other then
        { runner.task other with
          running := false
          marks := (runner.task other).marks ++
            if (runner.task other).running then [.left] else [] }
      else runner.task other := by
  simp only [finishTask, task_sendOffers, task_removeTask nodup found]

theorem capacity_finishTask (taskId : String) (state : TaskState)
    (capacity : runner.openOffers.size + runner.runningTasks.length ≤ runner.maxConcurrency) :
    (runner.finishTask draws taskId state).openOffers.size +
      (runner.finishTask draws taskId state).runningTasks.length ≤
        (runner.finishTask draws taskId state).maxConcurrency := by
  apply capacity_sendOffers
  have fewer := List.length_erase_le (a := taskId) (l := runner.runningTasks)
  simp only [removeTask, setState]
  omega

theorem nodup_finishTask (taskId : String) (state : TaskState) (nodup : runner.runningTasks.Nodup) :
    (runner.finishTask draws taskId state).runningTasks.Nodup := by
  rw [finishTask, runningTasks_sendOffers]
  exact nodup.erase taskId

theorem Invariant.finishTask (inv : Invariant runner)
    (finished : TaskRunner) (draws : Nat → OfferDraw)
    (found : finished.taskStates.get? taskId = some state)
    (offers : finished.openOffers = runner.openOffers)
    (running : finished.runningTasks = runner.runningTasks)
    (limit : finished.maxConcurrency = runner.maxConcurrency)
    (moves : Task.Moves (runner.task taskId) { finished.task taskId with
        running := false
        marks := (finished.task taskId).marks ++
          if (finished.task taskId).running then [.left] else [] })
    (others : ∀ other, other ≠ taskId → finished.task other = runner.task other) :
    Invariant (finished.finishTask draws taskId state) := by
  have nodup : finished.runningTasks.Nodup := running ▸ inv.nodup
  apply inv.of_moves taskId
  · apply capacity_finishTask
    rw [offers, running, limit]
    exact inv.capacity
  · exact nodup_finishTask draws taskId state nodup
  · rw [task_finishTask draws nodup found, if_pos rfl]
    exact moves
  · intro other ne
    rw [task_finishTask draws nodup found, if_neg (Ne.symm ne)]
    exact others other ne

theorem Invariant.taskCancelled (inv : Invariant runner)
    (draws : Nat → OfferDraw) (taskId : String) :
    Invariant (runner.taskCancelled draws taskId) := by
  simp only [TaskRunner.taskCancelled]
  split
  · exact inv
  next state found =>
    obtain ⟨mem, object⟩ := getTask_eq_some found
    split
    next status =>
      have waits := waits_of_getTask found status
      apply inv.finishTask (runner.cancelled taskId) draws object rfl rfl rfl
      · have moves := Task.Moves.drop waits
        simpa [task_cancelled, waits.1] using moves
      · intro other ne
        simp [task_cancelled, Ne.symm ne]
    · exact inv
    · exact inv
    next status =>
      refine inv.of_task_moves taskId rfl rfl rfl ?_ ?_
      · have moves := Task.Moves.cancel ((status_of_get? object).trans (congrArg some status))
        simpa [task_setState, task_cancelled] using moves
      · intro other ne
        simp [task_setState, task_cancelled, Ne.symm ne]

theorem Invariant.taskTimedOut (inv : Invariant runner)
    (draws : Nat → OfferDraw) (taskId : String) :
    Invariant (runner.taskTimedOut draws taskId) := by
  simp only [TaskRunner.taskTimedOut]
  split
  · exact inv
  next state found =>
    obtain ⟨mem, object⟩ := getTask_eq_some found
    split
    next status =>
      have waits := waits_of_getTask found status
      apply inv.finishTask (runner.send (.taskerror taskId
        (.timeout runner.taskTimeout))) draws object rfl rfl rfl
      · have moves := Task.Moves.expire waits
        simpa [task_send, TraceEntry.mark, waits.1] using moves
      · intro other ne
        simp [task_send, TraceEntry.mark, Ne.symm ne]
    · exact inv
    next status =>
      refine inv.of_task_moves taskId rfl rfl rfl ?_ ?_
      · have moves := Task.Moves.timeout ((status_of_get? object).trans (congrArg some status))
        simpa [task_setState] using moves
      · intro other ne
        simp [task_setState, Ne.symm ne]
    · exact inv

theorem Invariant.receivedSettings (inv : Invariant runner)
    (taskId : String) : Invariant (runner.receivedSettings taskId) := by
  simp only [TaskRunner.receivedSettings]
  split
  · exact inv
  next state found =>
    split
    next status =>
      refine inv.of_task_moves taskId rfl rfl rfl ?_ ?_
      · have moves := Task.Moves.begin (waits_of_getTask found status)
        simpa [task_setState, task_setCall] using moves
      · intro other ne
        simp [task_setState, task_setCall, Ne.symm ne]
    · exact inv
    · exact inv
    · exact inv

theorem Invariant.reply (inv : Invariant runner)
    (asked : (runner.task taskId).Asked) (thrown : Option TaskError) :
    Invariant (runner.setCall taskId (some (.replied thrown))) := by
  refine inv.of_task_moves taskId rfl rfl rfl ?_ ?_
  · simpa [task_setCall] using Task.Moves.fail thrown asked
  · intro other ne
    simp [task_setCall, Ne.symm ne]

variable {message : RunnerMessage}

theorem Invariant.answer (inv : Invariant runner) (asked : (runner.task taskId).Asked)
    (sends : (runner.task taskId).status = some .running ∨
      (runner.task taskId).status = some .abortingTimeout)
    (marks : ∀ other, (TraceEntry.sent message).mark other =
      if taskId = other then some .answered else none) :
    Invariant ((runner.send message).setCall taskId (some (.replied none))) := by
  refine inv.of_task_moves taskId rfl rfl rfl ?_ ?_
  · simpa [task_setCall, task_send, marks] using Task.Moves.answer asked sends
  · intro other ne
    simp [task_setCall, task_send, marks, Ne.symm ne]

/-- The end of an execution answers a task that runs or has timed out, if the
answer can be sent. -/
theorem Invariant.executionEnds (inv : Invariant runner)
    (found : runner.taskStates.get? taskId = some state)
    (asked : (runner.task taskId).Asked)
    (marks : ∀ other, (TraceEntry.sent message).mark other =
      if taskId = other then some .answered else none)
    (sends : Bool) (early late unsent : Option TaskError) :
    Invariant (match state.status with
      | .waitingForSettings => runner.setCall taskId (some (.replied early))
      | .abortingCancelled => runner.setCall taskId (some (.replied late))
      | .abortingTimeout | .running =>
        if sends then (runner.send message).setCall taskId (some (.replied none))
        else runner.setCall taskId (some (.replied unsent))) := by
  have status := status_of_get? found
  split
  · exact inv.reply asked _
  · exact inv.reply asked _
  next timedOut =>
    split
    · exact inv.answer asked (.inr (by rw [status, timedOut])) marks
    · exact inv.reply asked _
  next runs =>
    split
    · exact inv.answer asked (.inl (by rw [status, runs])) marks
    · exact inv.reply asked _

theorem Invariant.taskExecutionSucceeded (inv : Invariant runner) (found : runner.taskStates.get? taskId = some state)
    (asked : (runner.task taskId).Asked) (data : Payload) :
    Invariant (runner.taskExecutionSucceeded taskId state data) := by
  apply inv.executionEnds found asked
  exact fun _ => rfl

theorem Invariant.taskExecutionFailed (inv : Invariant runner) (found : runner.taskStates.get? taskId = some state)
    (asked : (runner.task taskId).Asked) (error : TaskError) :
    Invariant (runner.taskExecutionFailed taskId state error) := by
  apply inv.executionEnds found asked
  exact fun _ => rfl

theorem invariant_step (event : RunnerEvent) (inv : Invariant runner)
    (moved : step runner event = some next) : Invariant next := by
  cases event with
  | runnerregistered | close | elapse nanoseconds =>
    cases moved
    exact ⟨inv.capacity, inv.nodup, inv.ordered⟩
  | offerInterval draws =>
    simp only [step] at moved
    split at moved
    · cases moved
      exact inv.sendOffers draws
    · cases moved
  | taskofferaccept offerId taskId =>
    simp only [step] at moved
    split at moved
    next fresh =>
      cases moved
      exact inv.offerAccepted offerId taskId fresh
    · cases moved
  | taskcancel draws taskId =>
    cases moved
    exact inv.taskCancelled draws taskId
  | tasksettings taskId =>
    cases moved
    exact inv.receivedSettings taskId
  | timeout draws taskId =>
    simp only [step] at moved
    split at moved
    · cases moved
    next state found =>
      obtain ⟨_, rfl⟩ := Machine.of_guarded moved
      have fired : Invariant (runner.setState taskId { state with timeoutTimer := false }) := by
        refine inv.of_offers inv.capacity rfl ?_
        intro other
        rw [task_setState]
        split
        next same =>
          subst same
          simp [task, found]
        · rfl
      exact fired.taskTimedOut draws taskId
  | executed taskId outcome =>
    simp only [step] at moved
    split at moved
    next state found called =>
      have executing : (runner.task taskId).call = some .executing := called
      cases outcome with
      | resolved data =>
        cases moved
        exact inv.taskExecutionSucceeded found (.inl executing) data
      | rejected error =>
        cases moved
        refine inv.of_task_moves taskId rfl rfl rfl ?_ ?_
        · simpa [task_setCall] using Task.Moves.reject (.thrown error) executing
        · intro other ne
          simp [task_setCall, Ne.symm ne]
    · cases moved
  | rejected taskId =>
    simp only [step] at moved
    split at moved
    next state error found called =>
      cases moved
      exact inv.taskExecutionFailed found (.inr ⟨error, called⟩) error
    · cases moved
  | finish draws taskId =>
    simp only [step] at moved
    split at moved
    next state thrown found called =>
      cases moved
      have nodup := inv.nodup
      have replied : (runner.task taskId).call = some (.replied thrown) := called
      apply inv.of_moves taskId
      · exact capacity_finishTask draws taskId state inv.capacity
      · exact nodup_finishTask draws taskId state nodup
      · simpa [task_setCall, task_finishTask draws nodup found] using Task.Moves.finish replied
      · intro other ne
        simp [task_setCall, task_finishTask draws nodup found, Ne.symm ne]
    · cases moved

theorem invariant_start (maxConcurrency : Nat) :
    Invariant { maxConcurrency := maxConcurrency } := by
  constructor
  · exact Nat.zero_le _
  · exact List.nodup_nil
  · intro taskId
    constructor
    · exact fun _ => ⟨rfl, rfl, rfl⟩
    · simp [task]
    · constructor <;> simp [task]
    · simp [task]
    · simp [task]
    · simp [task]

theorem Invariant.withinCapacity (inv : Invariant runner) : runner.WithinCapacity := by
  constructor
  · have capacity := inv.capacity
    have fewer := runner.openOffers.size_filter_le fun entry => ¬ entry.2.validUntil < runner.clock
    simp only [validOffers, deleteStaleOffers] at fewer ⊢
    omega
  · exact fun taskId => (inv.ordered taskId).orderly

end Steps

/-- In every state of every run the valid offers and the running tasks keep
within the concurrency of the runner, and each task leaves once and is answered
once, and not after it was cancelled. -/
theorem withinCapacity_of_run {maxConcurrency : Nat} {events : List RunnerEvent} {last : TaskRunner}
    (run : step.run { maxConcurrency := maxConcurrency } events = some last) :
    last.WithinCapacity := by
  apply Invariant.withinCapacity
  apply Machine.invariant_of_run Invariant
  · exact fun _ event _ invariant stepped => invariant_step event invariant stepped
  · exact invariant_start maxConcurrency
  · exact run

section Example

def cancelledWhileRunning : List RunnerEvent :=
  let draws index := { offerId := toString index, random := 0 }
  [.runnerregistered, .offerInterval draws, .taskofferaccept "0" "task",
   .tasksettings "task", .taskcancel draws "task",
   .executed "task" (.resolved { content := "[]", serializable := true }),
   .finish draws "task"]

theorem withinCapacity_cancelledWhileRunning :
    ∃ last, step.run { maxConcurrency := 1 } cancelledWhileRunning = some last ∧
      (last.task "task").marks = [.cancelled, .left] ∧
      last.WithinCapacity := by
  have run : ∃ last, step.run { maxConcurrency := 1 } cancelledWhileRunning =
        some last ∧ (last.task "task").marks = [.cancelled, .left] :=
    ⟨_, rfl, by decide⟩
  obtain ⟨last, run, marks⟩ := run
  exact ⟨last, run, marks, withinCapacity_of_run run⟩

end Example

end TaskRunner

end N8n
