import N8n.Library.Machine
import N8n.Library.OrderedMap
import N8n.Library.OrderedSet

/-!
# The task broker

`TaskBroker` matches task requests with the offers of runners, asks the runner
of a match whether it takes the task, tells the requester, and forwards its
settings.  Each call of `acceptOffer` is suspended several times, and timers,
messages and other calls run in between.
-/

namespace N8n

namespace TaskBroker

/-- The identifiers of tasks are drawn by the broker, one after the other. -/
abbrev TaskId := Nat

structure Task where
  runnerId : String
  requesterId : String
  taskType : String
  timeout : Bool := false

structure TaskOffer where
  offerId : String
  runnerId : String
  taskType : String
  validFor : Int
  validUntil : Int
deriving DecidableEq

/-- A request, with whether the timer that expires it is set. -/
structure TaskRequest where
  requesterId : String
  taskType : String
  timeout : Bool := true
  acceptInProgress : Bool := false

inductive BrokerMessage where
  | runnerregistered
  | taskofferaccept (offerId : String) (taskId : TaskId)
  | taskcancel (taskId : TaskId) (reason : String)
  | tasksettings (taskId : TaskId) (settings : String)
  | requestexpired (requestId : String) (reason : String)
  | taskready (requestId : String) (taskId : TaskId)
  | taskdone (taskId : TaskId) (data : String)
  | taskerror (taskId : TaskId) (error : String)

/-- The messages of the broker, and when it matched a request and when it was
told that a requester cancels a task. -/
inductive BrokerEntry where
  | toRunner (runnerId : String) (message : BrokerMessage)
  | toRequester (requesterId : String) (message : BrokerMessage)
  | matched (requestId : String)
  | cancelled (taskId : TaskId)

/-- The promise that the runner answers, or its timer rejects. -/
inductive RunnerAnswer where
  | pending
  | accepted
  | rejected (reason : String)
  | deferred
  | timedOut
deriving DecidableEq

inductive RequesterAnswer where
  | pending
  | settings (settings : String)
  | rejected (reason : String)
  | timedOut
deriving DecidableEq

/-- Where a call of `acceptOffer` is suspended. -/
inductive AcceptPhase where
  | messagingRunner
  | awaitingRunner
  | messagingRequester
  | awaitingRequester
  | findingRunner (runnerId settings : String)
  | failingTask
  | sendingSettings
  | cancelling
  | ended
deriving DecidableEq

/-- A call of `acceptOffer` with its two promises and their timers. -/
structure AcceptCall where
  offer : TaskOffer
  requestId : String
  runnerAnswer : RunnerAnswer := .pending
  runnerTimer : Bool := true
  requesterAnswer : RequesterAnswer := .pending
  requesterTimer : Bool := false
  phase : AcceptPhase := .messagingRunner

inductive RunnerMode where
  | internal
  | external
deriving DecidableEq

end TaskBroker

/-- The broker.  Requests are objects that `requests` keeps by their
identifiers, `accepts` are the calls of `acceptOffer` by their tasks, and
`completing` are the calls of `taskDoneHandler` and `taskErrorHandler` that
await the requester.  The last fields are history: the released requests
became available again since offers and requests were settled, the answered
tasks are those a runner answered, the accepted tasks those a runner that is
still connected accepted, and the failed completions those whose requester
failed. -/
structure TaskBroker where
  mode : TaskBroker.RunnerMode := .internal
  knownRunners : List String := []
  requesters : List String := []
  tasks : OrderedMap TaskBroker.TaskId TaskBroker.Task := .empty
  runnerAcceptRejects : List TaskBroker.TaskId := []
  requesterAcceptRejects : List TaskBroker.TaskId := []
  pendingTaskOffers : List TaskBroker.TaskOffer := []
  pendingTaskRequests : List String := []
  requests : OrderedMap String TaskBroker.TaskRequest := .empty
  nextTaskId : TaskBroker.TaskId := 0
  accepts : OrderedMap TaskBroker.TaskId TaskBroker.AcceptCall := .empty
  completing : List TaskBroker.TaskId := []
  timingOut : List TaskBroker.TaskId := []
  time : Nat := 0
  trace : List TaskBroker.BrokerEntry := []
  released : List String := []
  answered : List TaskBroker.TaskId := []
  accepted : List (String × TaskBroker.TaskId) := []
  failed : List TaskBroker.TaskId := []

namespace TaskBroker

variable (broker : TaskBroker)

def log (entries : List BrokerEntry) : TaskBroker :=
  { broker with trace := broker.trace ++ entries }

def messageRunner (runnerId : String) (message : BrokerMessage) : TaskBroker :=
  broker.log (if runnerId ∈ broker.knownRunners then [.toRunner runnerId message]
      else [])

def messageRequester (requesterId : String) (message : BrokerMessage) : TaskBroker :=
  broker.log (if requesterId ∈ broker.requesters then
        [.toRequester requesterId message]
      else [])

/-- An offer of a launcher does not expire. -/
def TaskOffer.hasExpired (offer : TaskOffer) (time : Nat) : Bool :=
  offer.validFor ≠ -1 && offer.validUntil < time

def expireTasks : TaskBroker :=
  { broker with
    pendingTaskOffers := broker.pendingTaskOffers.filter fun offer =>
      !offer.hasExpired broker.time }

variable (taskId : TaskId) (call : AcceptCall)

def setAccept : TaskBroker :=
  { broker with accepts := broker.accepts.set taskId call }

variable (requestId : String) (request : TaskRequest)

def setRequest : TaskBroker :=
  { broker with requests := broker.requests.set requestId request }

/-- `acceptOffer` up to the message to the runner. -/
def acceptOffer (offer : TaskOffer) (requestId : String) : TaskBroker :=
  { broker with
    nextTaskId := broker.nextTaskId + 1
    runnerAcceptRejects := broker.runnerAcceptRejects ++ [broker.nextTaskId]
    accepts := broker.accepts.set broker.nextTaskId
      { offer := offer
        requestId := requestId } }.messageRunner offer.runnerId
    (.taskofferaccept offer.offerId broker.nextTaskId)

def settleRequest : TaskBroker :=
  match broker.requests.get? requestId with
  | none => broker
  | some request =>
    if request.acceptInProgress then broker
    else
      match broker.pendingTaskOffers.find? (·.taskType = request.taskType) with
      | none => broker
      | some offer =>
        ({ broker.setRequest requestId { request with acceptInProgress := true } with
          pendingTaskOffers := broker.pendingTaskOffers.eraseP (·.taskType = request.taskType) }.log
              [.matched requestId]).acceptOffer offer requestId

def settleTasks : TaskBroker :=
  broker.pendingTaskRequests.foldl settleRequest { broker.expireTasks with released := [] }

def taskRequested (requestId requesterId taskType : String) : TaskBroker :=
  { broker with
    requests := broker.requests.set requestId
      { requesterId := requesterId
        taskType := taskType }
    pendingTaskRequests := broker.pendingTaskRequests ++ [requestId] }.settleTasks

def taskOffered (offer : TaskOffer) : TaskBroker :=
  { broker with
    pendingTaskOffers := broker.pendingTaskOffers ++ [offer] }.settleTasks

/-- The expiry of the request whose timer fires. -/
def handleRequestTimeout : TaskBroker :=
  let broker := broker.setRequest requestId { request with timeout := false }
  if requestId ∈ broker.pendingTaskRequests then
    { broker with
      pendingTaskRequests := broker.pendingTaskRequests.erase requestId
      }.messageRequester request.requesterId (.requestexpired requestId "timeout")
  else broker

variable (reason : String)

def cancelTask : TaskBroker :=
  match broker.tasks.get? taskId with
  | none => broker
  | some task =>
    { broker with tasks := broker.tasks.delete taskId }.messageRunner
      task.runnerId (.taskcancel taskId reason)

def failTask (error : String) : TaskBroker :=
  match broker.tasks.get? taskId with
  | none => broker
  | some task =>
    { broker with tasks := broker.tasks.delete taskId }.messageRequester
      task.requesterId (.taskerror taskId error)

def settleRunner (answer : RunnerAnswer) : TaskBroker :=
  match broker.accepts.get? taskId with
  | some call =>
    if call.runnerAnswer = .pending then
      broker.setAccept taskId { call with runnerAnswer := answer }
    else broker
  | none => broker

/-- `handleRunnerAccept`, `handleRunnerReject` and `handleRunnerDeferred`. -/
def answerRunner (answer : RunnerAnswer) : TaskBroker :=
  if taskId ∈ broker.runnerAcceptRejects then
    { broker.settleRunner taskId answer with
      runnerAcceptRejects := broker.runnerAcceptRejects.filter (· ≠ taskId) }
  else broker

def handleRunnerAccept : TaskBroker :=
  broker.answerRunner taskId .accepted

def handleRunnerReject : TaskBroker :=
  broker.answerRunner taskId (.rejected reason)

def handleRunnerDeferred : TaskBroker :=
  broker.answerRunner taskId .deferred

variable (answer : RequesterAnswer)

def settleRequester : TaskBroker :=
  match broker.accepts.get? taskId with
  | some call =>
    if call.requesterAnswer = .pending then
      broker.setAccept taskId { call with requesterAnswer := answer }
    else broker
  | none => broker

/-- `handleRequesterAccept` and `handleRequesterReject`. -/
def answerRequester : TaskBroker :=
  if taskId ∈ broker.requesterAcceptRejects then
    { broker.settleRequester taskId answer with
      requesterAcceptRejects := broker.requesterAcceptRejects.filter (· ≠ taskId) }
  else broker

variable (settings : String)

def handleRequesterAccept : TaskBroker :=
  broker.answerRequester taskId (.settings settings)

def handleRequesterReject : TaskBroker :=
  broker.answerRequester taskId (.rejected reason)

def registerRunner (runnerId : String) : TaskBroker :=
  { broker with
    knownRunners := OrderedSet.add broker.knownRunners runnerId
    }.messageRunner runnerId .runnerregistered

variable (runnerId error : String)

/-- Fail the task of a runner that has disconnected. -/
def dropTask (broker : TaskBroker) (entry : TaskId × Task) : TaskBroker :=
  if entry.2.runnerId = runnerId then
    (broker.failTask entry.1 error).handleRunnerReject entry.1
      s!"The Task Runner ({runnerId}) has disconnected: {error}"
  else broker

def deregisterRunner : TaskBroker :=
  broker.tasks.entries.foldl (dropTask runnerId error) { broker with
      knownRunners := broker.knownRunners.filter (· ≠ runnerId)
      pendingTaskOffers := broker.pendingTaskOffers.filter (·.runnerId ≠ runnerId)
      accepted := broker.accepted.filter (·.1 ≠ runnerId) }

def setTask (task : Task) : TaskBroker :=
  { broker with tasks := broker.tasks.set taskId task }

/-- `taskDoneHandler` and `taskErrorHandler` up to the message. -/
def completeTask (message : BrokerMessage) : TaskBroker :=
  match broker.tasks.get? taskId with
  | none => broker
  | some task =>
    { broker.setTask taskId { task with timeout := false } with
      completing := broker.completing ++ [taskId] }.messageRequester task.requesterId message

def taskDoneHandler (data : String) : TaskBroker :=
  broker.completeTask taskId (.taskdone taskId data)

def taskErrorHandler (error : String) : TaskBroker :=
  broker.completeTask taskId (.taskerror taskId error)

def timeoutError : String := "Task execution timed out"

/-- `handleTaskTimeout` of a task whose timer fires. -/
def handleTaskTimeout (task : Task) : TaskBroker :=
  let broker := broker.setTask taskId { task with timeout := false }
  match broker.mode with
  | .internal => broker.taskErrorHandler taskId timeoutError
  | .external =>
    { broker with timingOut := broker.timingOut ++ [taskId] }.messageRunner
      task.runnerId (.taskcancel taskId timeoutError)

/-- A response of a requester goes to the runner of its task, by
`getRunnerOrFailTask`. -/
def handleResponse : TaskBroker :=
  match broker.tasks.get? taskId with
  | none => broker
  | some task =>
    if task.runnerId ∈ broker.knownRunners then broker
    else broker.failTask taskId s!"Cannot find runner, failed to find runner ({task.runnerId})"

/-- A failed attempt makes the request of a call available again. -/
def releaseRequest : TaskBroker :=
  match broker.requests.get? requestId with
  | none => broker
  | some request =>
    { broker.setRequest requestId { request with acceptInProgress := false } with
      released := broker.released ++ [requestId] }

/-- A deferred request is pushed again, with a new timer. -/
def deferRequest : TaskBroker :=
  match broker.requests.get? requestId with
  | none => broker
  | some request =>
    { broker.setRequest requestId { request with
          timeout := true
          acceptInProgress := false } with
      pendingTaskRequests := broker.pendingTaskRequests ++ [requestId]
      released := broker.released ++ [requestId] }

def setPhase (phase : AcceptPhase) : TaskBroker :=
  broker.setAccept taskId { call with phase := phase }

/-- What follows in `acceptOffer` when the runner has accepted. -/
def announceTask : TaskBroker :=
  match broker.requests.get? call.requestId with
  | none => broker
  | some request =>
    let broker := (broker.setRequest call.requestId
      { request with timeout := false }).setTask taskId
        { runnerId := call.offer.runnerId
          requesterId := request.requesterId
          taskType := call.offer.taskType }
    if call.requestId ∈ broker.pendingTaskRequests then
      { broker.setAccept taskId { call with
            requesterTimer := true
            phase := .messagingRequester } with
        pendingTaskRequests := broker.pendingTaskRequests.erase call.requestId
        requesterAcceptRejects := broker.requesterAcceptRejects ++ [taskId] }.messageRequester
            request.requesterId (.taskready call.requestId taskId)
    -- the request expired in between, and nobody is told
    else broker.setPhase taskId call .ended

/-- The handler of `acceptOffer` for errors after the task was announced. -/
def cancelAccept : TaskBroker :=
  (broker.cancelTask taskId reason).setPhase taskId call .cancelling

/-- `sendTaskSettings` up to its first suspension. -/
def findRunner : TaskBroker :=
  match broker.tasks.get? taskId with
  | none => broker.cancelAccept taskId call "Unknown reason"
  | some task =>
    if task.runnerId ∈ broker.knownRunners then
      broker.setPhase taskId call (.findingRunner task.runnerId settings)
    else
      (broker.failTask taskId s!"Cannot find runner, failed to find runner ({task.runnerId})"
        ).setPhase taskId call .failingTask

/-- The rest of `sendTaskSettings`. -/
def forwardSettings (runnerId settings : String) : TaskBroker :=
  match broker.tasks.get? taskId with
  | none => broker.setPhase taskId call .ended
  | some task =>
    ((broker.setTask taskId { task with timeout := true }).messageRunner
      runnerId (.tasksettings taskId settings)).setPhase taskId call .sendingSettings

/-- `acceptOffer` goes on from where it is suspended, if it can.  Where it
awaits the callback of a runner or a requester, this may fail. -/
def resumeAccept (fails : Bool) : Option TaskBroker :=
  match call.phase with
  | .messagingRunner =>
    if fails then
      some ((broker.releaseRequest call.requestId).setPhase taskId call .ended)
    else some (broker.setPhase taskId call .awaitingRunner)
  | .awaitingRunner =>
    match call.runnerAnswer with
    | .pending => none
    | .accepted => some (broker.announceTask taskId call)
    | .rejected _ | .timedOut =>
      some ((broker.releaseRequest call.requestId).setPhase taskId call .ended)
    | .deferred =>
      some ((broker.deferRequest call.requestId).setPhase taskId call .ended)
  | .messagingRequester =>
    if fails then some (broker.cancelAccept taskId call "Unknown reason")
    else some (broker.setPhase taskId call .awaitingRequester)
  | .awaitingRequester =>
    match call.requesterAnswer with
    | .pending => none
    | .settings settings => some (broker.findRunner taskId call settings)
    | .rejected reason => some (broker.cancelAccept taskId call reason)
    | .timedOut => some (broker.cancelAccept taskId call "Unknown reason")
  | .findingRunner runnerId settings =>
    some (broker.forwardSettings taskId call runnerId settings)
  | .failingTask => some (broker.cancelAccept taskId call "Unknown reason")
  | .sendingSettings =>
    if fails then some (broker.cancelAccept taskId call "Unknown reason")
    else some (broker.setPhase taskId call .ended)
  | .cancelling => some (broker.setPhase taskId call .ended)
  | .ended => none

/-- The runner was asked to take the task. -/
def asked (runnerId : String) (taskId : TaskId) : Bool :=
  broker.trace.any fun entry =>
    match entry with
    | .toRunner other (.taskofferaccept _ task) =>
      other = runnerId && task = taskId
    | _ => false

def told : Bool :=
  broker.trace.any fun entry =>
    match entry with
    | .toRequester _ (.taskready _ task) => task = taskId
    | _ => false

end TaskBroker

/-- What can happen next around a broker: connections, messages, timers, and
the continuations of suspended calls. -/
inductive BrokerEvent where
  | registerRunner (runnerId : String)
  | deregisterRunner (runnerId error : String)
  | registerRequester (requesterId : String)
  | deregisterRequester (requesterId : String)
  | taskrequest (requestId requesterId taskType : String)
  | taskoffer (runnerId offerId taskType : String) (validFor : Int)
  | taskaccepted (runnerId : String) (taskId : TaskBroker.TaskId)
  | taskrejected (runnerId : String) (taskId : TaskBroker.TaskId) (reason : String)
  | taskdeferred (runnerId : String) (taskId : TaskBroker.TaskId)
  | taskdone (runnerId : String) (taskId : TaskBroker.TaskId) (data : String)
  | taskerror (runnerId : String) (taskId : TaskBroker.TaskId) (error : String)
  | tasksettings (taskId : TaskBroker.TaskId) (settings : String)
  | taskcancel (taskId : TaskBroker.TaskId) (reason : String)
  | requesterReject (taskId : TaskBroker.TaskId) (reason : String)
  | response (taskId : TaskBroker.TaskId)
  | requestTimeout (requestId : String)
  | acceptTimeout (taskId : TaskBroker.TaskId)
  | requesterTimeout (taskId : TaskBroker.TaskId)
  | taskTimeout (taskId : TaskBroker.TaskId)
  | acceptResumes (taskId : TaskBroker.TaskId) (fails : Bool)
  | completionResumes (taskId : TaskBroker.TaskId) (fails : Bool)
  | timeoutResumes (taskId : TaskBroker.TaskId) (fails : Bool)
  | elapse (nanoseconds : Nat)

namespace TaskBroker

/-- Whether a connected runner was asked to take the task and has not
answered yet. -/
def mayAnswer (broker : TaskBroker) (runnerId : String) (taskId : TaskId) : Bool :=
  runnerId ∈ broker.knownRunners && broker.asked runnerId taskId && taskId ∉ broker.answered

def answer (broker : TaskBroker) (taskId : TaskId) : TaskBroker :=
  { broker with answered := broker.answered ++ [taskId] }

/-- One event.  Requesters draw a new identifier for each request, a runner
answers once what it was asked, and requesters talk about tasks they were told
about. -/
def step : Machine TaskBroker BrokerEvent
  | broker, .registerRunner runnerId => some (broker.registerRunner runnerId)
  | broker, .deregisterRunner runnerId error =>
    some (broker.deregisterRunner runnerId error)
  | broker, .registerRequester requesterId =>
    some { broker with
      requesters := OrderedSet.add broker.requesters requesterId }
  | broker, .deregisterRequester requesterId =>
    some { broker with
      requesters := broker.requesters.filter (· ≠ requesterId) }
  | broker, .taskrequest requestId requesterId taskType =>
    match broker.requests.get? requestId with
    | none => some (broker.taskRequested requestId requesterId taskType)
    | some _ => none
  | broker, .taskoffer runnerId offerId taskType validFor =>
    if runnerId ∈ broker.knownRunners then
      some (broker.taskOffered
        { offerId := offerId
          runnerId := runnerId
          taskType := taskType
          validFor := validFor
          validUntil := if validFor = -1 then 0
            else broker.time + validFor * 1000000 })
    else none
  | broker, .taskaccepted runnerId taskId =>
    if broker.mayAnswer runnerId taskId then
      some { (broker.handleRunnerAccept taskId).answer taskId with
        accepted := broker.accepted ++ [(runnerId, taskId)] }
    else none
  | broker, .taskrejected runnerId taskId reason =>
    if broker.mayAnswer runnerId taskId then
      some ((broker.handleRunnerReject taskId reason).answer taskId)
    else none
  | broker, .taskdeferred runnerId taskId =>
    if broker.mayAnswer runnerId taskId then
      some ((broker.handleRunnerDeferred taskId).answer taskId)
    else none
  | broker, .taskdone runnerId taskId data =>
    if runnerId ∈ broker.knownRunners then
      some (broker.taskDoneHandler taskId data)
    else none
  | broker, .taskerror runnerId taskId error =>
    if runnerId ∈ broker.knownRunners then
      some (broker.taskErrorHandler taskId error)
    else none
  | broker, .tasksettings taskId settings =>
    if broker.told taskId then
      some (broker.handleRequesterAccept taskId settings)
    else none
  | broker, .taskcancel taskId reason =>
    if broker.told taskId then
      some ((broker.cancelTask taskId reason).log [.cancelled taskId])
    else none
  | broker, .requesterReject taskId reason =>
    if broker.told taskId then
      some (broker.handleRequesterReject taskId reason)
    else none
  | broker, .response taskId => some (broker.handleResponse taskId)
  | broker, .requestTimeout requestId =>
    match broker.requests.get? requestId with
    | none => none
    | some request =>
      if request.timeout then
        some (broker.handleRequestTimeout requestId request)
      else none
  | broker, .acceptTimeout taskId =>
    match broker.accepts.get? taskId with
    | none => none
    | some call =>
      if call.runnerTimer then
        some ((broker.setAccept taskId
          { call with runnerTimer := false }).settleRunner taskId .timedOut)
      else none
  | broker, .requesterTimeout taskId =>
    match broker.accepts.get? taskId with
    | none => none
    | some call =>
      if call.requesterTimer then
        some ((broker.setAccept taskId
          { call with requesterTimer := false }).settleRequester taskId .timedOut)
      else none
  | broker, .taskTimeout taskId =>
    match broker.tasks.get? taskId with
    | none => none
    | some task =>
      if task.timeout then some (broker.handleTaskTimeout taskId task)
      else none
  | broker, .acceptResumes taskId fails =>
    match broker.accepts.get? taskId with
    | none => none
    | some call => broker.resumeAccept taskId call fails
  | broker, .completionResumes taskId fails =>
    if taskId ∈ broker.completing then
      if fails then
        some { broker with
          completing := broker.completing.erase taskId
          failed := broker.failed ++ [taskId] }
      else
        some { broker with
          completing := broker.completing.erase taskId
          tasks := broker.tasks.delete taskId }
    else none
  | broker, .timeoutResumes taskId fails =>
    if taskId ∈ broker.timingOut then
      let broker := { broker with timingOut := broker.timingOut.erase taskId }
      if fails then some broker
      else some (broker.taskErrorHandler taskId timeoutError)
    else none
  | broker, .elapse nanoseconds =>
    some { broker with time := broker.time + nanoseconds }

end TaskBroker

end N8n
