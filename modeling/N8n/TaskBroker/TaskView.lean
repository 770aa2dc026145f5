import N8n.TaskBroker.TaskBroker

/-!
# The broker's view of one task

`taskView` is all the broker keeps about one task: the call of `acceptOffer`
that drew it, its entry in `tasks`, and what was sent for it.  An event either
leaves the view of a task alone or makes one `TaskMove`.
-/

namespace N8n

namespace TaskBroker

/-- What an entry says about a task. -/
inductive TaskMark where
  | asked (runnerId : String)
  | ready
  | settings (runnerId : String)
  | cancelSent (runnerId : String)
  | completed
  | cancelled
deriving DecidableEq

def BrokerEntry.taskMark (taskId : TaskId) : BrokerEntry → Option TaskMark
  | .toRunner runnerId (.taskofferaccept _ other) =>
    if other = taskId then some (.asked runnerId) else none
  | .toRequester _ (.taskready _ other) =>
    if other = taskId then some .ready else none
  | .toRunner runnerId (.tasksettings other _) =>
    if other = taskId then some (.settings runnerId) else none
  | .toRunner runnerId (.taskcancel other _) =>
    if other = taskId then some (.cancelSent runnerId) else none
  | .toRequester _ (.taskdone other _) =>
    if other = taskId then some .completed else none
  | .toRequester _ (.taskerror other _) =>
    if other = taskId then some .completed else none
  | .cancelled other => if other = taskId then some .cancelled else none
  | _ => none

/-- One task, with the runners the broker knows.  It is `live` for the runners
that accepted it and are still connected. -/
structure TaskView where
  known : List String
  call : Option AcceptCall
  task : Option Task
  awaits : Bool
  completing : Bool
  failed : Bool
  timingOut : Bool
  live : List String
  marks : List TaskMark

def taskView (broker : TaskBroker) (taskId : TaskId) : TaskView :=
  { known := broker.knownRunners
    call := broker.accepts.get? taskId
    task := broker.tasks.get? taskId
    awaits := broker.runnerAcceptRejects.contains taskId
    completing := broker.completing.contains taskId
    failed := broker.failed.contains taskId
    timingOut := broker.timingOut.contains taskId
    live := broker.accepted.filterMap fun entry =>
      if entry.2 = taskId then some entry.1 else none
    marks := broker.trace.filterMap (BrokerEntry.taskMark taskId) }

def AcceptCall.settleRunner (call : AcceptCall) (answer : RunnerAnswer) : AcceptCall :=
  if call.runnerAnswer = .pending then { call with runnerAnswer := answer }
  else call

def AcceptCall.settleRequester (call : AcceptCall) (answer : RequesterAnswer) : AcceptCall :=
  if call.requesterAnswer = .pending then
    { call with requesterAnswer := answer }
  else call

namespace TaskView

section

variable (view : TaskView)

def mark (marks : List TaskMark) : TaskView :=
  { view with marks := view.marks ++ marks }

def setPhase (call : AcceptCall) (phase : AcceptPhase) : TaskView :=
  { view with call := some { call with phase := phase } }

/-- What cancelling the task sends. -/
def cancelMarks : List TaskMark :=
  match view.task with
  | none => []
  | some task =>
    if task.runnerId ∈ view.known then [.cancelSent task.runnerId] else []

def cancel : TaskView :=
  { view with
    task := none
    marks := view.marks ++ view.cancelMarks }

variable (registered : List String)

/-- What completing or failing the task sends. -/
def lastMarks : List TaskMark :=
  match view.task with
  | none => []
  | some task =>
    if task.requesterId ∈ registered then [.completed] else []

def fail : TaskView :=
  { view with
    task := none
    marks := view.marks ++ view.lastMarks registered }

def complete : TaskView :=
  { view with
    task := view.task.map fun task => { task with timeout := false }
    completing := view.completing || view.task.isSome
    marks := view.marks ++ view.lastMarks registered }

def settleRunner (view : TaskView) (answer : RunnerAnswer) : TaskView :=
  { view with call := view.call.map (·.settleRunner answer) }

def answerRunner (answer : RunnerAnswer) : TaskView :=
  { view with
    call := if view.awaits then view.call.map (·.settleRunner answer)
      else view.call
    awaits := false }

end

def settleRequester (view : TaskView) (answer : RequesterAnswer) : TaskView :=
  { view with call := view.call.map (·.settleRequester answer) }

variable {view : TaskView}

theorem mark_nil (view : TaskView) : view.mark [] = view := by
  simp [mark]

theorem cancel_of_none (absent : view.task = none) : view.cancel = view := by
  cases view
  simp_all [cancel, cancelMarks]

theorem fail_of_none (absent : view.task = none)
    (registered : List String) : view.fail registered = view := by
  cases view
  simp_all [fail, lastMarks]

theorem complete_of_none (absent : view.task = none)
    (registered : List String) : view.complete registered = view := by
  cases view
  simp_all [complete, lastMarks]

theorem settleRunner_of_none (absent : view.call = none)
    (answer : RunnerAnswer) : view.settleRunner answer = view := by
  cases view
  simp_all [settleRunner]

theorem settleRunner_of_settled {call : AcceptCall}
    (present : view.call = some call) (settled : call.runnerAnswer ≠ .pending)
    (answer : RunnerAnswer) : view.settleRunner answer = view := by
  cases view
  simp_all [settleRunner, AcceptCall.settleRunner]

theorem answerRunner_of_awaits (awaits : view.awaits = true) (answer : RunnerAnswer) :
    view.answerRunner answer = { view.settleRunner answer with awaits := false } := by
  simp [answerRunner, settleRunner, awaits]

theorem answerRunner_of_not (free : view.awaits = false)
    (answer : RunnerAnswer) : view.answerRunner answer = view := by
  cases view
  simp_all [answerRunner]

theorem settleRequester_of_none (absent : view.call = none)
    (answer : RequesterAnswer) : view.settleRequester answer = view := by
  cases view
  simp_all [settleRequester]

theorem settleRequester_of_settled {call : AcceptCall}
    (present : view.call = some call) (settled : call.requesterAnswer ≠ .pending)
    (answer : RequesterAnswer) : view.settleRequester answer = view := by
  cases view
  simp_all [settleRequester, AcceptCall.settleRequester]

end TaskView

section Views

variable {broker : TaskBroker} {taskId : TaskId}

theorem taskView_log (entries : List BrokerEntry) (other : TaskId) :
    (broker.log entries).taskView other = (broker.taskView other).mark
        (entries.filterMap (BrokerEntry.taskMark other)) := by
  simp [taskView, log, TaskView.mark]

theorem taskView_messageRunner (runnerId : String) (message : BrokerMessage) (other : TaskId) :
    (broker.messageRunner runnerId message).taskView other =
      (broker.taskView other).mark (if runnerId ∈ broker.knownRunners then
          ((BrokerEntry.toRunner runnerId message).taskMark other).toList
        else []) := by
  rw [messageRunner, taskView_log]
  by_cases known : runnerId ∈ broker.knownRunners
  · cases mark : (BrokerEntry.toRunner runnerId message).taskMark other <;> simp [known, mark]
  · simp [known]

theorem taskView_messageRequester (requesterId : String)
    (message : BrokerMessage) (other : TaskId) :
    (broker.messageRequester requesterId message).taskView other =
      (broker.taskView other).mark (if requesterId ∈ broker.requesters then
          ((BrokerEntry.toRequester requesterId message).taskMark other).toList
        else []) := by
  rw [messageRequester, taskView_log]
  by_cases registered : requesterId ∈ broker.requesters
  · cases mark : (BrokerEntry.toRequester requesterId message).taskMark other <;>
      simp [registered, mark]
  · simp [registered]

theorem taskView_setAccept (call : AcceptCall) (other : TaskId) :
    (broker.setAccept taskId call).taskView other =
      if taskId = other then
        { broker.taskView other with call := some call }
      else broker.taskView other := by
  by_cases same : taskId = other <;> simp [taskView, setAccept, OrderedMap.get?_set, same]

theorem taskView_setTask (task : Task) (other : TaskId) :
    (broker.setTask taskId task).taskView other =
      if taskId = other then
        { broker.taskView other with task := some task }
      else broker.taskView other := by
  by_cases same : taskId = other <;> simp [taskView, setTask, OrderedMap.get?_set, same]

theorem taskView_deleteTask (other : TaskId) :
    { broker with tasks := broker.tasks.delete taskId }.taskView other =
      if taskId = other then { broker.taskView other with task := none }
      else broker.taskView other := by
  by_cases same : taskId = other <;> simp [taskView, OrderedMap.get?_delete, same]

theorem taskView_cancelTask (reason : String) (other : TaskId) :
    (broker.cancelTask taskId reason).taskView other =
      if taskId = other then (broker.taskView other).cancel
      else broker.taskView other := by
  by_cases same : taskId = other
  · subst same
    cases found : broker.tasks.get? taskId with
    | none =>
      have absent : (broker.taskView taskId).task = none := found
      simp [cancelTask, found, TaskView.cancel_of_none absent]
    | some task =>
      have present : (broker.taskView taskId).task = some task := found
      simp only [cancelTask, found, taskView_messageRunner,
        taskView_deleteTask, TaskView.cancel, TaskView.cancelMarks,
        present, BrokerEntry.taskMark, if_true]
      rfl
  · simp only [cancelTask, if_neg same]
    split
    · rfl
    · simp [taskView_messageRunner, taskView_deleteTask,
        BrokerEntry.taskMark, same, TaskView.mark_nil]

theorem taskView_failTask (error : String) (other : TaskId) :
    (broker.failTask taskId error).taskView other =
      if taskId = other then
        (broker.taskView other).fail broker.requesters
      else broker.taskView other := by
  by_cases same : taskId = other
  · subst same
    cases found : broker.tasks.get? taskId with
    | none =>
      have absent : (broker.taskView taskId).task = none := found
      simp [failTask, found, TaskView.fail_of_none absent]
    | some task =>
      have present : (broker.taskView taskId).task = some task := found
      simp only [failTask, found, taskView_messageRequester,
        taskView_deleteTask, TaskView.fail, TaskView.lastMarks, present,
        BrokerEntry.taskMark, if_true]
      rfl
  · simp only [failTask, if_neg same]
    split
    · rfl
    · simp [taskView_messageRequester, taskView_deleteTask,
        BrokerEntry.taskMark, same, TaskView.mark_nil]

theorem taskView_settleRunner (answer : RunnerAnswer) (other : TaskId) :
    (broker.settleRunner taskId answer).taskView other =
      if taskId = other then (broker.taskView other).settleRunner answer
      else broker.taskView other := by
  by_cases same : taskId = other
  · subst same
    cases found : broker.accepts.get? taskId with
    | none =>
      have absent : (broker.taskView taskId).call = none := found
      simp [settleRunner, found, TaskView.settleRunner_of_none absent]
    | some call =>
      have present : (broker.taskView taskId).call = some call := found
      rw [if_pos rfl]
      simp only [settleRunner, found]
      split
      next pending =>
        rw [taskView_setAccept, if_pos rfl]
        simp [TaskView.settleRunner, AcceptCall.settleRunner, present, pending]
      next settled =>
        rw [TaskView.settleRunner_of_settled present settled]
  · simp only [settleRunner, if_neg same]
    split
    · split
      · simp [taskView_setAccept, same]
      · rfl
    · rfl

theorem taskView_withRejects (rejects : List TaskId) (other : TaskId) :
    { broker with runnerAcceptRejects := rejects }.taskView other =
      { broker.taskView other with awaits := rejects.contains other } := rfl

theorem taskView_withCompleting (completing : List TaskId) (other : TaskId) :
    { broker with completing := completing }.taskView other = { broker.taskView other with
        completing := completing.contains other } := rfl

theorem taskView_answerRunner (answer : RunnerAnswer) (other : TaskId) :
    (broker.answerRunner taskId answer).taskView other =
      if taskId = other then (broker.taskView other).answerRunner answer
      else broker.taskView other := by
  have awaits : (broker.taskView taskId).awaits = broker.runnerAcceptRejects.contains taskId := rfl
  simp only [answerRunner]
  by_cases waits : taskId ∈ broker.runnerAcceptRejects
  · rw [if_pos waits, taskView_withRejects, taskView_settleRunner]
    by_cases same : taskId = other
    · subst same
      have waiting : (broker.taskView taskId).awaits = true :=
        awaits.trans (List.contains_iff_mem.mpr waits)
      rw [if_pos rfl, if_pos rfl, TaskView.answerRunner_of_awaits waiting]
      simp
    · have kept : (broker.runnerAcceptRejects.filter (· ≠ taskId)).contains
          other = broker.runnerAcceptRejects.contains other := by
        simp [Ne.symm same]
      rw [if_neg same, if_neg same, kept]
      rfl
  · rw [if_neg waits]
    by_cases same : taskId = other
    · subst same
      have free : (broker.taskView taskId).awaits = false := by
        rw [awaits, ← Bool.not_eq_true, List.contains_iff_mem]
        exact waits
      rw [if_pos rfl, TaskView.answerRunner_of_not free]
    · rw [if_neg same]

variable (answer : RequesterAnswer)

theorem taskView_settleRequester (other : TaskId) :
    (broker.settleRequester taskId answer).taskView other =
      if taskId = other then (broker.taskView other).settleRequester answer
      else broker.taskView other := by
  by_cases same : taskId = other
  · subst same
    cases found : broker.accepts.get? taskId with
    | none =>
      have absent : (broker.taskView taskId).call = none := found
      simp [settleRequester, found, TaskView.settleRequester_of_none absent]
    | some call =>
      have present : (broker.taskView taskId).call = some call := found
      rw [if_pos rfl]
      simp only [settleRequester, found]
      split
      next pending =>
        rw [taskView_setAccept, if_pos rfl]
        simp [TaskView.settleRequester, AcceptCall.settleRequester, present, pending]
      next settled =>
        rw [TaskView.settleRequester_of_settled present settled]
  · simp only [settleRequester, if_neg same]
    split
    · split
      · simp [taskView_setAccept, same]
      · rfl
    · rfl

theorem taskView_answerRequester (other : TaskId) :
    (broker.answerRequester taskId answer).taskView other =
      if taskId = other ∧ taskId ∈ broker.requesterAcceptRejects then
        (broker.taskView other).settleRequester answer
      else broker.taskView other := by
  simp only [answerRequester]
  by_cases waits : taskId ∈ broker.requesterAcceptRejects
  · simp only [waits, and_true]
    exact taskView_settleRequester answer other
  · simp [waits]

theorem taskView_completeTask {message : BrokerMessage} (marks : ∀ requesterId other,
      (BrokerEntry.toRequester requesterId message).taskMark other =
        if taskId = other then some .completed else none)
    (other : TaskId) :
    (broker.completeTask taskId message).taskView other =
      if taskId = other then
        (broker.taskView other).complete broker.requesters
      else broker.taskView other := by
  cases found : broker.tasks.get? taskId with
  | none =>
    have absent : (broker.taskView taskId).task = none := found
    by_cases same : taskId = other
    · subst same
      simp [completeTask, found, TaskView.complete_of_none absent]
    · simp [completeTask, found, same]
  | some task =>
    have present : (broker.taskView taskId).task = some task := found
    by_cases same : taskId = other
    · subst same
      simp only [completeTask, found, taskView_messageRequester, marks,
        taskView_withCompleting, taskView_setTask, TaskView.complete,
        TaskView.lastMarks, present]
      simp [setTask, TaskView.mark]
    · have kept : (broker.completing ++ [taskId]).contains other =
          broker.completing.contains other := by
        simp [Ne.symm same]
      simp only [completeTask, found, taskView_messageRequester, marks,
        taskView_withCompleting, taskView_setTask, if_neg same]
      simp only [kept, Option.toList_none, ite_self, TaskView.mark_nil]
      rfl

end Views

end TaskBroker

end N8n
