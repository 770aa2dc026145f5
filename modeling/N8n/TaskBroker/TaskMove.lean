import N8n.TaskBroker.RequestFrame
import N8n.TaskBroker.TaskView

/-!
# The moves of a task

Every event of a broker leaves its view of a task alone, or makes one of the
moves below.  What holds of a task in every state follows from its moves.
-/

namespace N8n

open List

namespace TaskBroker

namespace TaskView

def draw (view : TaskView) (offer : TaskOffer) (requestId : String) : TaskView :=
  { view with
    call := some
      { offer := offer
        requestId := requestId }
    awaits := true }.mark (if offer.runnerId ∈ view.known then [.asked offer.runnerId] else [])

def disconnect (view : TaskView) (runnerId : String) : TaskView :=
  { view with
    known := view.known.filter (· ≠ runnerId)
    live := view.live.filter (· ≠ runnerId) }

def enter (view : TaskView) (call : AcceptCall) (request : TaskRequest) : TaskView :=
  { view with
    task := some
      { runnerId := call.offer.runnerId
        requesterId := request.requesterId
        taskType := call.offer.taskType } }

end TaskView

/-- How the call of `acceptOffer` that drew a task goes on. -/
inductive AcceptMove (broker : TaskBroker) (view : TaskView)
    (call : AcceptCall) (fails : Bool) : TaskView → Prop
  | asked (phase : call.phase = .messagingRunner) :
      AcceptMove broker view call fails (view.setPhase call .awaitingRunner)
  | givenUp (early : call.phase = .messagingRunner ∧ fails = true ∨
        call.phase = .awaitingRunner ∧ call.runnerAnswer ≠ .accepted) :
      AcceptMove broker view call fails (view.setPhase call .ended)
  | announced {request : TaskRequest} (phase : call.phase = .awaitingRunner)
      (answer : call.runnerAnswer = .accepted)
      (waits : call.requestId ∈ broker.pendingTaskRequests) :
      AcceptMove broker view call fails ({ view.enter call request with
          call := some { call with
              requesterTimer := true
              phase := .messagingRequester } }.mark
          (if request.requesterId ∈ broker.requesters then [.ready] else []))
  | lost {request : TaskRequest} (phase : call.phase = .awaitingRunner)
      (answer : call.runnerAnswer = .accepted)
      (missing : call.requestId ∉ broker.pendingTaskRequests) :
      AcceptMove broker view call fails ((view.enter call request).setPhase call .ended)
  | told (phase : call.phase = .messagingRequester) :
      AcceptMove broker view call fails (view.setPhase call .awaitingRequester)
  | abandoned (phase : call.phase = .messagingRequester ∨
        call.phase = .awaitingRequester ∨ call.phase = .failingTask ∨
        call.phase = .sendingSettings) :
      AcceptMove broker view call fails (view.cancel.setPhase call .cancelling)
  | found {task : Task} {settings : String} (phase : call.phase = .awaitingRequester)
      (answer : call.requesterAnswer = .settings settings)
      (present : view.task = some task) (known : task.runnerId ∈ view.known) :
      AcceptMove broker view call fails (view.setPhase call (.findingRunner task.runnerId settings))
  | unfound {task : Task} {settings : String} (phase : call.phase = .awaitingRequester)
      (answer : call.requesterAnswer = .settings settings)
      (present : view.task = some task) (unknown : task.runnerId ∉ view.known) :
      AcceptMove broker view call fails ((view.fail broker.requesters).setPhase call .failingTask)
  | gone {runnerId settings : String} (phase : call.phase = .findingRunner runnerId settings)
      (absent : view.task = none) :
      AcceptMove broker view call fails (view.setPhase call .ended)
  | forwarded {runnerId settings : String} {task : Task}
      (phase : call.phase = .findingRunner runnerId settings)
      (present : view.task = some task) :
      AcceptMove broker view call fails
        (({ view with task := some { task with timeout := true } }.mark
          (if runnerId ∈ view.known then [.settings runnerId]
            else [])).setPhase call .sendingSettings)
  | sent (phase : call.phase = .sendingSettings) :
      AcceptMove broker view call fails (view.setPhase call .ended)
  | finished (phase : call.phase = .cancelling) :
      AcceptMove broker view call fails (view.setPhase call .ended)

/-- Requests and offers are settled when a new one arrives. -/
def arrives : BrokerEvent → Bool
  | .taskrequest _ _ _ | .taskoffer _ _ _ _ => true
  | _ => false

inductive TaskMove (broker : TaskBroker) (taskId : TaskId)
    (view : TaskView) : BrokerEvent → TaskView → Prop
  | drawn {event : BrokerEvent} (offer : TaskOffer) (requestId : String)
      (arrival : arrives event = true) (undrawn : view.call = none) :
      TaskMove broker taskId view event (view.draw offer requestId)
  | connected (runnerId : String) : TaskMove broker taskId view (.registerRunner runnerId)
        { view with known := OrderedSet.add view.known runnerId }
  | accepted {runnerId : String} (known : runnerId ∈ view.known)
      (asked : .asked runnerId ∈ view.marks) :
      TaskMove broker taskId view (.taskaccepted runnerId taskId) { view.answerRunner .accepted with
          live := view.live ++ [runnerId] }
  | refused {event : BrokerEvent} (answer : RunnerAnswer)
      (refusal : answer ≠ .accepted) (settles : answer ≠ .pending) :
      TaskMove broker taskId view event (view.answerRunner answer)
  | runnerTimeout {call : AcceptCall} (found : view.call = some call) :
      TaskMove broker taskId view (.acceptTimeout taskId) ({ view with
          call := some { call with runnerTimer := false } }.settleRunner .timedOut)
  | requesterTimeout {call : AcceptCall} (found : view.call = some call) :
      TaskMove broker taskId view (.requesterTimeout taskId) ({ view with
          call := some { call with requesterTimer := false } }.settleRequester .timedOut)
  | requesterAnswered {event : BrokerEvent} (answer : RequesterAnswer)
      (told : .ready ∈ view.marks) :
      TaskMove broker taskId view event (view.settleRequester answer)
  | done (runnerId data : String) : TaskMove broker taskId view (.taskdone runnerId taskId data)
        (view.complete broker.requesters)
  | error (runnerId error : String) : TaskMove broker taskId view (.taskerror runnerId taskId error)
        (view.complete broker.requesters)
  | timedOut {task : Task} (internal : broker.mode = .internal)
      (found : view.task = some task) (timer : task.timeout = true) :
      TaskMove broker taskId view (.taskTimeout taskId) (view.complete broker.requesters)
  | timingOut {task : Task} (found : view.task = some task) (timer : task.timeout = true) :
      TaskMove broker taskId view (.taskTimeout taskId) ({ view with
          task := some { task with timeout := false }
          timingOut := true }.mark (if task.runnerId ∈ view.known then [.cancelSent task.runnerId]
              else []))
  | timeoutResumed (others : Bool) (timingOut : view.timingOut = true) :
      TaskMove broker taskId view (.timeoutResumes taskId false)
        ({ view with timingOut := others }.complete broker.requesters)
  | timeoutFailed (others : Bool) (timingOut : view.timingOut = true) :
      TaskMove broker taskId view (.timeoutResumes taskId true) { view with timingOut := others }
  | cancelled (reason : String) (told : .ready ∈ view.marks) :
      TaskMove broker taskId view (.taskcancel taskId reason) (view.cancel.mark [.cancelled])
  | failed {task : Task} (found : view.task = some task) (unknown : task.runnerId ∉ view.known) :
      TaskMove broker taskId view (.response taskId) (view.fail broker.requesters)
  | completionResumed (others : Bool) (completing : view.completing = true) :
      TaskMove broker taskId view (.completionResumes taskId false) { view with
          completing := others
          task := none }
  | completionFailed (others : Bool) (completing : view.completing = true) :
      TaskMove broker taskId view (.completionResumes taskId true) { view with
          completing := others
          failed := true }
  | disconnected (runnerId error : String)
      (other : ∀ task, view.task = some task → task.runnerId ≠ runnerId) :
      TaskMove broker taskId view (.deregisterRunner runnerId error) (view.disconnect runnerId)
  | dropped {task : Task} {runnerId error : String} (reason : String)
      (found : view.task = some task) (its : task.runnerId = runnerId) :
      TaskMove broker taskId view (.deregisterRunner runnerId error)
        (((view.disconnect runnerId).fail broker.requesters).answerRunner (.rejected reason))
  | resumed {call : AcceptCall} (fails : Bool) {next : TaskView} (found : view.call = some call)
      (move : AcceptMove broker view call fails next) :
      TaskMove broker taskId view (.acceptResumes taskId fails) next

def Drawn (broker : TaskBroker) : Prop :=
  ∀ taskId, broker.nextTaskId ≤ taskId → (broker.taskView taskId).call = none

section Settle

variable {broker : TaskBroker}

theorem taskView_acceptOffer (offer : TaskOffer) (requestId : String) (taskId : TaskId) :
    (broker.acceptOffer offer requestId).taskView taskId =
      if broker.nextTaskId = taskId then
        (broker.taskView taskId).draw offer requestId
      else broker.taskView taskId := by
  rw [acceptOffer, taskView_messageRunner]
  by_cases same : broker.nextTaskId = taskId
  · subst same
    simp [BrokerEntry.taskMark, taskView, TaskView.draw, TaskView.mark]
  · simp [BrokerEntry.taskMark, TaskView.mark_nil, taskView,
      OrderedMap.get?_set, same, Ne.symm same]

theorem drawn_acceptOffer (drawn : broker.Drawn) (offer : TaskOffer) (requestId : String) :
    (broker.acceptOffer offer requestId).Drawn ∧
      ∀ taskId, (broker.acceptOffer offer requestId).taskView taskId = broker.taskView taskId ∨
        ((broker.taskView taskId).call = none ∧
          (broker.acceptOffer offer requestId).taskView taskId =
            (broker.taskView taskId).draw offer requestId) := by
  constructor
  · intro taskId later
    have order : broker.nextTaskId < taskId := later
    rw [taskView_acceptOffer, if_neg (Nat.ne_of_lt order)]
    exact drawn taskId (Nat.le_of_lt order)
  · intro taskId
    rw [taskView_acceptOffer]
    split
    next same =>
      exact .inr ⟨drawn taskId (Nat.le_of_eq same), rfl⟩
    · exact .inl rfl

theorem drawn_settleRequest (drawn : broker.Drawn) (requestId : String) :
    (broker.settleRequest requestId).Drawn ∧
      ∀ taskId, (broker.settleRequest requestId).taskView taskId = broker.taskView taskId ∨
        ((broker.taskView taskId).call = none ∧ ∃ offer,
          (broker.settleRequest requestId).taskView taskId =
            (broker.taskView taskId).draw offer requestId) := by
  simp only [settleRequest]
  split
  · exact ⟨drawn, fun _ => .inl rfl⟩
  next request _ =>
    split
    · exact ⟨drawn, fun _ => .inl rfl⟩
    · split
      · exact ⟨drawn, fun _ => .inl rfl⟩
      next offer _ =>
        have same : ∀ taskId, ({ broker.setRequest requestId
                { request with acceptInProgress := true } with
              pendingTaskOffers := broker.pendingTaskOffers.eraseP
                (·.taskType = request.taskType) }.log [.matched requestId]).taskView taskId =
              broker.taskView taskId := by
          intro taskId
          rw [taskView_log]
          exact TaskView.mark_nil _
        have matchedDrawn : ({ broker.setRequest requestId
                { request with acceptInProgress := true } with
              pendingTaskOffers := broker.pendingTaskOffers.eraseP
                (·.taskType = request.taskType) }.log [.matched requestId]).Drawn := by
          intro taskId later
          exact drawn taskId later
        obtain ⟨accepted, views⟩ := drawn_acceptOffer matchedDrawn offer requestId
        refine ⟨accepted, ?_⟩
        intro taskId
        rcases views taskId with unchanged | ⟨undrawn, drew⟩
        · exact .inl (unchanged.trans (same taskId))
        · rw [same] at undrawn drew
          exact .inr ⟨undrawn, offer, drew⟩

theorem drawn_settleTasks (drawn : broker.Drawn) : broker.settleTasks.Drawn ∧
      ∀ taskId, broker.settleTasks.taskView taskId = broker.taskView taskId ∨
        ((broker.taskView taskId).call = none ∧ ∃ offer requestId,
          broker.settleTasks.taskView taskId = (broker.taskView taskId).draw offer requestId) := by
  have turns : ∀ (requestIds : List String) (broker : TaskBroker), broker.Drawn →
      let last := requestIds.foldl settleRequest broker
      last.Drawn ∧ ∀ taskId, last.taskView taskId = broker.taskView taskId ∨
          ((broker.taskView taskId).call = none ∧ ∃ offer requestId,
            last.taskView taskId = (broker.taskView taskId).draw offer requestId) := by
    intro requestIds
    induction requestIds with
    | nil => exact fun _ drawn => ⟨drawn, fun _ => .inl rfl⟩
    | cons requestId requestIds ih =>
      intro broker drawn
      obtain ⟨settled, first⟩ := drawn_settleRequest drawn requestId
      obtain ⟨last, later⟩ := ih _ settled
      refine ⟨last, ?_⟩
      intro taskId
      rcases first taskId with same | ⟨undrawn, offer, drew⟩
      · rw [← same]
        exact later taskId
      · rcases later taskId with same | ⟨stillUndrawn, _⟩
        · exact .inr ⟨undrawn, offer, requestId, same.trans drew⟩
        · rw [drew] at stillUndrawn
          cases stillUndrawn
  exact turns broker.pendingTaskRequests { broker.expireTasks with released := [] } drawn

end Settle

section Drop

variable {broker : TaskBroker}

theorem taskView_dropTask (runnerId error : String) (entry : TaskId × Task) (taskId : TaskId) :
    (dropTask runnerId error broker entry).taskView taskId =
      if entry.1 = taskId ∧ entry.2.runnerId = runnerId then
        ((broker.taskView taskId).fail broker.requesters).answerRunner (.rejected
            s!"The Task Runner ({runnerId}) has disconnected: {error}")
      else broker.taskView taskId := by
  simp only [dropTask]
  by_cases its : entry.2.runnerId = runnerId
  · rw [if_pos its, handleRunnerReject, taskView_answerRunner, taskView_failTask]
    by_cases same : entry.1 = taskId
    · simp [same, its]
    · simp [same]
  · simp [its]

theorem requesters_failTask (taskId : TaskId) (error : String) :
    (broker.failTask taskId error).requesters = broker.requesters := by
  simp only [failTask]
  split <;> rfl

theorem requesters_answerRunner (taskId : TaskId) (answer : RunnerAnswer) :
    (broker.answerRunner taskId answer).requesters = broker.requesters := by
  simp only [answerRunner, settleRunner]
  repeat' split
  all_goals rfl

theorem requesters_dropTask (runnerId error : String) (entry : TaskId × Task) :
    (dropTask runnerId error broker entry).requesters =
      broker.requesters := by
  simp only [dropTask]
  split
  · exact (requesters_answerRunner _ _).trans (requesters_failTask _ _)
  · rfl

variable {runnerId : String} {taskId : TaskId} {entries : List (TaskId × Task)}

theorem taskView_dropTasks_kept (error : String)
    (other : ∀ task, (taskId, task) ∈ entries → task.runnerId ≠ runnerId) :
    (entries.foldl (dropTask runnerId error) broker).taskView taskId = broker.taskView taskId := by
  induction entries generalizing broker with
  | nil => rfl
  | cons entry entries ih =>
    rw [List.foldl_cons, ih, taskView_dropTask, if_neg]
    · intro ⟨same, its⟩
      exact other entry.2 (same ▸ mem_cons_self) its
    · exact fun task mem => other task (mem_cons_of_mem _ mem)

theorem taskView_dropTasks_dropped (error : String) {task : Task}
    (nodup : (entries.map Prod.fst).Nodup) (mem : (taskId, task) ∈ entries)
    (its : task.runnerId = runnerId) :
    (entries.foldl (dropTask runnerId error) broker).taskView taskId =
      ((broker.taskView taskId).fail broker.requesters).answerRunner (.rejected
          s!"The Task Runner ({runnerId}) has disconnected: {error}") := by
  induction entries generalizing broker with
  | nil => cases mem
  | cons entry entries ih =>
    rw [List.foldl_cons]
    obtain ⟨fresh, nodupRest⟩ := List.nodup_cons.mp nodup
    rcases mem_cons.mp mem with first | later
    · have absent : ∀ task, (taskId, task) ∈ entries → task.runnerId ≠ runnerId := by
        intro other otherMem
        apply absurd _ fresh
        exact mem_map.mpr ⟨(taskId, other), otherMem, first ▸ rfl⟩
      rw [taskView_dropTasks_kept error absent, taskView_dropTask,
        if_pos ⟨first ▸ rfl, first ▸ its⟩]
    · have ne : entry.1 ≠ taskId := by
        intro same
        apply fresh
        exact same ▸ mem_map_of_mem later
      rw [ih nodupRest later, taskView_dropTask, requesters_dropTask, if_neg fun both => ne both.1]

theorem taskView_disconnect (runnerId : String) (offers : List TaskOffer) (taskId : TaskId) :
    { broker with
      knownRunners := broker.knownRunners.filter (· ≠ runnerId)
      pendingTaskOffers := offers
      accepted := broker.accepted.filter (·.1 ≠ runnerId) }.taskView taskId =
      (broker.taskView taskId).disconnect runnerId := by
  have live : ∀ accepted : List (String × TaskId),
      (accepted.filter (·.1 ≠ runnerId)).filterMap (fun entry =>
        if entry.2 = taskId then some entry.1 else none) =
      (accepted.filterMap fun entry =>
        if entry.2 = taskId then some entry.1 else none).filter (· ≠ runnerId) := by
    intro accepted
    induction accepted with
    | nil => rfl
    | cons entry accepted ih =>
      by_cases gone : entry.1 = runnerId <;> by_cases its : entry.2 = taskId <;> simp_all
  simp only [taskView, TaskView.disconnect, live]

theorem taskMove_deregisterRunner (runnerId error : String) (taskId : TaskId) :
    TaskMove broker taskId (broker.taskView taskId) (.deregisterRunner runnerId error)
      ((broker.deregisterRunner runnerId error).taskView taskId) := by
  by_cases its : ∃ task, broker.tasks.get? taskId = some task ∧ task.runnerId = runnerId
  · obtain ⟨task, found, its⟩ := its
    rw [deregisterRunner, taskView_dropTasks_dropped error
      broker.tasks.keys_nodup (OrderedMap.get?_eq_some_iff.mp found) its,
      taskView_disconnect]
    exact .dropped _ found its
  · rw [deregisterRunner, taskView_dropTasks_kept error, taskView_disconnect]
    · apply TaskMove.disconnected
      intro task found same
      exact its ⟨task, found, same⟩
    · intro task mem same
      exact its ⟨task, OrderedMap.get?_eq_some_iff.mpr mem, same⟩

end Drop

section Resume

variable {broker next : TaskBroker} {taskId : TaskId} {call : AcceptCall} {fails : Bool}

theorem taskView_setPhase (phase : AcceptPhase) (other : TaskId) :
    (broker.setPhase taskId call phase).taskView other =
      if taskId = other then (broker.taskView other).setPhase call phase
      else broker.taskView other :=
  taskView_setAccept _ other

variable (requestId : String)

theorem taskView_releaseRequest (other : TaskId) :
    (broker.releaseRequest requestId).taskView other = broker.taskView other := by
  simp only [releaseRequest]
  split <;> rfl

theorem taskView_deferRequest (other : TaskId) :
    (broker.deferRequest requestId).taskView other = broker.taskView other := by
  simp only [deferRequest]
  split <;> rfl

theorem taskView_cancelAccept (reason : String) (other : TaskId) :
    (broker.cancelAccept taskId call reason).taskView other =
      if taskId = other then
        (broker.taskView other).cancel.setPhase call .cancelling
      else broker.taskView other := by
  rw [cancelAccept, taskView_setPhase, taskView_cancelTask]
  split <;> rfl

theorem taskView_setRequest (request : TaskRequest) (other : TaskId) :
    (broker.setRequest requestId request).taskView other = broker.taskView other := rfl

theorem taskView_tellRequester (told : AcceptCall) (pending : List String) (rejects : List TaskId)
    (requesterId requestId : String) (other : TaskId) :
    ({ broker.setAccept taskId told with
      pendingTaskRequests := pending
      requesterAcceptRejects := rejects }.messageRequester requesterId
        (.taskready requestId taskId)).taskView other =
      if taskId = other then
        { broker.taskView other with call := some told }.mark
          (if requesterId ∈ broker.requesters then [.ready] else [])
      else broker.taskView other := by
  have same : { broker.setAccept taskId told with
      pendingTaskRequests := pending
      requesterAcceptRejects := rejects }.taskView other =
      (broker.setAccept taskId told).taskView other := rfl
  rw [taskView_messageRequester, same, taskView_setAccept]
  by_cases its : taskId = other
  · simp only [BrokerEntry.taskMark, if_pos its]
    rfl
  · simp [BrokerEntry.taskMark, its, TaskView.mark_nil]

variable {other : TaskId}

theorem taskView_announceTask_ne (ne : taskId ≠ other) :
    (broker.announceTask taskId call).taskView other = broker.taskView other := by
  simp only [announceTask]
  split
  · rfl
  · split
    · rw [taskView_tellRequester, if_neg ne, taskView_setTask, if_neg ne, taskView_setRequest]
    · rw [taskView_setPhase, if_neg ne, taskView_setTask, if_neg ne, taskView_setRequest]

theorem acceptMove_announceTask (phase : call.phase = .awaitingRunner)
    (answer : call.runnerAnswer = .accepted) :
    (broker.announceTask taskId call).taskView taskId = broker.taskView taskId ∨
      AcceptMove broker (broker.taskView taskId) call fails
        ((broker.announceTask taskId call).taskView taskId) := by
  simp only [announceTask]
  split
  · exact .inl rfl
  next request found =>
    right
    split
    next waits =>
      rw [taskView_tellRequester, if_pos rfl, taskView_setTask, if_pos rfl, taskView_setRequest]
      exact .announced phase answer waits
    next missing =>
      rw [taskView_setPhase, if_pos rfl, taskView_setTask, if_pos rfl, taskView_setRequest]
      exact .lost phase answer missing

variable {settings : String}

theorem taskView_findRunner_ne (ne : taskId ≠ other) :
    (broker.findRunner taskId call settings).taskView other = broker.taskView other := by
  simp only [findRunner]
  split
  · rw [taskView_cancelAccept, if_neg ne]
  · split
    · rw [taskView_setPhase, if_neg ne]
    · rw [taskView_setPhase, if_neg ne, taskView_failTask, if_neg ne]

theorem acceptMove_findRunner (phase : call.phase = .awaitingRequester)
    (answer : call.requesterAnswer = .settings settings) :
    AcceptMove broker (broker.taskView taskId) call fails
      ((broker.findRunner taskId call settings).taskView taskId) := by
  simp only [findRunner]
  split
  · rw [taskView_cancelAccept, if_pos rfl]
    exact .abandoned (.inr (.inl phase))
  next task present =>
    split
    next known =>
      rw [taskView_setPhase, if_pos rfl]
      exact .found phase answer present known
    next unknown =>
      rw [taskView_setPhase, if_pos rfl, taskView_failTask, if_pos rfl]
      exact .unfound phase answer present unknown

variable {runnerId : String}

theorem taskView_forwardSettings_ne (ne : taskId ≠ other) :
    (broker.forwardSettings taskId call runnerId settings).taskView other =
      broker.taskView other := by
  simp only [forwardSettings]
  split
  · rw [taskView_setPhase, if_neg ne]
  · rw [taskView_setPhase, if_neg ne, taskView_messageRunner, taskView_setTask, if_neg ne]
    simp [BrokerEntry.taskMark, ne, TaskView.mark_nil]

theorem acceptMove_forwardSettings (phase : call.phase = .findingRunner runnerId settings) :
    AcceptMove broker (broker.taskView taskId) call fails
      ((broker.forwardSettings taskId call runnerId settings).taskView taskId) := by
  simp only [forwardSettings]
  split
  next absent =>
    rw [taskView_setPhase, if_pos rfl]
    exact .gone phase absent
  next task present =>
    rw [taskView_setPhase, if_pos rfl, taskView_messageRunner, taskView_setTask, if_pos rfl]
    simp only [BrokerEntry.taskMark]
    exact .forwarded phase present

theorem taskView_resumeAccept_ne
    (resumed : broker.resumeAccept taskId call fails = some next) (ne : taskId ≠ other) :
    next.taskView other = broker.taskView other := by
  simp only [resumeAccept] at resumed
  split at resumed
  · split at resumed <;> cases resumed
    · rw [taskView_setPhase, if_neg ne, taskView_releaseRequest]
    · rw [taskView_setPhase, if_neg ne]
  · split at resumed <;> cases resumed
    · exact taskView_announceTask_ne ne
    · rw [taskView_setPhase, if_neg ne, taskView_releaseRequest]
    · rw [taskView_setPhase, if_neg ne, taskView_releaseRequest]
    · rw [taskView_setPhase, if_neg ne, taskView_deferRequest]
  · split at resumed <;> cases resumed
    · rw [taskView_cancelAccept, if_neg ne]
    · rw [taskView_setPhase, if_neg ne]
  · split at resumed <;> cases resumed
    · exact taskView_findRunner_ne ne
    · rw [taskView_cancelAccept, if_neg ne]
    · rw [taskView_cancelAccept, if_neg ne]
  · cases resumed
    exact taskView_forwardSettings_ne ne
  · cases resumed
    rw [taskView_cancelAccept, if_neg ne]
  · split at resumed <;> cases resumed
    · rw [taskView_cancelAccept, if_neg ne]
    · rw [taskView_setPhase, if_neg ne]
  · cases resumed
    rw [taskView_setPhase, if_neg ne]
  · cases resumed

theorem acceptMove_cancelAccept (reason : String) (phase : call.phase = .messagingRequester ∨
      call.phase = .awaitingRequester ∨ call.phase = .failingTask ∨
      call.phase = .sendingSettings) :
    AcceptMove broker (broker.taskView taskId) call fails
      ((broker.cancelAccept taskId call reason).taskView taskId) := by
  rw [taskView_cancelAccept, if_pos rfl]
  exact .abandoned phase

theorem acceptMove_of_resumeAccept (resumed : broker.resumeAccept taskId call fails = some next) :
    next.taskView taskId = broker.taskView taskId ∨
      AcceptMove broker (broker.taskView taskId) call fails (next.taskView taskId) := by
  cases phase : call.phase with
  | messagingRunner =>
    right
    simp only [resumeAccept, phase] at resumed
    split at resumed <;> cases resumed
    next failure =>
      rw [taskView_setPhase, if_pos rfl, taskView_releaseRequest]
      exact .givenUp (.inl ⟨phase, failure⟩)
    · rw [taskView_setPhase, if_pos rfl]
      exact .asked phase
  | awaitingRunner =>
    simp only [resumeAccept, phase] at resumed
    split at resumed
    · cases resumed
    next answer =>
      cases resumed
      exact acceptMove_announceTask phase answer
    next answer =>
      cases resumed
      rw [taskView_setPhase, if_pos rfl, taskView_releaseRequest]
      exact .inr (.givenUp (.inr ⟨phase, by simp [answer]⟩))
    next answer =>
      cases resumed
      rw [taskView_setPhase, if_pos rfl, taskView_releaseRequest]
      exact .inr (.givenUp (.inr ⟨phase, by simp [answer]⟩))
    next answer =>
      cases resumed
      rw [taskView_setPhase, if_pos rfl, taskView_deferRequest]
      exact .inr (.givenUp (.inr ⟨phase, by simp [answer]⟩))
  | messagingRequester =>
    right
    simp only [resumeAccept, phase] at resumed
    split at resumed <;> cases resumed
    · exact acceptMove_cancelAccept _ (.inl phase)
    · rw [taskView_setPhase, if_pos rfl]
      exact .told phase
  | awaitingRequester =>
    right
    simp only [resumeAccept, phase] at resumed
    split at resumed
    · cases resumed
    next answer =>
      cases resumed
      exact acceptMove_findRunner phase answer
    · cases resumed
      exact acceptMove_cancelAccept _ (.inr (.inl phase))
    · cases resumed
      exact acceptMove_cancelAccept _ (.inr (.inl phase))
  | findingRunner runnerId settings =>
    simp only [resumeAccept, phase] at resumed
    cases resumed
    exact .inr (acceptMove_forwardSettings phase)
  | failingTask =>
    simp only [resumeAccept, phase] at resumed
    cases resumed
    exact .inr (acceptMove_cancelAccept _ (.inr (.inr (.inl phase))))
  | sendingSettings =>
    right
    simp only [resumeAccept, phase] at resumed
    split at resumed <;> cases resumed
    · exact acceptMove_cancelAccept _ (.inr (.inr (.inr phase)))
    · rw [taskView_setPhase, if_pos rfl]
      exact .sent phase
  | cancelling =>
    simp only [resumeAccept, phase] at resumed
    cases resumed
    rw [taskView_setPhase, if_pos rfl]
    exact .inr (.finished phase)
  | ended =>
    simp only [resumeAccept, phase] at resumed
    cases resumed

end Resume

section Step

variable {broker next : TaskBroker} {event : BrokerEvent}

theorem taskMove_of_arrives {broker middle : TaskBroker}
    {event : BrokerEvent} (drawn : middle.Drawn)
    (same : ∀ taskId, middle.taskView taskId = broker.taskView taskId)
    (arrival : arrives event = true) (taskId : TaskId) :
    middle.settleTasks.taskView taskId = broker.taskView taskId ∨
      TaskMove broker taskId (broker.taskView taskId) event
        (middle.settleTasks.taskView taskId) := by
  rcases (drawn_settleTasks drawn).2 taskId with unchanged | moved
  · exact .inl (unchanged.trans (same taskId))
  · obtain ⟨undrawn, offer, requestId, drew⟩ := moved
    rw [same] at undrawn drew
    exact .inr (drew ▸ .drawn offer requestId arrival undrawn)

variable {taskId : TaskId} {view : TaskView}

theorem taskMove_of_only {other : TaskId} (only : next.taskView other =
      if taskId = other then view else broker.taskView other)
    (move : taskId = other → TaskMove broker other (broker.taskView other) event view) :
    next.taskView other = broker.taskView other ∨
      TaskMove broker other (broker.taskView other) event (next.taskView other) := by
  by_cases same : taskId = other
  · rw [if_pos same] at only
    exact .inr (only ▸ move same)
  · exact .inl (only.trans (if_neg same))

theorem ready_mem_of_told (told : broker.told taskId = true) :
    .ready ∈ (broker.taskView taskId).marks := by
  obtain ⟨entry, mem, ready⟩ := List.any_eq_true.mp told
  apply List.mem_filterMap.mpr
  refine ⟨entry, mem, ?_⟩
  split at ready
  · simp only [BrokerEntry.taskMark, of_decide_eq_true ready, if_true]
  · cases ready

theorem known_asked_of_mayAnswer {runnerId : String}
    (may : broker.mayAnswer runnerId taskId = true) :
    runnerId ∈ broker.knownRunners ∧ .asked runnerId ∈ (broker.taskView taskId).marks := by
  simp only [mayAnswer, Bool.and_eq_true, decide_eq_true_eq] at may
  obtain ⟨⟨known, asked⟩, _⟩ := may
  refine ⟨known, ?_⟩
  obtain ⟨entry, mem, its⟩ := List.any_eq_true.mp asked
  apply List.mem_filterMap.mpr
  refine ⟨entry, mem, ?_⟩
  split at its
  · simp only [Bool.and_eq_true, decide_eq_true_eq] at its
    simp only [BrokerEntry.taskMark, its.1, its.2, if_true]
  · cases its

theorem taskView_accepted (broker : TaskBroker) (runnerId : String) (taskId other : TaskId) :
    { (broker.handleRunnerAccept taskId).answer taskId with
      accepted := broker.accepted ++ [(runnerId, taskId)] }.taskView other =
      if taskId = other then
        { (broker.taskView other).answerRunner .accepted with
          live := (broker.taskView other).live ++ [runnerId] }
      else broker.taskView other := by
  have view : { (broker.handleRunnerAccept taskId).answer taskId with
      accepted := broker.accepted ++ [(runnerId, taskId)] }.taskView other =
      { (broker.handleRunnerAccept taskId).taskView other with
        live := (broker.taskView other).live ++
          if taskId = other then [runnerId] else [] } := by
    by_cases same : taskId = other <;> simp [taskView, answer, same]
  rw [view, handleRunnerAccept, taskView_answerRunner]
  by_cases same : taskId = other
  · simp [same]
  · simp [same]

theorem taskView_handleRequestTimeout (requestId : String)
    (request : TaskRequest) (taskId : TaskId) :
    (broker.handleRequestTimeout requestId request).taskView taskId = broker.taskView taskId := by
  simp only [handleRequestTimeout]
  split
  · rw [taskView_messageRequester]
    simp only [BrokerEntry.taskMark, Option.toList_none, ite_self]
    exact TaskView.mark_nil _
  · rfl

theorem taskView_withTimingOut (timingOut : List TaskId) (taskId : TaskId) :
    { broker with timingOut := timingOut }.taskView taskId = { broker.taskView taskId with
        timingOut := timingOut.contains taskId } := rfl

theorem contains_erase_ne {items : List TaskId} {other : TaskId} (ne : taskId ≠ other) :
    (items.erase taskId).contains other = items.contains other := by
  rw [Bool.eq_iff_iff, List.contains_iff_mem, List.contains_iff_mem]
  exact List.mem_erase_of_ne ne.symm

section

variable (taskId other : TaskId)

theorem taskView_timeoutResumed :
    { broker with timingOut := broker.timingOut.erase taskId }.taskView other =
      if taskId = other then
        { broker.taskView other with
          timingOut := (broker.timingOut.erase taskId).contains other }
      else broker.taskView other := by
  rw [taskView_withTimingOut]
  split
  · rfl
  next ne =>
    rw [contains_erase_ne ne]
    rfl

theorem taskView_completionFailed : { broker with
      completing := broker.completing.erase taskId
      failed := broker.failed ++ [taskId] }.taskView other =
      if taskId = other then
        { broker.taskView other with
          completing := (broker.completing.erase taskId).contains other
          failed := true }
      else broker.taskView other := by
  by_cases same : taskId = other
  · simp [taskView, same]
  · simp only [taskView, contains_erase_ne same, if_neg same]
    simp [Ne.symm same]

theorem taskView_completionResumed : { broker with
      completing := broker.completing.erase taskId
      tasks := broker.tasks.delete taskId }.taskView other =
      if taskId = other then
        { broker.taskView other with
          completing := (broker.completing.erase taskId).contains other
          task := none }
      else broker.taskView other := by
  by_cases same : taskId = other
  · simp [taskView, OrderedMap.get?_delete, same]
  · simp only [taskView, contains_erase_ne same, OrderedMap.get?_delete, if_neg same]

end

theorem TaskView.complete_stopped {task : Task}
    (found : view.task = some task) (registered : List String) :
    { view with task := some { task with timeout := false } }.complete
      registered = view.complete registered := by
  simp [complete, lastMarks, found]

theorem taskMove_handleTaskTimeout {task : Task} (found : broker.tasks.get? taskId = some task)
    (timer : task.timeout = true) (other : TaskId) :
    (broker.handleTaskTimeout taskId task).taskView other = broker.taskView other ∨
      TaskMove broker other (broker.taskView other) (.taskTimeout taskId)
        ((broker.handleTaskTimeout taskId task).taskView other) := by
  simp only [handleTaskTimeout]
  split
  next internal =>
    rw [taskErrorHandler, taskView_completeTask fun _ _ => rfl, taskView_setTask]
    by_cases same : taskId = other
    · subst same
      right
      rw [if_pos rfl, if_pos rfl]
      have present : (broker.taskView taskId).task = some task := found
      have stopped := TaskView.complete_stopped present broker.requesters
      exact stopped ▸ .timedOut internal present timer
    · rw [if_neg same, if_neg same]
      exact .inl rfl
  · rw [taskView_messageRunner, taskView_withTimingOut, taskView_setTask]
    by_cases same : taskId = other
    · subst same
      right
      have added : (broker.timingOut ++ [taskId]).contains taskId = true := by
        simp
      simp only [BrokerEntry.taskMark, if_true]
      exact added ▸ .timingOut found timer
    · left
      have kept : (broker.timingOut ++ [taskId]).contains other =
          broker.timingOut.contains other := by
        simp [Ne.symm same]
      simp only [BrokerEntry.taskMark, if_neg same, Option.toList_none, ite_self, TaskView.mark_nil]
      exact kept ▸ rfl

theorem taskMove_of_step (drawn : broker.Drawn)
    (moved : step broker event = some next) (taskId : TaskId) :
    next.taskView taskId = broker.taskView taskId ∨
      TaskMove broker taskId (broker.taskView taskId) event (next.taskView taskId) := by
  cases event with
  | registerRunner runnerId =>
    cases moved
    right
    rw [registerRunner, taskView_messageRunner]
    simp only [BrokerEntry.taskMark, Option.toList_none, ite_self, TaskView.mark_nil]
    exact .connected runnerId
  | deregisterRunner runnerId error =>
    cases moved
    exact .inr (taskMove_deregisterRunner runnerId error taskId)
  | registerRequester requesterId | deregisterRequester requesterId
  | elapse nanoseconds =>
    cases moved
    exact .inl rfl
  | taskrequest requestId requesterId taskType =>
    simp only [step] at moved
    split at moved
    · cases moved
      apply taskMove_of_arrives
      · exact drawn
      · exact fun _ => rfl
      · rfl
    · cases moved
  | taskoffer runnerId offerId taskType validFor =>
    simp only [step, Option.ite_none_right_eq_some, Option.some.injEq] at moved
    obtain ⟨_, rfl⟩ := moved
    apply taskMove_of_arrives
    · exact drawn
    · exact fun _ => rfl
    · rfl
  | taskaccepted runnerId other =>
    obtain ⟨may, rfl⟩ := Machine.of_guarded moved
    apply taskMove_of_only (taskView_accepted broker runnerId other taskId)
    intro same
    subst same
    obtain ⟨known, asked⟩ := known_asked_of_mayAnswer may
    exact .accepted known asked
  | taskrejected runnerId other reason | taskdeferred runnerId other =>
    obtain ⟨_, rfl⟩ := Machine.of_guarded moved
    apply taskMove_of_only (taskView_answerRunner _ taskId)
    exact fun _ => .refused _ (by simp) (by simp)
  | taskdone runnerId other data =>
    obtain ⟨_, rfl⟩ := Machine.of_guarded moved
    apply taskMove_of_only (taskView_completeTask (fun _ _ => rfl) taskId)
    exact fun same => same ▸ .done runnerId data
  | taskerror runnerId other error =>
    obtain ⟨_, rfl⟩ := Machine.of_guarded moved
    apply taskMove_of_only (taskView_completeTask (fun _ _ => rfl) taskId)
    exact fun same => same ▸ .error runnerId error
  | tasksettings other settings =>
    obtain ⟨told, rfl⟩ := Machine.of_guarded moved
    rw [handleRequesterAccept, taskView_answerRequester]
    split
    next its =>
      exact .inr (.requesterAnswered _ (its.1 ▸ ready_mem_of_told told))
    · exact .inl rfl
  | taskcancel other reason =>
    obtain ⟨told, rfl⟩ := Machine.of_guarded moved
    rw [taskView_log, taskView_cancelTask]
    by_cases same : other = taskId
    · subst same
      right
      simp only [BrokerEntry.taskMark, filterMap_cons, filterMap_nil, if_true]
      exact .cancelled reason (ready_mem_of_told told)
    · simp [BrokerEntry.taskMark, same, TaskView.mark_nil]
  | requesterReject other reason =>
    obtain ⟨told, rfl⟩ := Machine.of_guarded moved
    rw [handleRequesterReject, taskView_answerRequester]
    split
    next its =>
      exact .inr (.requesterAnswered _ (its.1 ▸ ready_mem_of_told told))
    · exact .inl rfl
  | response other =>
    cases moved
    simp only [handleResponse]
    split
    · exact .inl rfl
    next task found =>
      split
      · exact .inl rfl
      next unknown =>
        apply taskMove_of_only (taskView_failTask _ taskId)
        intro same
        subst same
        exact .failed found unknown
  | requestTimeout requestId =>
    simp only [step] at moved
    split at moved
    · cases moved
    · obtain ⟨_, rfl⟩ := Machine.of_guarded moved
      exact .inl (taskView_handleRequestTimeout _ _ taskId)
  | acceptTimeout other =>
    simp only [step] at moved
    split at moved
    · cases moved
    next call found =>
      obtain ⟨_, rfl⟩ := Machine.of_guarded moved
      rw [taskView_settleRunner, taskView_setAccept]
      split
      next same =>
        subst same
        exact .inr (.runnerTimeout found)
      · exact .inl rfl
  | requesterTimeout other =>
    simp only [step] at moved
    split at moved
    · cases moved
    next call found =>
      obtain ⟨_, rfl⟩ := Machine.of_guarded moved
      rw [taskView_settleRequester, taskView_setAccept]
      split
      next same =>
        subst same
        exact .inr (.requesterTimeout found)
      · exact .inl rfl
  | taskTimeout other =>
    simp only [step] at moved
    split at moved
    · cases moved
    next task found =>
      obtain ⟨timer, rfl⟩ := Machine.of_guarded moved
      exact taskMove_handleTaskTimeout found timer taskId
  | acceptResumes other fails =>
    simp only [step] at moved
    split at moved
    · cases moved
    next call found =>
      by_cases same : other = taskId
      · subst same
        apply (acceptMove_of_resumeAccept moved).imp_right
        exact .resumed fails found
      · exact .inl (taskView_resumeAccept_ne moved same)
  | completionResumes other fails =>
    simp only [step, Option.ite_none_right_eq_some] at moved
    obtain ⟨completing, resumed⟩ := moved
    have present : (broker.taskView other).completing = true := List.contains_iff_mem.mpr completing
    cases fails with
    | true =>
      cases resumed
      apply taskMove_of_only (taskView_completionFailed other taskId)
      exact fun same => same ▸ .completionFailed _ present
    | false =>
      cases resumed
      apply taskMove_of_only (taskView_completionResumed other taskId)
      exact fun same => same ▸ .completionResumed _ present
  | timeoutResumes other fails =>
    simp only [step, Option.ite_none_right_eq_some] at moved
    obtain ⟨timingOut, resumed⟩ := moved
    have present : (broker.taskView other).timingOut = true := List.contains_iff_mem.mpr timingOut
    cases fails with
    | true =>
      cases resumed
      apply taskMove_of_only (taskView_timeoutResumed other taskId)
      exact fun same => same ▸ .timeoutFailed _ present
    | false =>
      cases resumed
      rw [taskErrorHandler, taskView_completeTask fun _ _ => rfl, taskView_timeoutResumed]
      by_cases same : other = taskId
      · subst same
        rw [if_pos rfl, if_pos rfl]
        exact .inr (.timeoutResumed _ present)
      · rw [if_neg same, if_neg same]
        exact .inl rfl

end Step

section Drawn

variable {broker next : TaskBroker} {taskId : TaskId} {event : BrokerEvent} {view after : TaskView}

theorem TaskView.call_answerRunner_of_none (undrawn : view.call = none)
    (answer : RunnerAnswer) : (view.answerRunner answer).call = none := by
  simp [answerRunner, undrawn]

theorem TaskMove.call_none (move : TaskMove broker taskId view event after)
    (undrawn : view.call = none) (quiet : arrives event = false) :
    after.call = none := by
  cases move with
  | drawn offer requestId arrival =>
    rw [arrival] at quiet
    cases quiet
  | runnerTimeout found | requesterTimeout found | resumed fails found =>
    rw [undrawn] at found
    cases found
  | accepted => exact TaskView.call_answerRunner_of_none undrawn .accepted
  | refused answer => exact TaskView.call_answerRunner_of_none undrawn answer
  | dropped reason =>
    apply TaskView.call_answerRunner_of_none
    exact undrawn
  | requesterAnswered answer =>
    rw [TaskView.settleRequester_of_none undrawn]
    exact undrawn
  | _ => exact undrawn

theorem nextTaskId_of_step (quiet : arrives event = false) (moved : step broker event = some next) :
    next.nextTaskId = broker.nextTaskId := by
  cases requestStep_of_step moved with
  | same same => exact same.drawn
  | deregisterRunner runnerId error =>
    exact (sameRequests_dropTasks runnerId error _ _).drawn
  | taskrequest => cases quiet
  | taskoffer => cases quiet
  | requestTimeout found =>
    simp only [handleRequestTimeout]
    split <;> rfl
  | acceptResumes fails found outcome =>
    cases outcome with
    | same same => exact same.drawn
    | released =>
      simp only [releaseRequest]
      split <;> rfl
    | deferred =>
      simp only [deferRequest]
      split <;> rfl
    | announced =>
      simp only [announceTask]
      split
      · rfl
      · split <;> rfl
  | elapse nanoseconds => rfl

theorem drawn_step (drawn : broker.Drawn) (moved : step broker event = some next) : next.Drawn := by
  cases arrival : arrives event with
  | true =>
    cases event with
    | taskrequest requestId requesterId taskType =>
      simp only [step] at moved
      split at moved
      · cases moved
        refine (drawn_settleTasks ?_).1
        exact drawn
      · cases moved
    | taskoffer runnerId offerId taskType validFor =>
      simp only [step, Option.ite_none_right_eq_some, Option.some.injEq] at moved
      obtain ⟨_, rfl⟩ := moved
      refine (drawn_settleTasks ?_).1
      exact drawn
    | _ => cases arrival
  | false =>
    intro taskId later
    rw [nextTaskId_of_step arrival moved] at later
    rcases taskMove_of_step drawn moved taskId with same | move
    · rw [same]
      exact drawn taskId later
    · exact move.call_none (drawn taskId later) arrival

theorem drawn_start (mode : RunnerMode) : Drawn { mode := mode } :=
  fun _ _ => rfl

theorem always_of_taskMove {inv : TaskView → Prop}
    {condition : TaskBroker → BrokerEvent → Prop} {property : TaskBroker → Prop}
    (preserved : ∀ (broker : TaskBroker) event taskId after,
      inv (broker.taskView taskId) → condition broker event →
      TaskMove broker taskId (broker.taskView taskId) event after →
      inv after)
    (safe : ∀ broker : TaskBroker, (∀ taskId, inv (broker.taskView taskId)) → property broker)
    {mode : RunnerMode} {events : List BrokerEvent}
    (holds : ∀ taskId, inv (taskView { mode := mode } taskId))
    (meets : step.Meets condition { mode := mode } events) :
    step.Always property { mode := mode } events := by
  have kept : ∀ (broker : TaskBroker) event next,
      (broker.Drawn ∧ ∀ taskId, inv (broker.taskView taskId)) →
      condition broker event → step broker event = some next →
      next.Drawn ∧ ∀ taskId, inv (next.taskView taskId) := by
    intro broker event next ⟨drawn, holds⟩ met moved
    refine ⟨drawn_step drawn moved, ?_⟩
    intro taskId
    rcases taskMove_of_step drawn moved taskId with same | move
    · rw [same]
      exact holds taskId
    · exact preserved broker event taskId _ (holds taskId) met move
  exact Machine.always_of_meets kept (fun broker kept => safe broker kept.2)
    ⟨drawn_start mode, holds⟩ meets

end Drawn

end TaskBroker

end N8n
