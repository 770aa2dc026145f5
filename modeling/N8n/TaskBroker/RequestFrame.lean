import N8n.TaskBroker.TaskBroker

/-!
# What leaves the requests alone

Most of the broker deals with tasks.  Requests and offers change only when one
comes in, expires or is matched, when a runner disconnects, and when an attempt
to have a request accepted ends.
-/

namespace N8n

open Machine

namespace TaskBroker

/-- What an entry says about a request. -/
inductive RequestMark where
  | expired (requestId : String)
  | matched (requestId : String)
  | ready (requestId : String)

def BrokerEntry.requestMark : BrokerEntry → Option RequestMark
  | .toRequester _ (.requestexpired requestId _) => some (.expired requestId)
  | .toRequester _ (.taskready requestId _) => some (.ready requestId)
  | .matched requestId => some (.matched requestId)
  | _ => none

def requestMarks (broker : TaskBroker) : List RequestMark :=
  broker.trace.filterMap BrokerEntry.requestMark

structure SameRequests (broker next : TaskBroker) : Prop where
  pending : next.pendingTaskRequests = broker.pendingTaskRequests
  requests : next.requests = broker.requests
  offers : next.pendingTaskOffers = broker.pendingTaskOffers
  released : next.released = broker.released
  time : next.time = broker.time
  drawn : next.nextTaskId = broker.nextTaskId
  marks : next.requestMarks = broker.requestMarks

section Frame

variable {broker next last : TaskBroker}

theorem SameRequests.refl (broker : TaskBroker) : SameRequests broker broker :=
  ⟨rfl, rfl, rfl, rfl, rfl, rfl, rfl⟩

theorem SameRequests.trans (first : SameRequests broker next)
    (second : SameRequests next last) : SameRequests broker last :=
  ⟨second.pending.trans first.pending, second.requests.trans first.requests,
    second.offers.trans first.offers, second.released.trans first.released,
    second.time.trans first.time, second.drawn.trans first.drawn,
    second.marks.trans first.marks⟩

theorem requestMarks_log (entries : List BrokerEntry) : (broker.log entries).requestMarks =
      broker.requestMarks ++ entries.filterMap BrokerEntry.requestMark := by
  simp [requestMarks, log]

theorem requestMarks_messageRequester (requesterId : String) (message : BrokerMessage) :
    (broker.messageRequester requesterId message).requestMarks = broker.requestMarks ++
        if requesterId ∈ broker.requesters then
          (BrokerEntry.toRequester requesterId message).requestMark.toList
        else [] := by
  rw [messageRequester, requestMarks_log]
  by_cases registered : requesterId ∈ broker.requesters
  · cases mark : (BrokerEntry.toRequester requesterId message).requestMark <;>
      simp [registered, mark]
  · simp [registered]

theorem sameRequests_log {entries : List BrokerEntry}
    (silent : entries.filterMap BrokerEntry.requestMark = []) :
    SameRequests broker (broker.log entries) := by
  refine ⟨rfl, rfl, rfl, rfl, rfl, rfl, ?_⟩
  rw [requestMarks_log, silent, List.append_nil]

theorem sameRequests_messageRunner (runnerId : String) (message : BrokerMessage) :
    SameRequests broker (broker.messageRunner runnerId message) := by
  apply sameRequests_log
  split
  · rfl
  · rfl

variable {message : BrokerMessage}

theorem sameRequests_messageRequester (requesterId : String)
    (silent : (BrokerEntry.toRequester requesterId message).requestMark = none) :
    SameRequests broker (broker.messageRequester requesterId message) := by
  apply sameRequests_log
  split
  · simp [silent]
  · rfl

variable (taskId : TaskId) (call : AcceptCall)

theorem sameRequests_setAccept : SameRequests broker (broker.setAccept taskId call) :=
  ⟨rfl, rfl, rfl, rfl, rfl, rfl, rfl⟩

theorem sameRequests_setTask (task : Task) : SameRequests broker (broker.setTask taskId task) :=
  ⟨rfl, rfl, rfl, rfl, rfl, rfl, rfl⟩

theorem sameRequests_cancelTask (reason : String) :
    SameRequests broker (broker.cancelTask taskId reason) := by
  simp only [cancelTask]
  split
  · exact .refl broker
  · apply SameRequests.trans ?_ (sameRequests_messageRunner _ _)
    exact ⟨rfl, rfl, rfl, rfl, rfl, rfl, rfl⟩

theorem sameRequests_failTask (error : String) :
    SameRequests broker (broker.failTask taskId error) := by
  simp only [failTask]
  split
  · exact .refl broker
  · apply SameRequests.trans ?_ (sameRequests_messageRequester _ rfl)
    exact ⟨rfl, rfl, rfl, rfl, rfl, rfl, rfl⟩

theorem sameRequests_settleRunner (answer : RunnerAnswer) :
    SameRequests broker (broker.settleRunner taskId answer) := by
  simp only [settleRunner]
  split
  · split
    · exact sameRequests_setAccept _ _
    · exact .refl broker
  · exact .refl broker

theorem sameRequests_answerRunner (answer : RunnerAnswer) :
    SameRequests broker (broker.answerRunner taskId answer) := by
  simp only [answerRunner]
  split
  · apply (sameRequests_settleRunner taskId answer).trans
    exact ⟨rfl, rfl, rfl, rfl, rfl, rfl, rfl⟩
  · exact .refl broker

variable (answer : RequesterAnswer)

theorem sameRequests_settleRequester :
    SameRequests broker (broker.settleRequester taskId answer) := by
  simp only [settleRequester]
  split
  · split
    · exact sameRequests_setAccept _ _
    · exact .refl broker
  · exact .refl broker

theorem sameRequests_answerRequester :
    SameRequests broker (broker.answerRequester taskId answer) := by
  simp only [answerRequester]
  split
  · apply (sameRequests_settleRequester taskId answer).trans
    exact ⟨rfl, rfl, rfl, rfl, rfl, rfl, rfl⟩
  · exact .refl broker

theorem sameRequests_dropTasks (runnerId error : String)
    (entries : List (TaskId × Task)) (broker : TaskBroker) :
    SameRequests broker (entries.foldl (dropTask runnerId error) broker) := by
  induction entries generalizing broker with
  | nil => exact .refl broker
  | cons entry entries ih =>
    refine SameRequests.trans ?_ (ih _)
    simp only [dropTask]
    split
    · exact (sameRequests_failTask _ _).trans (sameRequests_answerRunner _ _)
    · exact .refl broker

theorem sameRequests_completeTask (silent : ∀ requesterId,
      (BrokerEntry.toRequester requesterId message).requestMark = none) :
    SameRequests broker (broker.completeTask taskId message) := by
  simp only [completeTask]
  split
  · exact .refl broker
  · apply SameRequests.trans ?_ (sameRequests_messageRequester _ (silent _))
    exact ⟨rfl, rfl, rfl, rfl, rfl, rfl, rfl⟩

theorem sameRequests_handleTaskTimeout (task : Task) :
    SameRequests broker (broker.handleTaskTimeout taskId task) := by
  simp only [handleTaskTimeout]
  split
  · exact (sameRequests_setTask _ _).trans (sameRequests_completeTask _ fun _ => rfl)
  · apply SameRequests.trans ?_ (sameRequests_messageRunner _ _)
    exact ⟨rfl, rfl, rfl, rfl, rfl, rfl, rfl⟩

theorem sameRequests_handleResponse : SameRequests broker (broker.handleResponse taskId) := by
  simp only [handleResponse]
  split
  · exact .refl broker
  · split
    · exact .refl broker
    · exact sameRequests_failTask _ _

theorem sameRequests_setPhase (phase : AcceptPhase) :
    SameRequests broker (broker.setPhase taskId call phase) :=
  sameRequests_setAccept _ _

theorem sameRequests_cancelAccept (reason : String) :
    SameRequests broker (broker.cancelAccept taskId call reason) :=
  (sameRequests_cancelTask taskId reason).trans (sameRequests_setPhase _ _ _)

theorem sameRequests_findRunner (settings : String) :
    SameRequests broker (broker.findRunner taskId call settings) := by
  simp only [findRunner]
  split
  · exact sameRequests_cancelAccept _ _ _
  · split
    · exact sameRequests_setPhase _ _ _
    · exact (sameRequests_failTask _ _).trans (sameRequests_setPhase _ _ _)

theorem sameRequests_forwardSettings (runnerId settings : String) :
    SameRequests broker (broker.forwardSettings taskId call runnerId settings) := by
  simp only [forwardSettings]
  split
  · exact sameRequests_setPhase _ _ _
  · exact ((sameRequests_setTask _ _).trans
      (sameRequests_messageRunner _ _)).trans (sameRequests_setPhase _ _ _)

theorem pendingTaskRequests_settleRequest (requestId : String) :
    (broker.settleRequest requestId).pendingTaskRequests =
      broker.pendingTaskRequests := by
  simp only [settleRequest]
  split
  · rfl
  · split
    · rfl
    · split <;> rfl

/-- How a call of `acceptOffer` goes on, as far as requests are concerned. -/
inductive AcceptOutcome (broker : TaskBroker) (taskId : TaskId)
    (call : AcceptCall) : TaskBroker → Prop
  | same {next : TaskBroker} (same : SameRequests broker next) :
      AcceptOutcome broker taskId call next
  | released : AcceptOutcome broker taskId call
        ((broker.releaseRequest call.requestId).setPhase taskId call .ended)
  | deferred (phase : call.phase = .awaitingRunner) (answer : call.runnerAnswer = .deferred) :
      AcceptOutcome broker taskId call
        ((broker.deferRequest call.requestId).setPhase taskId call .ended)
  | announced : AcceptOutcome broker taskId call (broker.announceTask taskId call)

theorem acceptOutcome_of_resumeAccept {taskId : TaskId} {call : AcceptCall}
    {fails : Bool} (resumed : broker.resumeAccept taskId call fails = some next) :
    AcceptOutcome broker taskId call next := by
  cases phase : call.phase with
  | messagingRunner =>
    simp only [resumeAccept, phase] at resumed
    split at resumed
    · cases resumed
      exact .released
    · cases resumed
      exact .same (sameRequests_setPhase _ _ _)
  | awaitingRunner =>
    simp only [resumeAccept, phase] at resumed
    split at resumed
    · cases resumed
    · cases resumed
      exact .announced
    · cases resumed
      exact .released
    · cases resumed
      exact .released
    next answer =>
      cases resumed
      exact .deferred phase answer
  | messagingRequester | sendingSettings =>
    simp only [resumeAccept, phase] at resumed
    split at resumed
    · cases resumed
      exact .same (sameRequests_cancelAccept _ _ _)
    · cases resumed
      exact .same (sameRequests_setPhase _ _ _)
  | awaitingRequester =>
    simp only [resumeAccept, phase] at resumed
    split at resumed
    · cases resumed
    · cases resumed
      exact .same (sameRequests_findRunner _ _ _)
    · cases resumed
      exact .same (sameRequests_cancelAccept _ _ _)
    · cases resumed
      exact .same (sameRequests_cancelAccept _ _ _)
  | findingRunner runnerId settings =>
    simp only [resumeAccept, phase] at resumed
    cases resumed
    exact .same (sameRequests_forwardSettings _ _ _ _)
  | failingTask =>
    simp only [resumeAccept, phase] at resumed
    cases resumed
    exact .same (sameRequests_cancelAccept _ _ _)
  | cancelling =>
    simp only [resumeAccept, phase] at resumed
    cases resumed
    exact .same (sameRequests_setPhase _ _ _)
  | ended =>
    simp only [resumeAccept, phase] at resumed
    cases resumed

end Frame

/-- How one event changes requests and offers. -/
inductive RequestStep (broker : TaskBroker) : BrokerEvent → TaskBroker → Prop
  | same {event : BrokerEvent} {next : TaskBroker}
      (same : SameRequests broker next) : RequestStep broker event next
  | deregisterRunner (runnerId error : String) :
      RequestStep broker (.deregisterRunner runnerId error) (broker.deregisterRunner runnerId error)
  | taskrequest {requestId : String} (requesterId taskType : String)
      (fresh : broker.requests.get? requestId = none) :
      RequestStep broker (.taskrequest requestId requesterId taskType)
        (broker.taskRequested requestId requesterId taskType)
  | taskoffer (runnerId offerId taskType : String) (validFor : Int) (offer : TaskOffer) :
      RequestStep broker (.taskoffer runnerId offerId taskType validFor) (broker.taskOffered offer)
  | requestTimeout {requestId : String} {request : TaskRequest}
      (found : broker.requests.get? requestId = some request) :
      RequestStep broker (.requestTimeout requestId) (broker.handleRequestTimeout requestId request)
  | acceptResumes {taskId : TaskId} (fails : Bool) {call : AcceptCall}
      {next : TaskBroker} (found : broker.accepts.get? taskId = some call)
      (outcome : AcceptOutcome broker taskId call next) :
      RequestStep broker (.acceptResumes taskId fails) next
  | elapse (nanoseconds : Nat) : RequestStep broker (.elapse nanoseconds)
        { broker with time := broker.time + nanoseconds }

theorem requestStep_of_step {broker next : TaskBroker} {event : BrokerEvent}
    (moved : step broker event = some next) :
    RequestStep broker event next := by
  cases event with
  | registerRunner runnerId =>
    cases moved
    apply RequestStep.same
    apply SameRequests.trans ?_ (sameRequests_messageRunner _ _)
    exact ⟨rfl, rfl, rfl, rfl, rfl, rfl, rfl⟩
  | deregisterRunner runnerId error =>
    cases moved
    exact .deregisterRunner runnerId error
  | registerRequester requesterId | deregisterRequester requesterId =>
    cases moved
    exact .same ⟨rfl, rfl, rfl, rfl, rfl, rfl, rfl⟩
  | taskrequest requestId requesterId taskType =>
    simp only [step] at moved
    split at moved
    next fresh =>
      cases moved
      exact .taskrequest requesterId taskType fresh
    · cases moved
  | taskoffer runnerId offerId taskType validFor =>
    obtain ⟨_, rfl⟩ := of_guarded moved
    exact .taskoffer runnerId offerId taskType validFor _
  | taskaccepted runnerId taskId =>
    obtain ⟨_, rfl⟩ := of_guarded moved
    apply RequestStep.same
    apply (sameRequests_answerRunner taskId .accepted).trans
    exact ⟨rfl, rfl, rfl, rfl, rfl, rfl, rfl⟩
  | taskrejected runnerId taskId reason =>
    obtain ⟨_, rfl⟩ := of_guarded moved
    apply RequestStep.same
    apply (sameRequests_answerRunner taskId (.rejected reason)).trans
    exact ⟨rfl, rfl, rfl, rfl, rfl, rfl, rfl⟩
  | taskdeferred runnerId taskId =>
    obtain ⟨_, rfl⟩ := of_guarded moved
    apply RequestStep.same
    apply (sameRequests_answerRunner taskId .deferred).trans
    exact ⟨rfl, rfl, rfl, rfl, rfl, rfl, rfl⟩
  | taskdone runnerId taskId data | taskerror runnerId taskId error =>
    obtain ⟨_, rfl⟩ := of_guarded moved
    exact .same (sameRequests_completeTask taskId fun _ => rfl)
  | tasksettings taskId settings =>
    obtain ⟨_, rfl⟩ := of_guarded moved
    exact .same (sameRequests_answerRequester taskId (.settings settings))
  | taskcancel taskId reason =>
    obtain ⟨_, rfl⟩ := of_guarded moved
    exact .same ((sameRequests_cancelTask taskId reason).trans (sameRequests_log rfl))
  | requesterReject taskId reason =>
    obtain ⟨_, rfl⟩ := of_guarded moved
    exact .same (sameRequests_answerRequester taskId (.rejected reason))
  | response taskId =>
    cases moved
    exact .same (sameRequests_handleResponse taskId)
  | requestTimeout requestId =>
    simp only [step] at moved
    split at moved
    · cases moved
    next request found =>
      obtain ⟨_, rfl⟩ := of_guarded moved
      exact .requestTimeout found
  | acceptTimeout taskId =>
    simp only [step] at moved
    split at moved
    · cases moved
    · obtain ⟨_, rfl⟩ := of_guarded moved
      exact .same ((sameRequests_setAccept _ _).trans (sameRequests_settleRunner taskId .timedOut))
  | requesterTimeout taskId =>
    simp only [step] at moved
    split at moved
    · cases moved
    · obtain ⟨_, rfl⟩ := of_guarded moved
      exact .same ((sameRequests_setAccept _ _).trans
        (sameRequests_settleRequester taskId .timedOut))
  | taskTimeout taskId =>
    simp only [step] at moved
    split at moved
    · cases moved
    · obtain ⟨_, rfl⟩ := of_guarded moved
      exact .same (sameRequests_handleTaskTimeout taskId _)
  | acceptResumes taskId fails =>
    simp only [step] at moved
    split at moved
    · cases moved
    next call found =>
      exact .acceptResumes fails found (acceptOutcome_of_resumeAccept moved)
  | completionResumes taskId fails =>
    simp only [step, Option.ite_none_right_eq_some] at moved
    obtain ⟨_, resumed⟩ := moved
    split at resumed <;> cases resumed <;> exact .same ⟨rfl, rfl, rfl, rfl, rfl, rfl, rfl⟩
  | timeoutResumes taskId fails =>
    simp only [step, Option.ite_none_right_eq_some] at moved
    obtain ⟨_, resumed⟩ := moved
    split at resumed
    · cases resumed
      exact .same ⟨rfl, rfl, rfl, rfl, rfl, rfl, rfl⟩
    · cases resumed
      apply RequestStep.same
      apply SameRequests.trans ?_ (sameRequests_completeTask taskId fun _ => rfl)
      exact ⟨rfl, rfl, rfl, rfl, rfl, rfl, rfl⟩
  | elapse nanoseconds =>
    cases moved
    exact .elapse nanoseconds

end TaskBroker

end N8n
