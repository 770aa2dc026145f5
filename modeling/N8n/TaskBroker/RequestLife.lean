import N8n.TaskBroker.RequestFrame

/-!
# The life of a request

A request waits once until it is announced or expires.  A deferral breaks
this: it pushes the request again although an attempt leaves its request in the
list, and also when the request has expired in the meantime.
-/

namespace N8n

open List OrderedMap

namespace TaskBroker

/-- No request waits twice, and none is matched or announced after its
requester was told that it expired. -/
structure OneLife (broker : TaskBroker) : Prop where
  nodup : broker.pendingTaskRequests.Nodup
  quiet : broker.requestMarks.Pairwise fun earlier later =>
    ∀ requestId, earlier = .expired requestId →
      later ≠ .matched requestId ∧ later ≠ .ready requestId

/-- A call of `acceptOffer` does not resume with a deferral. -/
def NotDeferred (broker : TaskBroker) : BrokerEvent → Prop
  | .acceptResumes taskId _ => ∀ call, broker.accepts.get? taskId = some call →
      call.phase = .awaitingRunner → call.runnerAnswer ≠ .deferred
  | _ => True

/-- Requests with one life that are known once they have expired. -/
structure RequestsOnce (broker : TaskBroker) : Prop where
  oneLife : broker.OneLife
  gone : ∀ requestId, .expired requestId ∈ broker.requestMarks →
    requestId ∉ broker.pendingTaskRequests
  known : ∀ requestId, .expired requestId ∈ broker.requestMarks → requestId ∈ broker.requests.keys
  listed : ∀ requestId ∈ broker.pendingTaskRequests, requestId ∈ broker.requests.keys

section Steps

variable {broker next : TaskBroker}

/-- A step whose new marks are about requests that wait, or expire now. -/
theorem RequestsOnce.extend (once : broker.RequestsOnce) (marks : List RequestMark)
    (appended : next.requestMarks = broker.requestMarks ++ marks)
    (nodup : next.pendingTaskRequests.Nodup)
    (pending : ∀ requestId ∈ next.pendingTaskRequests,
      requestId ∈ broker.pendingTaskRequests ∨ requestId ∉ broker.requests.keys)
    (listed : ∀ requestId ∈ next.pendingTaskRequests, requestId ∈ next.requests.keys)
    (keys : ∀ requestId ∈ broker.requests.keys, requestId ∈ next.requests.keys)
    (served : ∀ requestId, .matched requestId ∈ marks ∨ .ready requestId ∈ marks →
      requestId ∈ broker.pendingTaskRequests ∨ requestId ∉ broker.requests.keys)
    (expired : ∀ requestId, .expired requestId ∈ marks →
      marks = [.expired requestId] ∧ requestId ∉ next.pendingTaskRequests ∧
        requestId ∈ next.requests.keys) : next.RequestsOnce := by
  have unexpired : ∀ requestId,
      requestId ∈ broker.pendingTaskRequests ∨ requestId ∉ broker.requests.keys →
      .expired requestId ∉ broker.requestMarks := by
    intro requestId either old
    rcases either with mem | fresh
    · exact once.gone requestId old mem
    · exact fresh (once.known requestId old)
  constructor
  · refine ⟨nodup, ?_⟩
    rw [appended, pairwise_append]
    refine ⟨once.oneLife.quiet, ?_, ?_⟩
    · apply pairwise_of_forall_mem_list
      intro earlier earlierMem later laterMem requestId same
      obtain ⟨single, _⟩ := expired requestId (same ▸ earlierMem)
      rw [single, mem_singleton] at laterMem
      simp [laterMem]
    · intro earlier mem later laterMem requestId same
      subst same
      constructor
      · intro same
        exact unexpired requestId (served requestId (.inl (same ▸ laterMem))) mem
      · intro same
        exact unexpired requestId (served requestId (.inr (same ▸ laterMem))) mem
  · intro requestId mem waits
    rw [appended] at mem
    rcases mem_append.mp mem with old | new
    · exact unexpired requestId (pending requestId waits) old
    · exact (expired requestId new).2.1 waits
  · intro requestId mem
    rw [appended] at mem
    rcases mem_append.mp mem with old | new
    · exact keys requestId (once.known requestId old)
    · exact (expired requestId new).2.2
  · exact listed

theorem RequestsOnce.keep (once : broker.RequestsOnce)
    (same : next.requestMarks = broker.requestMarks)
    (pending : next.pendingTaskRequests.Sublist broker.pendingTaskRequests)
    (keys : ∀ requestId ∈ broker.requests.keys,
      requestId ∈ next.requests.keys) : next.RequestsOnce := by
  apply once.extend []
  · simpa using same
  · exact once.oneLife.nodup.sublist pending
  · exact fun requestId mem => .inl (pending.subset mem)
  · exact fun requestId mem =>
      keys requestId (once.listed requestId (pending.subset mem))
  · exact keys
  · simp
  · simp

theorem RequestsOnce.same (once : broker.RequestsOnce)
    (same : SameRequests broker next) : next.RequestsOnce := by
  apply once.keep same.marks
  · rw [same.pending]
  · rw [same.requests]
    exact fun _ mem => mem

variable {requestId : String}

theorem mem_keys_setRequest {other : String} {request : TaskRequest}
    (mem : other ∈ broker.requests.keys) :
    other ∈ (broker.setRequest requestId request).requests.keys :=
  mem_keys_set.mpr (.inr mem)

theorem settleRequest_matches (requestId : String) :
    ∃ marks, (broker.settleRequest requestId).requestMarks = broker.requestMarks ++ marks ∧
      ∀ mark ∈ marks, mark = .matched requestId := by
  simp only [settleRequest]
  split
  · exact ⟨[], by simp⟩
  · split
    · exact ⟨[], by simp⟩
    · split
      · exact ⟨[], by simp⟩
      · refine ⟨[.matched requestId], ?_, by simp⟩
        rw [acceptOffer, (sameRequests_messageRunner _ _).marks]
        simp [requestMarks, log, setRequest, BrokerEntry.requestMark]

theorem mem_keys_settleRequest {other : String} (mem : other ∈ broker.requests.keys) :
    other ∈ (broker.settleRequest requestId).requests.keys := by
  simp only [settleRequest]
  split
  · exact mem
  · split
    · exact mem
    · split
      · exact mem
      · exact mem_keys_setRequest mem

theorem settleTasks_matches :
    (∃ marks, broker.settleTasks.requestMarks = broker.requestMarks ++ marks ∧
      ∀ mark ∈ marks, ∃ requestId ∈ broker.pendingTaskRequests, mark = .matched requestId) ∧
      broker.settleTasks.pendingTaskRequests = broker.pendingTaskRequests ∧
      ∀ requestId ∈ broker.requests.keys, requestId ∈ broker.settleTasks.requests.keys := by
  have turns : ∀ (requestIds : List String) (broker : TaskBroker),
      let last := requestIds.foldl settleRequest broker
      (∃ marks, last.requestMarks = broker.requestMarks ++ marks ∧
        ∀ mark ∈ marks, ∃ requestId ∈ requestIds, mark = .matched requestId) ∧
        last.pendingTaskRequests = broker.pendingTaskRequests ∧
        ∀ requestId ∈ broker.requests.keys, requestId ∈ last.requests.keys := by
    intro requestIds
    induction requestIds with
    | nil => exact fun _ => ⟨⟨[], by simp⟩, rfl, fun _ mem => mem⟩
    | cons requestId requestIds ih =>
      intro broker
      obtain ⟨first, firstMarks, firstMatched⟩ := @settleRequest_matches broker requestId
      obtain ⟨⟨later, laterMarks, laterMatched⟩, pending, keys⟩ :=
        ih (broker.settleRequest requestId)
      refine ⟨⟨first ++ later, ?_, ?_⟩, ?_, ?_⟩
      · rw [foldl_cons, laterMarks, firstMarks, append_assoc]
      · intro mark mem
        rcases mem_append.mp mem with old | new
        · exact ⟨requestId, mem_cons_self, firstMatched mark old⟩
        · obtain ⟨other, otherMem, same⟩ := laterMatched mark new
          exact ⟨other, mem_cons_of_mem _ otherMem, same⟩
      · exact pending.trans (pendingTaskRequests_settleRequest _)
      · exact fun other mem =>
          keys other (mem_keys_settleRequest mem)
  exact turns broker.pendingTaskRequests { broker.expireTasks with released := [] }

theorem RequestsOnce.settleTasks (once : broker.RequestsOnce) :
    broker.settleTasks.RequestsOnce := by
  obtain ⟨⟨marks, appended, matched⟩, pending, keys⟩ := @settleTasks_matches broker
  apply once.extend marks appended
  · exact pending ▸ once.oneLife.nodup
  · exact fun requestId mem => .inl (pending ▸ mem)
  · intro requestId mem
    exact keys requestId (once.listed requestId (pending ▸ mem))
  · exact keys
  · intro requestId either
    left
    rcases either with mem | mem
    · obtain ⟨other, otherMem, same⟩ := matched _ mem
      cases same
      exact otherMem
    · obtain ⟨other, _, same⟩ := matched _ mem
      cases same
  · intro requestId mem
    obtain ⟨other, _, same⟩ := matched _ mem
    cases same

theorem RequestsOnce.taskRequested (once : broker.RequestsOnce) (requesterId taskType : String)
    (fresh : broker.requests.get? requestId = none) :
    (broker.taskRequested requestId requesterId taskType).RequestsOnce := by
  rw [get?_eq_none_iff] at fresh
  apply RequestsOnce.settleTasks
  apply once.extend []
  · simp [requestMarks]
  · apply nodup_append.mpr
    refine ⟨once.oneLife.nodup, nodup_singleton requestId, ?_⟩
    intro waiting mem new newMem same
    rw [mem_singleton.mp newMem] at same
    exact fresh (same ▸ once.listed waiting mem)
  · intro other mem
    apply (mem_append.mp mem).imp_right
    intro same
    exact mem_singleton.mp same ▸ fresh
  · intro other mem
    apply mem_keys_set.mpr
    rcases mem_append.mp mem with old | new
    · exact .inr (once.listed other old)
    · exact .inl (mem_singleton.mp new)
  · exact fun other mem => mem_keys_set.mpr (.inr mem)
  · simp
  · simp

theorem RequestsOnce.handleRequestTimeout (once : broker.RequestsOnce) {request : TaskRequest}
    (found : broker.requests.get? requestId = some request) :
    (broker.handleRequestTimeout requestId request).RequestsOnce := by
  have mem : requestId ∈ broker.requests.keys := by
    rw [← has_iff, OrderedMap.has, found]
    rfl
  simp only [TaskBroker.handleRequestTimeout]
  split
  · let expiry : List RequestMark :=
      if request.requesterId ∈ broker.requesters then [.expired requestId]
      else []
    apply once.extend expiry
    · exact requestMarks_messageRequester _ _
    · exact once.oneLife.nodup.erase requestId
    · exact fun other waits => .inl (mem_of_mem_erase waits)
    · exact fun other waits => mem_keys_setRequest (once.listed other (mem_of_mem_erase waits))
    · exact fun other known => mem_keys_setRequest known
    · simp only [expiry]
      split <;> simp
    · intro other expired
      simp only [expiry] at expired ⊢
      split at expired
      next registered =>
        cases mem_singleton.mp expired
        refine ⟨if_pos registered, ?_, mem_keys_setRequest mem⟩
        exact once.oneLife.nodup.not_mem_erase
      · cases expired
  · refine once.keep rfl ?_ ?_
    · exact .refl _
    · exact fun other known => mem_keys_setRequest known

theorem RequestsOnce.releaseRequest (once : broker.RequestsOnce) (requestId : String) :
    (broker.releaseRequest requestId).RequestsOnce := by
  simp only [TaskBroker.releaseRequest]
  split
  · exact once
  · refine once.keep rfl ?_ ?_
    · exact .refl _
    · exact fun other known => mem_keys_setRequest known

theorem RequestsOnce.announceTask (once : broker.RequestsOnce)
    (taskId : TaskId) (call : AcceptCall) :
    (broker.announceTask taskId call).RequestsOnce := by
  simp only [TaskBroker.announceTask]
  split
  · exact once
  next request found =>
    split
    next waits =>
      let ready : List RequestMark :=
        if request.requesterId ∈ broker.requesters then
          [.ready call.requestId]
        else []
      apply once.extend ready
      · exact requestMarks_messageRequester _ _
      · exact once.oneLife.nodup.erase call.requestId
      · exact fun other waits => .inl (mem_of_mem_erase waits)
      · exact fun other waits => mem_keys_setRequest (once.listed other (mem_of_mem_erase waits))
      · exact fun other known => mem_keys_setRequest known
      · intro other served
        left
        simp only [ready] at served
        split at served
        · simp only [mem_singleton, reduceCtorEq, false_or, RequestMark.ready.injEq] at served
          exact served ▸ waits
        · simp at served
      · intro other expired
        simp only [ready] at expired
        split at expired <;> simp at expired
    · refine once.keep rfl ?_ ?_
      · exact .refl _
      · exact fun other known => mem_keys_setRequest known

theorem RequestsOnce.deregisterRunner (once : broker.RequestsOnce) (runnerId error : String) :
    (broker.deregisterRunner runnerId error).RequestsOnce := by
  refine RequestsOnce.same ?_ (sameRequests_dropTasks runnerId error broker.tasks.entries _)
  refine once.keep rfl ?_ ?_
  · exact .refl _
  · exact fun _ mem => mem

theorem requestsOnce_step (event : BrokerEvent)
    (once : broker.RequestsOnce) (notDeferred : broker.NotDeferred event)
    (moved : step broker event = some next) : next.RequestsOnce := by
  cases requestStep_of_step moved with
  | same same => exact once.same same
  | deregisterRunner runnerId error => exact once.deregisterRunner _ _
  | taskrequest requesterId taskType fresh =>
    exact once.taskRequested requesterId taskType fresh
  | taskoffer runnerId offerId taskType validFor offer =>
    apply RequestsOnce.settleTasks
    refine once.keep rfl ?_ ?_
    · exact .refl _
    · exact fun _ mem => mem
  | requestTimeout found => exact once.handleRequestTimeout found
  | @acceptResumes taskId fails call next found outcome =>
    cases outcome with
    | same same => exact once.same same
    | released =>
      exact (once.releaseRequest _).same (sameRequests_setPhase _ _ _)
    | deferred phase answer =>
      exact absurd answer (notDeferred call found phase)
    | announced => exact once.announceTask taskId call
  | elapse nanoseconds =>
    refine once.keep rfl ?_ ?_
    · exact .refl _
    · exact fun _ mem => mem

theorem requestsOnce_start (mode : RunnerMode) : RequestsOnce { mode := mode } := by
  constructor
  · exact ⟨nodup_nil, List.Pairwise.nil⟩
  · intro requestId mem
    cases mem
  · intro requestId mem
    cases mem
  · intro requestId mem
    cases mem

end Steps

/-- Requests have one life throughout a run in which no call of `acceptOffer`
resumes with a deferral. -/
theorem oneLife_of_notDeferred {mode : RunnerMode} {events : List BrokerEvent}
    (notDeferred : step.Meets NotDeferred { mode := mode } events) :
    step.Always OneLife { mode := mode } events :=
  Machine.always_of_meets (fun _ event _ once notDeferred stepped =>
      requestsOnce_step event once notDeferred stepped)
    (fun _ once => RequestsOnce.oneLife once)
    (requestsOnce_start mode) notDeferred

section Example

instance (broker : TaskBroker) (event : BrokerEvent) : Decidable (broker.NotDeferred event) :=
  match event with
  | .acceptResumes taskId _ =>
    match found : broker.accepts.get? taskId with
    | none => isTrue fun _ other => nomatch found.symm.trans other
    | some call =>
      @decidable_of_iff _ (call.phase = .awaitingRunner → call.runnerAnswer ≠ .deferred)
        ⟨fun met _ same => Option.some.inj (found.symm.trans same) ▸ met,
          fun met => met call found⟩ inferInstance
  | .registerRunner _ | .deregisterRunner _ _ | .registerRequester _
  | .deregisterRequester _ | .taskrequest _ _ _ | .taskoffer _ _ _ _
  | .taskaccepted _ _ | .taskrejected _ _ _ | .taskdeferred _ _
  | .taskdone _ _ _ | .taskerror _ _ _ | .tasksettings _ _
  | .taskcancel _ _ | .requesterReject _ _ | .response _
  | .requestTimeout _ | .acceptTimeout _ | .requesterTimeout _
  | .taskTimeout _ | .completionResumes _ _ | .timeoutResumes _ _
  | .elapse _ => isTrue True.intro

def acceptedAfterReject : List BrokerEvent :=
  [.registerRunner "runner", .registerRequester "requester",
   .taskrequest "request" "requester" "javascript",
   .taskoffer "runner" "1" "javascript" 5000, .acceptResumes 0 false,
   .taskrejected "runner" 0 "No open task slots", .acceptResumes 0 false,
   .taskoffer "runner" "2" "javascript" 5000, .acceptResumes 1 false,
   .taskaccepted "runner" 1, .acceptResumes 1 false]

theorem oneLife_acceptedAfterReject : step.Always OneLife {} acceptedAfterReject := by
  apply oneLife_of_notDeferred
  decide

/-- A launcher defers the task of a request that is matched again only after
it has expired. -/
def deferredAndExpired : List BrokerEvent :=
  [.registerRunner "launcher", .registerRequester "requester",
   .taskrequest "request" "requester" "javascript",
   .taskoffer "launcher" "1" "javascript" (-1), .acceptResumes 0 false,
   .taskdeferred "launcher" 0, .acceptResumes 0 false]

/-- The deferred request waits twice, and one expiry leaves it to be
matched. -/
theorem not_oneLife_deferredAndExpired : (∃ last, step.run {} deferredAndExpired = some last ∧
      last.pendingTaskRequests = ["request", "request"] ∧ ¬ last.OneLife) ∧
    ∃ last, step.run {} (deferredAndExpired ++ [.requestTimeout "request",
         .taskoffer "launcher" "2" "javascript" (-1)]) = some last ∧
      last.requestMarks = [.matched "request", .expired "request",
        .matched "request"] ∧ ¬ last.OneLife := by
  constructor
  · refine ⟨_, rfl, rfl, ?_⟩
    intro oneLife
    exact absurd oneLife.nodup (by decide)
  · obtain ⟨last, run, marks⟩ : ∃ last, step.run {} (deferredAndExpired ++
        [.requestTimeout "request", .taskoffer "launcher" "2" "javascript" (-1)]) = some last ∧
      last.requestMarks = [.matched "request", .expired "request",
        .matched "request"] := ⟨_, rfl, rfl⟩
    refine ⟨last, run, marks, ?_⟩
    intro oneLife
    have quiet := oneLife.quiet
    rw [marks] at quiet
    simp at quiet

end Example

end TaskBroker

end N8n
