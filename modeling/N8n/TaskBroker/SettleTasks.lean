import N8n.TaskBroker.RequestFrame

/-!
# Matches of offers and requests

`settleTasks` leaves no offer that fits an available request.  Between two
requests or offers, only an attempt that failed can make a request available
while an offer for it waits.
-/

namespace N8n

open OrderedMap List Nat

namespace TaskBroker

section

variable (broker : TaskBroker)

/-- No offer that has not expired fits the request. -/
def Settled (requestId : String) : Prop :=
  ∀ request, broker.requests.get? requestId = some request → request.acceptInProgress = false →
    ∀ offer ∈ broker.pendingTaskOffers, offer.hasExpired broker.time = false →
      offer.taskType ≠ request.taskType

def NoIdleMatch : Prop :=
  ∀ requestId ∈ broker.pendingTaskRequests, broker.Settled requestId

/-- Each idle match is one of a request that a failed attempt released. -/
def IdleOnlyReleased : Prop :=
  ∀ requestId ∈ broker.pendingTaskRequests, requestId ∉ broker.released → broker.Settled requestId

end

/-- No step between makes a request available without releasing it, and no
offers come in. -/
structure NoNewMatch (broker next : TaskBroker) : Prop where
  pending : ∀ requestId ∈ next.pendingTaskRequests,
    requestId ∈ broker.pendingTaskRequests ∨ requestId ∈ next.released
  released : ∀ requestId ∈ broker.released, requestId ∈ next.released
  offers : ∀ offer ∈ next.pendingTaskOffers, offer ∈ broker.pendingTaskOffers
  time : broker.time ≤ next.time
  requests : ∀ requestId request, requestId ∉ next.released →
    next.requests.get? requestId = some request →
    ∃ old, broker.requests.get? requestId = some old ∧
      old.acceptInProgress = request.acceptInProgress ∧
      old.taskType = request.taskType

section Settle

variable {broker next : TaskBroker} {requestId other : String}

theorem settled_settleRequest : (broker.settleRequest requestId).Settled requestId := by
  simp only [settleRequest]
  split
  next absent =>
    intro request found
    rw [absent] at found
    cases found
  next request found =>
    split
    next busy =>
      intro same sameFound available
      rw [found] at sameFound
      cases sameFound
      exact absurd busy (by simp [available])
    · split
      next none =>
        intro same sameFound _ offer mem _
        rw [found] at sameFound
        cases sameFound
        simpa using List.find?_eq_none.mp none offer mem
      · intro same sameFound available
        simp only [acceptOffer, messageRunner, log, setRequest,
          get?_set_self, Option.some.injEq] at sameFound
        subst sameFound
        cases available

theorem Settled.settleRequest (settled : broker.Settled other) :
    (broker.settleRequest requestId).Settled other := by
  simp only [TaskBroker.settleRequest]
  split
  · exact settled
  next request found =>
    split
    · exact settled
    · split
      · exact settled
      · intro same sameFound available offer mem unexpired
        simp only [acceptOffer, messageRunner, log, setRequest, get?_set] at sameFound mem
        split at sameFound
        · cases sameFound
          cases available
        · apply settled same sameFound available offer
          · exact mem_of_mem_eraseP mem
          · exact unexpired

theorem noIdleMatch_settleTasks : broker.settleTasks.NoIdleMatch := by
  have turns : ∀ (requestIds : List String) (broker : TaskBroker),
      let last := requestIds.foldl settleRequest broker
      last.pendingTaskRequests = broker.pendingTaskRequests ∧
        (∀ other, broker.Settled other → last.Settled other) ∧
        ∀ other ∈ requestIds, last.Settled other := by
    intro requestIds
    induction requestIds with
    | nil => exact fun _ => ⟨rfl, fun _ settled => settled, by simp⟩
    | cons requestId requestIds ih =>
      intro broker
      obtain ⟨pending, keeps, settles⟩ := ih (broker.settleRequest requestId)
      refine ⟨pending.trans (pendingTaskRequests_settleRequest _), ?_, ?_⟩
      · exact fun other settled => keeps other settled.settleRequest
      · intro other mem
        rcases List.mem_cons.mp mem with first | later
        · subst first
          exact keeps other settled_settleRequest
        · exact settles other later
  intro requestId mem
  obtain ⟨pending, _, settles⟩ := turns broker.pendingTaskRequests
    { broker.expireTasks with released := [] }
  apply settles
  exact pending ▸ mem

end Settle

section NoNewMatch

variable {broker next last : TaskBroker}

theorem NoNewMatch.trans (first : NoNewMatch broker next)
    (second : NoNewMatch next last) : NoNewMatch broker last := by
  constructor
  · intro requestId mem
    rcases second.pending requestId mem with old | released
    · exact (first.pending requestId old).imp_right (second.released requestId)
    · exact .inr released
  · exact fun requestId mem =>
      second.released requestId (first.released requestId mem)
  · exact fun offer mem => first.offers offer (second.offers offer mem)
  · exact first.time.trans second.time
  · intro requestId request unreleased found
    obtain ⟨middle, middleFound, progress, taskType⟩ :=
      second.requests requestId request unreleased found
    obtain ⟨old, oldFound, oldProgress, oldType⟩ := first.requests requestId middle
        (fun released => unreleased (second.released requestId released))
        middleFound
    exact ⟨old, oldFound, oldProgress.trans progress, oldType.trans taskType⟩

theorem SameRequests.noNewMatch (same : SameRequests broker next) : NoNewMatch broker next := by
  constructor
  · exact fun requestId mem => .inl (same.pending ▸ mem)
  · exact fun requestId mem => same.released ▸ mem
  · exact fun offer mem => same.offers ▸ mem
  · exact same.time ▸ le_refl _
  · exact fun requestId request _ found =>
      ⟨request, same.requests ▸ found, rfl, rfl⟩

theorem hasExpired_of_le {offer : TaskOffer} {time later : Nat}
    (order : time ≤ later) (expired : offer.hasExpired time = true) :
    offer.hasExpired later = true := by
  simp only [TaskOffer.hasExpired, Bool.and_eq_true, decide_eq_true_eq] at expired ⊢
  exact ⟨expired.1, by omega⟩

theorem IdleOnlyReleased.after (idle : broker.IdleOnlyReleased)
    (noNew : NoNewMatch broker next) : next.IdleOnlyReleased := by
  intro requestId mem unreleased request found available offer waits unexpired
  obtain ⟨old, oldFound, progress, taskType⟩ := noNew.requests requestId request unreleased found
  have oldMem : requestId ∈ broker.pendingTaskRequests :=
    (noNew.pending requestId mem).resolve_right unreleased
  have oldUnexpired : offer.hasExpired broker.time = false := by
    by_contra expired
    rw [Bool.not_eq_false] at expired
    simp [hasExpired_of_le noNew.time expired] at unexpired
  rw [← taskType]
  apply idle requestId oldMem
  · exact fun released => unreleased (noNew.released requestId released)
  · exact oldFound
  · exact progress.trans available
  · exact noNew.offers offer waits
  · exact oldUnexpired

theorem NoNewMatch.setRequest {requestId : String} {request : TaskRequest}
    (changed : TaskRequest) (found : broker.requests.get? requestId = some request)
    (progress : request.acceptInProgress = changed.acceptInProgress)
    (taskType : request.taskType = changed.taskType) :
    NoNewMatch broker (broker.setRequest requestId changed) := by
  constructor
  · exact fun _ mem => .inl mem
  · exact fun _ mem => mem
  · exact fun _ mem => mem
  · exact le_refl _
  · intro other current _ currentFound
    simp only [TaskBroker.setRequest, get?_set] at currentFound
    split at currentFound
    next same =>
      subst same
      cases currentFound
      exact ⟨request, found, progress, taskType⟩
    · exact ⟨current, currentFound, rfl, rfl⟩

theorem noNewMatch_releaseRequest (requestId : String) :
    NoNewMatch broker (broker.releaseRequest requestId) := by
  simp only [releaseRequest]
  split
  · exact (SameRequests.refl broker).noNewMatch
  · constructor
    · exact fun _ mem => .inl mem
    · exact fun _ mem => List.mem_append_left _ mem
    · exact fun _ mem => mem
    · exact le_refl _
    · intro other current unreleased found
      have ne : requestId ≠ other := by
        intro same
        exact unreleased (List.mem_append_right _ (by simp [same]))
      rw [TaskBroker.setRequest, get?_set_ne _ _ ne] at found
      exact ⟨current, found, rfl, rfl⟩

theorem noNewMatch_deferRequest (requestId : String) :
    NoNewMatch broker (broker.deferRequest requestId) := by
  simp only [deferRequest]
  split
  · exact (SameRequests.refl broker).noNewMatch
  · constructor
    · intro other mem
      apply (List.mem_append.mp mem).imp_right
      exact fun same => List.mem_append_right _ same
    · exact fun _ mem => List.mem_append_left _ mem
    · exact fun _ mem => mem
    · exact le_refl _
    · intro other current unreleased found
      have ne : requestId ≠ other := by
        intro same
        exact unreleased (List.mem_append_right _ (by simp [same]))
      rw [TaskBroker.setRequest, get?_set_ne _ _ ne] at found
      exact ⟨current, found, rfl, rfl⟩

theorem NoNewMatch.of_fewer (pending : next.pendingTaskRequests ⊆ broker.pendingTaskRequests)
    (offers : next.pendingTaskOffers ⊆ broker.pendingTaskOffers)
    (released : next.released = broker.released) (time : broker.time ≤ next.time)
    (requests : next.requests = broker.requests) :
    NoNewMatch broker next := by
  constructor
  · exact fun requestId mem => .inl (pending mem)
  · exact fun requestId mem => released ▸ mem
  · exact fun offer mem => offers mem
  · exact time
  · exact fun requestId request _ found =>
      ⟨request, requests ▸ found, rfl, rfl⟩

theorem noNewMatch_announceTask (taskId : TaskId) (call : AcceptCall) :
    NoNewMatch broker (broker.announceTask taskId call) := by
  simp only [announceTask]
  split
  · exact (SameRequests.refl broker).noNewMatch
  next request found =>
    have timed := NoNewMatch.setRequest { request with timeout := false } found rfl rfl
    split
    · apply timed.trans
      apply NoNewMatch.of_fewer
      · exact List.erase_subset
      · exact fun _ mem => mem
      · rfl
      · exact le_refl _
      · rfl
    · apply timed.trans
      exact .of_fewer (fun _ mem => mem) (fun _ mem => mem) rfl (le_refl _) rfl

theorem noNewMatch_handleRequestTimeout {requestId : String} {request : TaskRequest}
    (found : broker.requests.get? requestId = some request) :
    NoNewMatch broker (broker.handleRequestTimeout requestId request) := by
  have timed := NoNewMatch.setRequest { request with timeout := false } found rfl rfl
  simp only [handleRequestTimeout]
  split
  · apply timed.trans
    apply NoNewMatch.of_fewer
    · exact List.erase_subset
    · exact fun _ mem => mem
    · rfl
    · exact le_refl _
    · rfl
  · exact timed

theorem noNewMatch_deregisterRunner (runnerId error : String) :
    NoNewMatch broker (broker.deregisterRunner runnerId error) := by
  refine NoNewMatch.trans ?_
    (sameRequests_dropTasks runnerId error broker.tasks.entries _).noNewMatch
  apply NoNewMatch.of_fewer
  · exact fun _ mem => mem
  · exact List.filter_subset_self _
  · rfl
  · exact le_refl _
  · rfl

theorem AcceptOutcome.noNewMatch {taskId : TaskId} {call : AcceptCall}
    (outcome : AcceptOutcome broker taskId call next) :
    NoNewMatch broker next := by
  cases outcome with
  | same same => exact same.noNewMatch
  | released =>
    exact (noNewMatch_releaseRequest _).trans (sameRequests_setPhase _ _ _).noNewMatch
  | deferred =>
    exact (noNewMatch_deferRequest _).trans (sameRequests_setPhase _ _ _).noNewMatch
  | announced => exact noNewMatch_announceTask taskId call

end NoNewMatch

section Runs

variable {broker next : TaskBroker}

theorem NoIdleMatch.idleOnlyReleased (noIdle : broker.NoIdleMatch) : broker.IdleOnlyReleased :=
  fun requestId mem _ => noIdle requestId mem

theorem idleOnlyReleased_step (event : BrokerEvent) (idle : broker.IdleOnlyReleased)
    (moved : step broker event = some next) : next.IdleOnlyReleased := by
  cases requestStep_of_step moved with
  | same same => exact idle.after same.noNewMatch
  | deregisterRunner runnerId error =>
    exact idle.after (noNewMatch_deregisterRunner runnerId error)
  | taskrequest requesterId taskType fresh
  | taskoffer runnerId offerId taskType validFor offer =>
    exact noIdleMatch_settleTasks.idleOnlyReleased
  | requestTimeout found =>
    exact idle.after (noNewMatch_handleRequestTimeout found)
  | acceptResumes fails found outcome => exact idle.after outcome.noNewMatch
  | elapse nanoseconds =>
    apply idle.after
    exact .of_fewer (fun _ mem => mem) (fun _ mem => mem) rfl (Nat.le_add_right _ _) rfl

def LeavesNoIdleMatch (broker : TaskBroker) : BrokerEvent → Prop
  | .taskrequest requestId requesterId taskType => ∀ next,
      step broker (.taskrequest requestId requesterId taskType) = some next →
      next.NoIdleMatch
  | .taskoffer runnerId offerId taskType validFor => ∀ next,
      step broker (.taskoffer runnerId offerId taskType validFor) = some next → next.NoIdleMatch
  | _ => True

theorem leavesNoIdleMatch (broker : TaskBroker) (event : BrokerEvent) :
    broker.LeavesNoIdleMatch event := by
  cases event with
  | taskrequest requestId requesterId taskType =>
    intro next moved
    simp only [step] at moved
    split at moved
    · cases moved
      exact noIdleMatch_settleTasks
    · cases moved
  | taskoffer runnerId offerId taskType validFor =>
    intro next moved
    simp only [step, Option.ite_none_right_eq_some, Option.some.injEq] at moved
    obtain ⟨_, rfl⟩ := moved
    exact noIdleMatch_settleTasks
  | _ => exact True.intro

end Runs

/-- In every run each request and each offer leaves no idle match, and in
every state each idle match is one of a request that a failed attempt released
since then. -/
theorem noIdleMatch_of_run (mode : RunnerMode) (events : List BrokerEvent) :
    step.Meets LeavesNoIdleMatch { mode := mode } events ∧
      step.Always IdleOnlyReleased { mode := mode } events := by
  constructor
  · exact Machine.meets_of_forall leavesNoIdleMatch _ events
  · intro earlier _ reached run
    have start : IdleOnlyReleased { mode := mode } := by
      intro requestId mem
      cases mem
    exact Machine.invariant_of_run IdleOnlyReleased
      (fun _ event _ idle stepped => idleOnlyReleased_step event idle stepped)
      start run

section Example

def rejectedWithSecondOffer : List BrokerEvent :=
  [.registerRunner "runner", .registerRequester "requester",
   .taskrequest "request" "requester" "javascript",
   .taskoffer "runner" "1" "javascript" 5000,
   .acceptResumes 0 false,
   .taskoffer "runner" "2" "javascript" 5000,
   .taskrejected "runner" 0 "No open task slots",
   .acceptResumes 0 false]

/-- The request and the second offer wait for each other. -/
theorem not_noIdleMatch_rejectedWithSecondOffer :
    ∃ last, step.run {} rejectedWithSecondOffer = some last ∧ ¬ last.NoIdleMatch := by
  refine ⟨_, rfl, ?_⟩
  intro noIdle
  refine noIdle "request" (by decide) { requesterId := "requester"
                                        taskType := "javascript" } rfl rfl
    { offerId := "2"
      runnerId := "runner"
      taskType := "javascript"
      validFor := 5000
      validUntil := 5000000000 } (by decide) (by decide) rfl

end Example

end TaskBroker

end N8n
