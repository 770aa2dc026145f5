import N8n.TaskBroker.TaskMove

/-!
# The end of a task

A task ends with one `broker:taskdone` or `broker:taskerror`, as long as no
handler finds it while an earlier one has not removed it yet.  Nothing is sent
for a cancelled task in any case.
-/

namespace N8n

namespace TaskBroker

/-- The requester hears of the end of a task once, and not after it cancelled
the task. -/
structure TaskView.EndsOnce (view : TaskView) : Prop where
  once : view.marks.count .completed ≤ 1
  uncancelled : view.marks.Pairwise fun earlier later =>
    earlier = .cancelled → later ≠ .completed

def concludes (broker : TaskBroker) (taskId : TaskId) (task : Task) : BrokerEvent → Bool
  | .taskdone _ other _ | .taskerror _ other _ => other = taskId
  | .taskTimeout other => other = taskId && broker.mode = .internal
  | .timeoutResumes other fails => other = taskId && !fails
  | .deregisterRunner runnerId _ => task.runnerId = runnerId
  | .response other =>
    other = taskId && task.runnerId ∉ broker.knownRunners
  | .acceptResumes other _ =>
    other = taskId && task.runnerId ∉ broker.knownRunners &&
      (broker.accepts.get? taskId).any fun call =>
        call.phase = .awaitingRequester
  | _ => false

/-- No task of a registered requester ends while a handler that ends it waits
for the requester, nor after the requester failed one. -/
def CompletesAlone (broker : TaskBroker) (event : BrokerEvent) : Prop :=
  ∀ entry ∈ broker.tasks.entries, broker.concludes entry.1 entry.2 event = true →
    entry.2.requesterId ∈ broker.requesters → entry.1 ∉ broker.completing ∧ entry.1 ∉ broker.failed

/-- The runner has not taken the task yet. -/
def TaskView.early (view : TaskView) : Bool :=
  view.call.all fun call =>
    call.phase = .messagingRunner || call.phase = .awaitingRunner

structure TaskView.Ending (view : TaskView) : Prop where
  endsOnce : view.EndsOnce
  early : view.early = true →
    view.task = none ∧ ∀ mark ∈ view.marks, ∃ runnerId, mark = .asked runnerId
  uncancelled : view.task.isSome = true → .cancelled ∉ view.marks
  alone : view.task.isSome = true → view.completing = false →
    view.failed = false → .completed ∉ view.marks

section Moves

variable {view after : TaskView}

theorem TaskView.EndsOnce.append (endsOnce : view.EndsOnce)
    {marks : List TaskMark} (appended : after.marks = view.marks ++ marks)
    (silent : .completed ∉ marks) : after.EndsOnce := by
  constructor
  · rw [appended, List.count_append, List.count_eq_zero_of_not_mem silent]
    exact endsOnce.once
  · rw [appended, List.pairwise_append]
    refine ⟨endsOnce.uncancelled, ?_, ?_⟩
    · apply List.pairwise_of_forall_mem_list
      intro earlier _ later mem _ same
      exact silent (same ▸ mem)
    · intro earlier _ later mem _ same
      exact silent (same ▸ mem)

theorem TaskView.Ending.keep (ending : view.Ending) {marks : List TaskMark}
    (appended : after.marks = view.marks ++ marks)
    (silent : .completed ∉ marks ∧ .cancelled ∉ marks)
    (present : after.task.isSome = true → view.task.isSome = true)
    (early : after.early = true → view.early = true ∧
      ∀ mark ∈ marks, ∃ runnerId, mark = .asked runnerId)
    (alone : after.task.isSome = true → after.completing = false →
      after.failed = false → view.completing = false ∧ view.failed = false) :
    after.Ending := by
  constructor
  · exact ending.endsOnce.append appended silent.1
  · intro isEarly
    obtain ⟨wasEarly, asked⟩ := early isEarly
    obtain ⟨absent, before⟩ := ending.early wasEarly
    constructor
    · apply Option.not_isSome_iff_eq_none.mp
      intro isPresent
      have wasPresent := present isPresent
      rw [absent] at wasPresent
      cases wasPresent
    · intro mark mem
      rw [appended] at mem
      exact (List.mem_append.mp mem).elim (before mark) (asked mark)
  · intro isPresent mem
    rw [appended] at mem
    exact (List.mem_append.mp mem).elim (ending.uncancelled (present isPresent)) silent.2
  · intro isPresent completing failed mem
    obtain ⟨wasCompleting, wasFailed⟩ := alone isPresent completing failed
    rw [appended] at mem
    exact (List.mem_append.mp mem).elim
      (ending.alone (present isPresent) wasCompleting wasFailed) silent.1

theorem TaskView.lastMarks_eq (view : TaskView) (registered : List String) :
    view.lastMarks registered = [] ∨ view.lastMarks registered = [.completed] ∧ ∃ task,
        view.task = some task ∧ task.requesterId ∈ registered := by
  simp only [lastMarks]
  split
  · exact .inl rfl
  next task found =>
    split
    next heard =>
      exact .inr ⟨rfl, task, found, heard⟩
    · exact .inl rfl

theorem TaskView.Ending.conclude (ending : view.Ending) {registered : List String}
    (alone : ∀ task, view.task = some task → task.requesterId ∈ registered →
      view.completing = false ∧ view.failed = false)
    (appended : after.marks = view.marks ++ view.lastMarks registered)
    (present : after.task.isSome = true → view.task.isSome = true)
    (early : after.early = true → view.early = true)
    (completing : after.task.isSome = true → after.completing = true) :
    after.Ending := by
  have busy : after.task.isSome = true → after.completing ≠ false := by
    intro isPresent
    rw [completing isPresent]
    exact nofun
  rcases view.lastMarks_eq registered with none | ⟨one, task, found, heard⟩
  · rw [none] at appended
    apply ending.keep appended
    · simp
    · exact present
    · exact fun isEarly => ⟨early isEarly, by simp⟩
    · exact fun isPresent free => absurd free (busy isPresent)
  · rw [one] at appended
    have wasPresent : view.task.isSome = true := found ▸ rfl
    obtain ⟨wasCompleting, wasFailed⟩ := alone task found heard
    have incomplete := ending.alone wasPresent wasCompleting wasFailed
    have uncancelled : .cancelled ∉ after.marks := by
      simpa [appended] using ending.uncancelled wasPresent
    constructor
    · constructor
      · rw [appended, List.count_append, List.count_eq_zero_of_not_mem incomplete]
        exact Nat.le_refl 1
      · apply List.pairwise_of_forall_mem_list
        intro earlier mem _ _ same
        exact absurd (same ▸ mem) uncancelled
    · intro isEarly
      obtain ⟨absent, _⟩ := ending.early (early isEarly)
      cases absent.symm.trans found
    · exact fun _ => uncancelled
    · exact fun isPresent free => absurd free (busy isPresent)

theorem TaskView.early_settleRunner (view : TaskView) (answer : RunnerAnswer) :
    (view.settleRunner answer).early = view.early := by
  cases found : view.call with
  | none => rw [settleRunner_of_none found]
  | some call =>
    simp only [early, settleRunner, found, Option.map_some,
      Option.all_some, AcceptCall.settleRunner]
    split <;> rfl

theorem TaskView.early_answerRunner (view : TaskView) (answer : RunnerAnswer) :
    (view.answerRunner answer).early = view.early := by
  cases awaits : view.awaits with
  | true =>
    rw [answerRunner_of_awaits awaits]
    exact view.early_settleRunner answer
  | false => rw [answerRunner_of_not awaits]

theorem TaskView.early_settleRequester (view : TaskView) (answer : RequesterAnswer) :
    (view.settleRequester answer).early = view.early := by
  cases found : view.call with
  | none => rw [settleRequester_of_none found]
  | some call =>
    simp only [early, settleRequester, found, Option.map_some,
      Option.all_some, AcceptCall.settleRequester]
    split <;> rfl

theorem TaskView.Ending.still (ending : view.Ending) (same : after.marks = view.marks)
    (present : after.task.isSome = true → view.task.isSome = true)
    (early : after.early = true → view.early = true)
    (alone : after.task.isSome = true → after.completing = false →
      after.failed = false → view.completing = false ∧ view.failed = false) :
    after.Ending := by
  have appended : after.marks = view.marks ++ [] := by
    rw [same, List.append_nil]
  apply ending.keep appended
  · simp
  · exact present
  · exact fun isEarly => ⟨early isEarly, by simp⟩
  · exact alone

theorem TaskView.Ending.enter (ending : view.Ending)
    (wasEarly : view.early = true) (marks : List TaskMark)
    (appended : after.marks = view.marks ++ marks)
    (silent : .completed ∉ marks ∧ .cancelled ∉ marks)
    (late : after.early = false) : after.Ending := by
  have asked := (ending.early wasEarly).2
  constructor
  · exact ending.endsOnce.append appended silent.1
  · intro isEarly
    rw [late] at isEarly
    cases isEarly
  · intro _ mem
    rw [appended] at mem
    rcases List.mem_append.mp mem with before | now
    · obtain ⟨runnerId, other⟩ := asked _ before
      cases other
    · exact silent.2 now
  · intro _ _ _ mem
    rw [appended] at mem
    rcases List.mem_append.mp mem with before | now
    · obtain ⟨runnerId, other⟩ := asked _ before
      cases other
    · exact silent.1 now

theorem TaskView.Ending.setPhase (ending : view.Ending) (call : AcceptCall) {phase : AcceptPhase}
    (early : (view.setPhase call phase).early = true → view.early = true) :
    (view.setPhase call phase).Ending := by
  apply ending.still
  · rfl
  · exact id
  · exact early
  · exact fun _ completing failed => ⟨completing, failed⟩

theorem TaskView.silent_cancelMarks (view : TaskView) :
    .completed ∉ view.cancelMarks ∧ .cancelled ∉ view.cancelMarks := by
  simp only [cancelMarks]
  split
  · simp
  · split <;> simp

theorem TaskView.Ending.cancel (ending : view.Ending) : view.cancel.Ending := by
  apply ending.keep
  · rfl
  · exact view.silent_cancelMarks
  · intro present
    cases present
  · intro isEarly
    have absent := (ending.early isEarly).1
    refine ⟨isEarly, ?_⟩
    simp [cancelMarks, absent]
  · intro present
    cases present

end Moves

section AcceptMoves

variable {broker : TaskBroker} {view after : TaskView} {call : AcceptCall} {fails : Bool}

theorem TaskView.Ending.acceptMove (ending : view.Ending)
    (found : view.call = some call) (move : AcceptMove broker view call fails after)
    (alone : ∀ task, view.task = some task → task.runnerId ∉ view.known →
      call.phase = .awaitingRequester →
      task.requesterId ∈ broker.requesters →
      view.completing = false ∧ view.failed = false) : after.Ending := by
  have early : call.phase = .messagingRunner ∨
      call.phase = .awaitingRunner → view.early = true := by
    intro phase
    simpa [TaskView.early, found] using phase
  cases move with
  | asked phase =>
    apply ending.setPhase
    exact fun _ => early (.inl phase)
  | givenUp wasEarly | told phase | found phase answer present known
  | gone phase absent | sent phase | finished phase =>
    apply ending.setPhase
    exact nofun
  | announced phase answer waits =>
    apply ending.enter (early (.inr phase)) _ rfl
    · split <;> simp
    · rfl
  | lost phase answer missing =>
    apply ending.enter (early (.inr phase)) []
    · exact (List.append_nil _).symm
    · simp
    · rfl
  | abandoned phase =>
    apply ending.cancel.setPhase
    exact nofun
  | unfound phase answer present unknown =>
    refine ending.conclude ?_ rfl nofun nofun nofun
    intro task other heard
    cases present.symm.trans other
    exact alone _ present unknown phase heard
  | forwarded phase present =>
    apply ending.keep rfl
    · split <;> simp
    · exact fun _ => present ▸ rfl
    · exact nofun
    · exact fun _ completing failed => ⟨completing, failed⟩

end AcceptMoves

section TaskMoves

variable {broker : TaskBroker} {taskId : TaskId} {event : BrokerEvent} {after : TaskView}

theorem CompletesAlone.alone (alone : broker.CompletesAlone event)
    (ends : ∀ task, (broker.taskView taskId).task = some task →
      broker.concludes taskId task event = true) (task : Task)
    (found : (broker.taskView taskId).task = some task)
    (heard : task.requesterId ∈ broker.requesters) :
    (broker.taskView taskId).completing = false ∧ (broker.taskView taskId).failed = false := by
  have mem : (taskId, task) ∈ broker.tasks.entries := OrderedMap.get?_eq_some_iff.mp found
  obtain ⟨notCompleting, notFailed⟩ := alone (taskId, task) mem (ends task found) heard
  constructor
  · rw [← Bool.not_eq_true]
    exact fun completing => notCompleting (List.contains_iff_mem.mp completing)
  · rw [← Bool.not_eq_true]
    exact fun failed => notFailed (List.contains_iff_mem.mp failed)

theorem TaskView.Ending.complete {view : TaskView} (ending : view.Ending) {registered : List String}
    (alone : ∀ task, view.task = some task → task.requesterId ∈ registered →
      view.completing = false ∧ view.failed = false) :
    (view.complete registered).Ending := by
  apply ending.conclude alone rfl
  · simp [TaskView.complete]
  · exact id
  · intro present
    simp only [TaskView.complete, Option.isSome_map] at present
    simp [TaskView.complete, present]

theorem ending_taskMove (ending : (broker.taskView taskId).Ending)
    (alone : broker.CompletesAlone event)
    (move : TaskMove broker taskId (broker.taskView taskId) event after) :
    after.Ending := by
  cases move with
  | drawn offer requestId arrival undrawn =>
    apply ending.keep rfl
    · split <;> simp
    · exact id
    · intro _
      refine ⟨by simp [TaskView.early, undrawn], ?_⟩
      intro mark mem
      split at mem
      · exact ⟨_, List.mem_singleton.mp mem⟩
      · cases mem
    · exact fun _ completing failed => ⟨completing, failed⟩
  | connected runnerId | timeoutFailed others timingOut
  | disconnected runnerId error other =>
    apply ending.still
    · rfl
    · exact id
    · exact id
    · exact fun _ completing failed => ⟨completing, failed⟩
  | accepted known asked | refused answer refusal settles =>
    apply ending.still
    · rfl
    · exact id
    · exact fun early => TaskView.early_answerRunner _ _ ▸ early
    · exact fun _ completing failed => ⟨completing, failed⟩
  | runnerTimeout found =>
    apply ending.still
    · rfl
    · exact id
    · rw [TaskView.early_settleRunner]
      simp [TaskView.early, found]
    · exact fun _ completing failed => ⟨completing, failed⟩
  | requesterTimeout found =>
    apply ending.still
    · rfl
    · exact id
    · rw [TaskView.early_settleRequester]
      simp [TaskView.early, found]
    · exact fun _ completing failed => ⟨completing, failed⟩
  | requesterAnswered answer told =>
    apply ending.still
    · rfl
    · exact id
    · exact fun early => TaskView.early_settleRequester _ _ ▸ early
    · exact fun _ completing failed => ⟨completing, failed⟩
  | done runnerId data | error runnerId error =>
    apply ending.complete
    apply alone.alone
    simp [concludes]
  | timedOut internal found timer =>
    apply ending.complete
    apply alone.alone
    simp [concludes, internal]
  | timingOut found timer =>
    apply ending.keep rfl
    · split <;> simp
    · exact fun _ => found ▸ rfl
    · intro early
      rw [(ending.early early).1] at found
      cases found
    · exact fun _ completing failed => ⟨completing, failed⟩
  | timeoutResumed others timingOut =>
    apply TaskView.Ending.complete
    · apply ending.still
      · rfl
      · exact id
      · exact id
      · exact fun _ completing failed => ⟨completing, failed⟩
    · apply alone.alone
      simp [concludes]
  | cancelled reason told =>
    constructor
    · apply ending.cancel.endsOnce.append rfl
      simp
    · intro early
      obtain ⟨runnerId, other⟩ := (ending.early early).2 _ told
      cases other
    · exact nofun
    · exact nofun
  | failed found unknown =>
    refine ending.conclude ?_ rfl nofun ?_ nofun
    · apply alone.alone
      intro task other
      cases found.symm.trans other
      have missing : _ ∉ broker.knownRunners := unknown
      simpa [concludes] using missing
    · exact id
  | completionResumed others completing =>
    apply ending.still
    · rfl
    · exact nofun
    · exact id
    · exact nofun
  | completionFailed others completing =>
    apply ending.still
    · rfl
    · exact id
    · exact id
    · exact nofun
  | dropped reason found its =>
    refine ending.conclude ?_ rfl nofun ?_ nofun
    · apply alone.alone
      intro task other
      cases found.symm.trans other
      simp [concludes, its]
    · exact fun early => TaskView.early_answerRunner _ _ ▸ early
  | resumed fails found acceptMove =>
    apply ending.acceptMove found acceptMove
    intro task present unknown phase
    refine alone.alone ?_ task present
    intro task other
    cases present.symm.trans other
    have missing : task.runnerId ∉ broker.knownRunners := unknown
    have drew : broker.accepts.get? taskId = some _ := found
    simp [concludes, missing, drew, phase]

end TaskMoves

theorem ending_start (mode : RunnerMode) (taskId : TaskId) :
    (taskView { mode := mode } taskId).Ending := by
  constructor
  · exact ⟨Nat.zero_le 1, List.Pairwise.nil⟩
  · exact fun _ => ⟨rfl, nofun⟩
  · exact nofun
  · exact nofun

/-- Every task ends once throughout a run in which tasks end alone. -/
theorem endsOnce_of_completesAlone {mode : RunnerMode} {events : List BrokerEvent}
    (alone : step.Meets CompletesAlone { mode := mode } events) :
    step.Always (fun broker => ∀ taskId, (broker.taskView taskId).EndsOnce)
      { mode := mode } events := by
  have kept : ∀ (broker : TaskBroker) event taskId after,
      (broker.taskView taskId).Ending → broker.CompletesAlone event →
      TaskMove broker taskId (broker.taskView taskId) event after →
      after.Ending :=
    fun _ _ _ _ ending alone move => ending_taskMove ending alone move
  have safe : ∀ broker : TaskBroker, (∀ taskId, (broker.taskView taskId).Ending) →
      ∀ taskId, (broker.taskView taskId).EndsOnce :=
    fun _ ending taskId => (ending taskId).endsOnce
  exact always_of_taskMove kept safe (ending_start mode) alone

section Example

instance (broker : TaskBroker) (event : BrokerEvent) : Decidable (broker.CompletesAlone event) :=
  inferInstanceAs (Decidable (∀ entry ∈ broker.tasks.entries, _ → _))

/-- The handshake of a task up to its settings. -/
def settledTask : List BrokerEvent :=
  [.registerRunner "runner", .registerRequester "requester",
   .taskrequest "request" "requester" "javascript",
   .taskoffer "runner" "1" "javascript" 5000, .acceptResumes 0 false,
   .taskaccepted "runner" 0, .acceptResumes 0 false, .acceptResumes 0 false,
   .tasksettings 0 "code", .acceptResumes 0 false, .acceptResumes 0 false,
   .acceptResumes 0 false]

theorem endsOnce_settledAndDone :
    step.Always (fun broker => ∀ taskId, (broker.taskView taskId).EndsOnce)
      {} (settledTask ++ [.taskdone "runner" 0 "result", .completionResumes 0 false,
         .taskerror "runner" 0 "error"]) := by
  apply endsOnce_of_completesAlone
  decide

def EndsTwice (ends : List BrokerEvent) : Prop :=
  ∃ last, step.run {} (settledTask ++ ends) = some last ∧
    (last.taskView 0).marks.count .completed = 2 ∧
    ¬ (last.taskView 0).EndsOnce

/-- While the requester is told the end of a task, the runner's error, its
disconnection or its late result are told as well. -/
theorem not_endsOnce_endedTwice :
    EndsTwice [.taskdone "runner" 0 "result", .taskerror "runner" 0 "error"] ∧
      EndsTwice [.taskdone "runner" 0 "result", .deregisterRunner "runner" "error"] ∧
      EndsTwice [.taskTimeout 0, .taskdone "runner" 0 "result"] := by
  have twice : ∀ last : TaskBroker, (last.taskView 0).marks.count .completed = 2 →
      ¬ (last.taskView 0).EndsOnce := by
    intro last count endsOnce
    have once := endsOnce.once
    omega
  refine ⟨?_, ?_, ?_⟩
  · exact ⟨_, rfl, rfl, twice _ rfl⟩
  · exact ⟨_, rfl, rfl, twice _ rfl⟩
  · exact ⟨_, rfl, rfl, twice _ rfl⟩

end Example

end TaskBroker

end N8n
