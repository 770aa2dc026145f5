import N8n.TaskBroker.TaskMove

/-!
# How a task is handed over

A task goes through three messages: the runner of the matched offer is asked
whether it takes the task, the requester is told that it is ready, and the
runner gets the settings.
-/

namespace N8n

open List

namespace TaskBroker

def TaskMark.handsOver : TaskMark → Bool
  | .asked _ | .ready | .settings _ => true
  | .cancelSent _ | .completed | .cancelled => false

def handOver (runnerId : String) : List TaskMark :=
  [.asked runnerId, .ready, .settings runnerId]

/-- What was sent to hand over a task is a beginning of the hand-over to one
runner, and only this runner is told that the task is cancelled. -/
def HandedOver (broker : TaskBroker) : Prop :=
  ∀ taskId, ∃ runnerId,
    (broker.taskView taskId).marks.filter TaskMark.handsOver <+: handOver runnerId ∧
      ∀ other, .cancelSent other ∈ (broker.taskView taskId).marks → other = runnerId

/-- How a call of `acceptOffer` fits to the number of messages that were sent. -/
structure AcceptCall.Fits (call : AcceptCall) (runnerId : String) (sent : Nat) : Prop where
  runner : call.offer.runnerId = runnerId
  accepted : call.runnerAnswer = .accepted → 1 ≤ sent
  answered : ∀ settings, call.requesterAnswer = .settings settings → 2 ≤ sent
  phase : match call.phase with
    | .messagingRunner | .awaitingRunner => sent ≤ 1
    | .messagingRequester | .awaitingRequester => sent ≤ 2
    | .findingRunner other _ => other = runnerId ∧ sent = 2
    | _ => True

structure TaskView.Dispatched (view : TaskView) (runnerId : String) (sent : Nat) : Prop where
  handed : view.marks.filter TaskMark.handsOver = (handOver runnerId).take sent
  cancels : ∀ other, .cancelSent other ∈ view.marks → other = runnerId
  task : ∀ task, view.task = some task → task.runnerId = runnerId
  undrawn : view.call = none → view.task = none ∧ view.marks = []
  call : ∀ call, view.call = some call → call.Fits runnerId sent

section HandOver

variable {view after : TaskView} {runnerId : String} {sent : Nat} {call : AcceptCall}

theorem AcceptCall.Fits.settleRunner (fits : call.Fits runnerId sent) {answer : RunnerAnswer}
    (allowed : answer = .accepted → 1 ≤ sent) : (call.settleRunner answer).Fits runnerId sent := by
  rw [AcceptCall.settleRunner]
  split
  · exact { fits with accepted := allowed }
  · exact fits

theorem AcceptCall.Fits.settleRequester (fits : call.Fits runnerId sent)
    {answer : RequesterAnswer} (allowed : ∀ settings, answer = .settings settings → 2 ≤ sent) :
    (call.settleRequester answer).Fits runnerId sent := by
  rw [AcceptCall.settleRequester]
  split
  · exact { fits with answered := allowed }
  · exact fits

namespace TaskView.Dispatched

/-- Nothing was sent for a task that is not drawn. -/
theorem of_undrawn (noTask : view.task = none) (noMarks : view.marks = [])
    (undrawn : view.call = none) : view.Dispatched runnerId 0 := by
  constructor <;> simp [noTask, noMarks, undrawn]

theorem lt_of_mem (dispatched : view.Dispatched runnerId sent) {mark : TaskMark} {index : Nat}
    (hands : mark.handsOver = true) (mem : mark ∈ view.marks)
    (place : ∀ count ≤ index, mark ∉ (handOver runnerId).take count) : index < sent := by
  have sentMark : mark ∈ view.marks.filter TaskMark.handsOver := mem_filter.mpr ⟨mem, hands⟩
  rw [dispatched.handed] at sentMark
  by_contra few
  exact place sent (Nat.le_of_not_lt few) sentMark

theorem ready_lt (dispatched : view.Dispatched runnerId sent) (ready : .ready ∈ view.marks) :
    1 < sent := by
  apply dispatched.lt_of_mem rfl ready
  intro count few
  rcases Nat.le_one_iff_eq_zero_or_eq_one.mp few with rfl | rfl <;> simp [handOver]

/-- What is sent does not hand over the task, and the call may learn something. -/
theorem other (dispatched : view.Dispatched runnerId sent) (change : AcceptCall → AcceptCall)
    {marks : List TaskMark} (call : after.call = view.call.map change)
    (fits : ∀ call, view.call = some call → call.Fits runnerId sent →
      (change call).Fits runnerId sent)
    (task : ∀ task, after.task = some task → ∃ earlier, view.task = some earlier ∧
      task.runnerId = earlier.runnerId) (extended : after.marks = view.marks ++ marks)
    (silent : ∀ mark ∈ marks, mark.handsOver = false ∧
      ∀ other, mark = .cancelSent other → other = runnerId)
    (drawn : view.call = none → marks = []) : after.Dispatched runnerId sent := by
  have quiet : marks.filter TaskMark.handsOver = [] :=
    filter_eq_nil_iff.mpr fun mark mem => by simp [(silent mark mem).1]
  constructor
  · rw [extended, filter_append, quiet, append_nil]
    exact dispatched.handed
  · intro other mem
    rw [extended] at mem
    exact (mem_append.mp mem).elim (dispatched.cancels other) fun mem => (silent _ mem).2 other rfl
  · intro current found
    obtain ⟨earlier, before, same⟩ := task current found
    exact same.trans (dispatched.task earlier before)
  · intro undrawn
    rw [call, Option.map_eq_none_iff] at undrawn
    obtain ⟨noTask, noMarks⟩ := dispatched.undrawn undrawn
    refine ⟨?_, by rw [extended, noMarks, drawn undrawn, append_nil]⟩
    refine Option.eq_none_iff_forall_ne_some.mpr fun current found => ?_
    obtain ⟨_, before, _⟩ := task current found
    cases noTask.symm.trans before
  · intro next found
    rw [call] at found
    obtain ⟨earlier, before, rfl⟩ := Option.map_eq_some_iff.mp found
    exact fits earlier before (dispatched.call earlier before)

/-- The call goes on, and what it sends comes next in the hand-over. -/
theorem send (dispatched : view.Dispatched runnerId sent) {later : Nat} {next : AcceptCall}
    {marks : List TaskMark} (call : after.call = some next) (fits : next.Fits runnerId later)
    (task : ∀ task, after.task = some task → task.runnerId = runnerId)
    (extended : after.marks = view.marks ++ marks)
    (follows : (handOver runnerId).take sent ++ marks = (handOver runnerId).take later) :
    after.Dispatched runnerId later := by
  have hands : ∀ mark ∈ marks, mark.handsOver = true := fun mark mem => by
    have sentMark := mem_of_mem_take (follows ▸ mem_append_right _ mem)
    have all : ∀ mark ∈ handOver runnerId, mark.handsOver = true := by
      simp [handOver, TaskMark.handsOver]
    exact all mark sentMark
  constructor
  · rw [extended, filter_append, dispatched.handed, ← follows, filter_eq_self.mpr hands]
  · intro other mem
    rw [extended] at mem
    exact (mem_append.mp mem).elim (dispatched.cancels other) fun mem =>
      absurd (hands _ mem) Bool.false_ne_true
  · exact task
  · intro undrawn
    cases call.symm.trans undrawn
  · intro current found
    cases call.symm.trans found
    exact fits

theorem setPhase (dispatched : view.Dispatched runnerId sent) {phase : AcceptPhase}
    (fits : { call with phase := phase }.Fits runnerId sent) :
    (view.setPhase call phase).Dispatched runnerId sent :=
  dispatched.send rfl fits dispatched.task (append_nil _).symm (append_nil _)

theorem answerRunner (dispatched : view.Dispatched runnerId sent) {answer : RunnerAnswer}
    (allowed : answer = .accepted → 1 ≤ sent) :
    (view.answerRunner answer).Dispatched runnerId sent := by
  refine dispatched.other (fun call =>
    if view.awaits then call.settleRunner answer else call) ?_ ?_
    (fun task found => ⟨task, found, rfl⟩) (append_nil _).symm nofun fun _ => rfl
  · cases awaits : view.awaits <;> simp [TaskView.answerRunner, awaits]
  · intro call _ fits
    split
    · exact fits.settleRunner allowed
    · exact fits

theorem complete (dispatched : view.Dispatched runnerId sent) (registered : List String) :
    (view.complete registered).Dispatched runnerId sent := by
  refine dispatched.other id Option.map_id'.symm (fun _ _ fits => fits) ?_ rfl ?_ ?_
  · intro task found
    obtain ⟨earlier, before, rfl⟩ := Option.map_eq_some_iff.mp found
    exact ⟨earlier, before, rfl⟩
  · simp only [TaskView.lastMarks]
    split
    · simp
    · split <;> simp [TaskMark.handsOver]
  · intro undrawn
    rw [TaskView.lastMarks, (dispatched.undrawn undrawn).1]

theorem fail (dispatched : view.Dispatched runnerId sent) (registered : List String) :
    (view.fail registered).Dispatched runnerId sent := by
  have completed := dispatched.complete registered
  exact { completed with
    task := fun task found => by cases found
    undrawn := fun undrawn => ⟨rfl, (completed.undrawn undrawn).2⟩ }

theorem cancel (dispatched : view.Dispatched runnerId sent) :
    view.cancel.Dispatched runnerId sent := by
  refine dispatched.other id Option.map_id'.symm (fun _ _ fits => fits) ?_ rfl ?_ ?_
  · intro task found
    cases found
  · simp only [TaskView.cancelMarks]
    split
    · simp
    next task found =>
      split
      · simpa [TaskMark.handsOver] using dispatched.task task found
      · simp
  · intro undrawn
    rw [TaskView.cancelMarks, (dispatched.undrawn undrawn).1]

theorem acceptMove {broker : TaskBroker} {fails : Bool} (dispatched : view.Dispatched runnerId sent)
    (found : view.call = some call) (move : AcceptMove broker view call fails after) :
    ∃ sent, after.Dispatched runnerId sent := by
  have fits := dispatched.call call found
  have phaseFits := fits.phase
  cases move with
  | asked phase | told phase =>
    rw [phase] at phaseFits
    exact ⟨sent, dispatched.setPhase { fits with phase := phaseFits }⟩
  | givenUp | gone | sent | finished =>
    exact ⟨_, dispatched.setPhase { fits with phase := True.intro }⟩
  | abandoned =>
    exact ⟨sent, dispatched.cancel.setPhase { fits with phase := True.intro }⟩
  | unfound =>
    exact ⟨sent, (dispatched.fail _).setPhase { fits with phase := True.intro }⟩
  | @found task settings phase answer present =>
    rw [phase] at phaseFits
    have answered := fits.answered settings answer
    exact ⟨sent, dispatched.setPhase
      { fits with phase := ⟨dispatched.task task present, Nat.le_antisymm phaseFits answered⟩ }⟩
  | @announced request phase answer =>
    rw [phase] at phaseFits
    obtain rfl := Nat.le_antisymm phaseFits (fits.accepted answer)
    by_cases registered : request.requesterId ∈ broker.requesters
    · refine ⟨2, dispatched.send rfl
        ⟨fits.runner, fun _ => Nat.le_succ 1, fun _ _ => le_refl 2, le_refl 2⟩ ?_ rfl ?_⟩
      · rintro task ⟨⟩
        exact fits.runner
      · simp [registered, handOver]
    · refine ⟨1, dispatched.send rfl { fits with phase := Nat.le_succ 1 } ?_ rfl ?_⟩
      · rintro task ⟨⟩
        exact fits.runner
      · simp [registered]
  | lost =>
    refine ⟨sent, dispatched.send rfl { fits with phase := True.intro } ?_ (append_nil _).symm
      (append_nil _)⟩
    rintro task ⟨⟩
    exact fits.runner
  | @forwarded other settings task phase present =>
    rw [phase] at phaseFits
    obtain ⟨rfl, rfl⟩ := phaseFits
    have its := dispatched.task task present
    by_cases known : other ∈ view.known
    · refine ⟨3, dispatched.send rfl
        ⟨fits.runner, fun _ => by decide, fun _ _ => by decide, True.intro⟩ ?_ rfl ?_⟩
      · rintro _ ⟨⟩
        exact its
      · simp [known, handOver]
    · refine ⟨2, dispatched.send rfl { fits with phase := True.intro } ?_ rfl ?_⟩
      · rintro _ ⟨⟩
        exact its
      · simp [known]

theorem taskMove {broker : TaskBroker} {taskId : TaskId} {event : BrokerEvent}
    (dispatched : view.Dispatched runnerId sent)
    (move : TaskMove broker taskId view event after) :
    ∃ runnerId sent, after.Dispatched runnerId sent := by
  cases move with
  | drawn offer requestId arrival undrawn =>
    obtain ⟨noTask, noMarks⟩ := dispatched.undrawn undrawn
    have fresh : view.Dispatched offer.runnerId 0 := .of_undrawn noTask noMarks undrawn
    by_cases known : offer.runnerId ∈ view.known
    · refine ⟨_, 1, fresh.send rfl ⟨rfl, fun _ => le_refl 1, nofun, le_refl 1⟩ fresh.task rfl ?_⟩
      simp [known, handOver]
    · refine ⟨_, 0, fresh.send rfl ⟨rfl, nofun, nofun, Nat.zero_le 1⟩ fresh.task rfl ?_⟩
      simp [known]
  | connected | timeoutFailed | completionFailed | disconnected =>
    exact ⟨runnerId, sent, { dispatched with }⟩
  | completionResumed =>
    exact ⟨runnerId, sent, { dispatched with
      task := fun task found => by cases found
      undrawn := fun undrawn => ⟨rfl, (dispatched.undrawn undrawn).2⟩ }⟩
  | accepted known asked =>
    have early : 0 < sent := dispatched.lt_of_mem rfl asked fun count few => by
      simp [Nat.le_zero.mp few]
    exact ⟨_, _, { dispatched.answerRunner fun _ => early with }⟩
  | refused answer refusal =>
    exact ⟨_, _, dispatched.answerRunner fun same => absurd same refusal⟩
  | runnerTimeout found =>
    refine ⟨_, _, dispatched.other
      (fun call => { call with runnerTimer := false }.settleRunner .timedOut) ?_ ?_
      (fun task found => ⟨task, found, rfl⟩) (append_nil _).symm nofun fun _ => rfl⟩
    · simp [TaskView.settleRunner, found]
    · intro call _ fits
      have stopped : { call with runnerTimer := false }.Fits runnerId sent := { fits with }
      exact stopped.settleRunner (by simp)
  | requesterTimeout found =>
    refine ⟨_, _, dispatched.other
      (fun call => { call with requesterTimer := false }.settleRequester .timedOut) ?_ ?_
      (fun task found => ⟨task, found, rfl⟩) (append_nil _).symm nofun fun _ => rfl⟩
    · simp [TaskView.settleRequester, found]
    · intro call _ fits
      have stopped : { call with requesterTimer := false }.Fits runnerId sent := { fits with }
      exact stopped.settleRequester (by simp)
  | requesterAnswered answer told =>
    have ready := dispatched.ready_lt told
    exact ⟨_, _, dispatched.other (·.settleRequester answer) rfl
      (fun _ _ fits => fits.settleRequester fun _ _ => ready)
      (fun task found => ⟨task, found, rfl⟩) (append_nil _).symm nofun fun _ => rfl⟩
  | done | error | timedOut => exact ⟨_, _, dispatched.complete _⟩
  | @timingOut task found timer =>
    refine ⟨_, _, dispatched.other id Option.map_id'.symm (fun _ _ fits => fits) ?_ rfl ?_ ?_⟩
    · rintro _ ⟨⟩
      exact ⟨task, found, rfl⟩
    · split
      · simpa [TaskMark.handsOver] using dispatched.task task found
      · simp
    · intro undrawn
      cases found.symm.trans (dispatched.undrawn undrawn).1
  | timeoutResumed => exact ⟨_, _, { dispatched.complete _ with }⟩
  | cancelled reason told =>
    refine ⟨_, _, dispatched.cancel.other id Option.map_id'.symm (fun _ _ fits => fits)
      (fun task found => ⟨task, found, rfl⟩) rfl (by simp [TaskMark.handsOver]) ?_⟩
    intro undrawn
    rw [(dispatched.undrawn undrawn).2] at told
    cases told
  | failed => exact ⟨_, _, dispatched.fail _⟩
  | @dropped _ other _ reason =>
    have left : (view.disconnect other).Dispatched runnerId sent := { dispatched with }
    exact ⟨_, _, (left.fail broker.requesters).answerRunner (by simp)⟩
  | resumed fails found move => exact ⟨runnerId, dispatched.acceptMove found move⟩

end TaskView.Dispatched

/-- In every run the messages that hand over a task are sent in their order and
at most once, to one runner. -/
theorem handedOver_of_run (mode : RunnerMode) (events : List BrokerEvent) :
    step.Always HandedOver { mode := mode } events := by
  let IsDispatched (view : TaskView) := ∃ runnerId sent, view.Dispatched runnerId sent
  have moves (broker : TaskBroker) (event : BrokerEvent) (taskId : TaskId) (after : TaskView)
      (holds : IsDispatched (broker.taskView taskId)) (_ : True)
      (move : TaskMove broker taskId (broker.taskView taskId) event after) :
      IsDispatched after := by
    obtain ⟨_, _, dispatched⟩ := holds
    exact dispatched.taskMove move
  refine always_of_taskMove moves ?_ ?_ (Machine.meets_of_forall (fun _ _ => True.intro) _ _)
  · intro broker dispatched taskId
    obtain ⟨runnerId, sent, dispatched⟩ := dispatched taskId
    exact ⟨runnerId, dispatched.handed ▸ take_prefix _ _, dispatched.cancels⟩
  · exact fun taskId => ⟨"", 0, .of_undrawn rfl rfl rfl⟩

end HandOver

end TaskBroker

end N8n
