import N8n.TaskBroker.TaskMove

/-!
# The handshake about a task

Runner, broker and requester agree on a task in three steps: the runner accepts
it, the requester is told, and the requester's settings go to the runner.  As
long as each answer arrives in time, no runner is left with a task that nobody
told it about again.
-/

namespace N8n

namespace TaskBroker

/-- The runner heard about the task after it accepted it. -/
def TaskView.Handled (view : TaskView) (runnerId : String) : Prop :=
  .ready ∈ view.marks ∧ .settings runnerId ∈ view.marks ∨ .cancelSent runnerId ∈ view.marks

/-- The entry of a task whose runner accepted it, is connected and was told
what to do, and whose requester was told about it. -/
structure TaskView.Served (view : TaskView) (task : Task) : Prop where
  accepted : ∃ call, view.call = some call ∧
    call.offer.runnerId = task.runnerId ∧ call.runnerAnswer = .accepted
  known : task.runnerId ∈ view.known
  ready : .ready ∈ view.marks
  handled : view.Handled task.runnerId

def Resting (broker : TaskBroker) : Prop :=
  ∀ call ∈ broker.accepts.values, call.phase = .ended

/-- Nothing is suspended, and no timer is set. -/
structure Quiescent (broker : TaskBroker) : Prop where
  resting : broker.Resting
  acceptTimers : ∀ call ∈ broker.accepts.values,
    call.runnerTimer = false ∧ call.requesterTimer = false
  requestTimers : ∀ request ∈ broker.requests.values, request.timeout = false
  taskTimers : ∀ task ∈ broker.tasks.values, task.timeout = false
  completing : broker.completing = []
  timingOut : broker.timingOut = []

/-- Every task that a connected runner accepted was handled, and there are no
other entries. -/
structure NoOrphan (broker : TaskBroker) : Prop where
  accepted : ∀ entry ∈ broker.accepted, (broker.taskView entry.2).Handled entry.1
  tasks : ∀ entry ∈ broker.tasks.entries, (broker.taskView entry.1).Served entry.2

/-- Answers come in time: runners accept before the call gave up on them, the
request still waits when the call goes on, and runners report the end of a task
only behind its settings. -/
def InTime (broker : TaskBroker) : BrokerEvent → Prop
  | .taskaccepted _ taskId => ∀ call, broker.accepts.get? taskId = some call →
        call.runnerAnswer = .pending ∧ call.phase ≠ .ended
  | .acceptResumes taskId fails => ∀ call, broker.accepts.get? taskId = some call →
      call.runnerAnswer = .accepted → (call.phase = .messagingRunner → fails = false) ∧
        (call.phase = .awaitingRunner → call.requestId ∈ broker.pendingTaskRequests)
  | .taskdone _ taskId _ | .taskerror _ taskId _ => ∀ call, broker.accepts.get? taskId = some call →
      broker.tasks.has taskId = true → call.phase = .sendingSettings ∨ call.phase = .ended
  | _ => True

/-- How far a call of `acceptOffer` is: it asks the runner, has entered the
task, or is over. -/
inductive AcceptStage where
  | asking
  | entered
  | closed

def AcceptPhase.stage : AcceptPhase → AcceptStage
  | .messagingRunner | .awaitingRunner => .asking
  | .messagingRequester | .awaitingRequester | .findingRunner _ _ => .entered
  | .failingTask | .sendingSettings | .cancelling | .ended => .closed

/-- A task that no call has drawn. -/
structure TaskView.Undrawn (view : TaskView) : Prop where
  task : view.task = none
  live : view.live = []
  marks : view.marks = []
  completing : view.completing = false
  timingOut : view.timingOut = false

/-- A task whose call is under way, or over. -/
structure TaskView.Underway (view : TaskView) (call : AcceptCall) : Prop where
  asked : ∀ runnerId, .asked runnerId ∈ view.marks → runnerId = call.offer.runnerId
  live : ∀ runnerId ∈ view.live, runnerId = call.offer.runnerId ∧
    runnerId ∈ view.known ∧ call.runnerAnswer = .accepted
  entry : ∀ task, view.task = some task →
    task.runnerId = call.offer.runnerId ∧ call.runnerAnswer = .accepted
  answered : ∀ settings, call.requesterAnswer = .settings settings → .ready ∈ view.marks
  pending : call.runnerAnswer = .pending → view.awaits = true ∧
    (call.phase.stage = .asking ∨ call.phase = .ended)
  asking : call.phase.stage = .asking → view.task = none ∧
    ∀ mark ∈ view.marks, ∃ runnerId, mark = .asked runnerId
  idle : call.phase.stage ≠ .closed → view.completing = false ∧ view.timingOut = false ∧
    ∀ task, view.task = some task → task.timeout = false
  entered : call.phase.stage = .entered → ∀ runnerId ∈ view.live,
    view.task.isSome = true ∨ .cancelSent runnerId ∈ view.marks
  finding : ∀ runnerId settings, call.phase = .findingRunner runnerId settings →
      .ready ∈ view.marks ∧ (view.task.isSome = true →
        runnerId = call.offer.runnerId ∧ runnerId ∈ view.known)
  handled : call.phase.stage = .closed → ∀ runnerId ∈ view.live, view.Handled runnerId
  served : call.phase.stage = .closed → ∀ task, view.task = some task →
    task.runnerId ∈ view.known ∧ .ready ∈ view.marks ∧ .settings task.runnerId ∈ view.marks

/-- What holds of a task in a run of answers that come in time. -/
def TaskView.Sound (view : TaskView) : Prop :=
  match view.call with
  | none => view.Undrawn
  | some call => view.Underway call

section Underway

variable {view after : TaskView} {call : AcceptCall} {runnerId : String}

theorem TaskView.Handled.mono (handled : view.Handled runnerId)
    (marks : ∀ mark ∈ view.marks, mark ∈ after.marks) :
    after.Handled runnerId := by
  apply handled.imp
  · exact fun both => ⟨marks _ both.1, marks _ both.2⟩
  · exact fun sent => marks _ sent

theorem TaskView.Underway.extend (underway : view.Underway call) {marks : List TaskMark}
    (known : ∀ runnerId ∈ view.known, runnerId ∈ after.known)
    (live : after.live = view.live) (awaits : after.awaits = view.awaits)
    (appended : after.marks = view.marks ++ marks)
    (silent : ∀ runnerId, .asked runnerId ∉ marks)
    (asking : view.task = none → call.phase.stage = .asking → marks = [])
    (entry : ∀ task, after.task = some task → ∃ old, view.task = some old ∧
      task.runnerId = old.runnerId ∧
      (task.timeout = true → old.timeout = true))
    (idle : call.phase.stage ≠ .closed → after.completing = view.completing ∧
      after.timingOut = view.timingOut)
    (entered : call.phase.stage = .entered → view.task.isSome = true →
      ∀ runnerId ∈ view.live, after.task.isSome = true ∨ .cancelSent runnerId ∈ after.marks) :
    after.Underway call := by
  have kept : ∀ mark ∈ view.marks, mark ∈ after.marks := by
    intro mark mem
    rw [appended]
    exact List.mem_append_left _ mem
  constructor
  · intro runnerId mem
    rw [appended] at mem
    rcases List.mem_append.mp mem with before | now
    · exact underway.asked runnerId before
    · exact absurd now (silent runnerId)
  · intro runnerId mem
    rw [live] at mem
    obtain ⟨its, wasKnown, accepted⟩ := underway.live runnerId mem
    exact ⟨its, known _ wasKnown, accepted⟩
  · intro task found
    obtain ⟨old, wasFound, same, _⟩ := entry task found
    rw [same]
    exact underway.entry old wasFound
  · exact fun settings answer => kept _ (underway.answered settings answer)
  · rw [awaits]
    exact underway.pending
  · intro isAsking
    obtain ⟨absent, asked⟩ := underway.asking isAsking
    constructor
    · cases found : after.task with
      | none => rfl
      | some task =>
        obtain ⟨old, wasFound, _⟩ := entry task found
        cases absent.symm.trans wasFound
    · rw [appended, asking absent isAsking, List.append_nil]
      exact asked
  · intro notOver
    obtain ⟨completing, timingOut, timer⟩ := underway.idle notOver
    obtain ⟨sameCompleting, sameTimingOut⟩ := idle notOver
    refine ⟨sameCompleting.trans completing, sameTimingOut.trans timingOut, ?_⟩
    intro task found
    obtain ⟨old, wasFound, _, timeout⟩ := entry task found
    rw [← Bool.not_eq_true]
    intro isSet
    rw [timer old wasFound] at timeout
    cases timeout isSet
  · intro isEntered runnerId mem
    rw [live] at mem
    rcases underway.entered isEntered runnerId mem with present | sent
    · exact entered isEntered present runnerId mem
    · exact .inr (kept _ sent)
  · intro runnerId settings phase
    obtain ⟨ready, present⟩ := underway.finding runnerId settings phase
    refine ⟨kept _ ready, ?_⟩
    intro isPresent
    obtain ⟨task, found⟩ := Option.isSome_iff_exists.mp isPresent
    obtain ⟨old, wasFound, _⟩ := entry task found
    obtain ⟨its, wasKnown⟩ := present (wasFound ▸ rfl)
    exact ⟨its, known _ wasKnown⟩
  · intro isOver runnerId mem
    rw [live] at mem
    exact (underway.handled isOver runnerId mem).mono kept
  · intro isOver task found
    obtain ⟨old, wasFound, same, _⟩ := entry task found
    obtain ⟨wasKnown, ready, settings⟩ := underway.served isOver old wasFound
    rw [same]
    exact ⟨known _ wasKnown, kept _ ready, kept _ settings⟩

theorem TaskView.Underway.settle (underway : view.Underway call)
    {settled : AcceptCall} (offer : settled.offer = call.offer)
    (phase : settled.phase = call.phase)
    (answer : settled.runnerAnswer = call.runnerAnswer ∨
      call.runnerAnswer = .pending ∧ settled.runnerAnswer ≠ .pending)
    (answered : ∀ settings, settled.requesterAnswer = .settings settings → .ready ∈ view.marks)
    {awaits : Bool} (waits : settled.runnerAnswer = .pending → awaits = view.awaits)
    (other : Option AcceptCall) :
    { view with
      call := other
      awaits := awaits }.Underway settled := by
  have accepted : call.runnerAnswer = .accepted → settled.runnerAnswer = .accepted := by
    intro isAccepted
    rcases answer with same | ⟨pending, _⟩
    · exact same.trans isAccepted
    · rw [isAccepted] at pending
      cases pending
  constructor
  · rw [offer]
    exact underway.asked
  · rw [offer]
    intro runnerId mem
    obtain ⟨its, known, isAccepted⟩ := underway.live runnerId mem
    exact ⟨its, known, accepted isAccepted⟩
  · rw [offer]
    intro task found
    obtain ⟨its, isAccepted⟩ := underway.entry task found
    exact ⟨its, accepted isAccepted⟩
  · exact answered
  · intro isPending
    rw [phase]
    rcases answer with same | ⟨_, moved⟩
    · obtain ⟨wasAwaiting, stage⟩ := underway.pending (same ▸ isPending)
      exact ⟨(waits isPending).trans wasAwaiting, stage⟩
    · exact absurd isPending moved
  · rw [phase]
    exact underway.asking
  · rw [phase]
    exact underway.idle
  · rw [phase]
    exact underway.entered
  · rw [phase, offer]
    exact underway.finding
  · rw [phase]
    exact underway.handled
  · rw [phase]
    exact underway.served

theorem TaskView.Underway.setPhase (underway : view.Underway call)
    {phase : AcceptPhase} (pending : call.runnerAnswer = .pending →
      phase.stage = .asking ∨ phase = .ended)
    (asking : phase.stage = .asking → call.phase.stage = .asking)
    (idle : phase.stage ≠ .closed → call.phase.stage ≠ .closed)
    (entered : phase.stage = .entered → call.phase.stage = .entered)
    (finding : ∀ runnerId settings, phase = .findingRunner runnerId settings →
      .ready ∈ view.marks ∧ (view.task.isSome = true →
        runnerId = call.offer.runnerId ∧ runnerId ∈ view.known))
    (handled : phase.stage = .closed → ∀ runnerId ∈ view.live, view.Handled runnerId)
    (served : phase.stage = .closed → ∀ task, view.task = some task →
      task.runnerId ∈ view.known ∧ .ready ∈ view.marks ∧ .settings task.runnerId ∈ view.marks) :
    (view.setPhase call phase).Underway { call with phase := phase } := by
  constructor
  · exact underway.asked
  · exact underway.live
  · exact underway.entry
  · exact underway.answered
  · exact fun isPending =>
      ⟨(underway.pending isPending).1, pending isPending⟩
  · exact fun isAsking => underway.asking (asking isAsking)
  · exact fun notOver => underway.idle (idle notOver)
  · exact fun isEntered => underway.entered (entered isEntered)
  · exact finding
  · exact handled
  · exact served

theorem TaskView.mem_cancelMarks {mark : TaskMark}
    (mem : mark ∈ view.cancelMarks) : ∃ task, view.task = some task ∧
      task.runnerId ∈ view.known ∧ mark = .cancelSent task.runnerId := by
  simp only [cancelMarks] at mem
  split at mem
  · cases mem
  next task found =>
    split at mem
    next known =>
      exact ⟨task, found, known, List.mem_singleton.mp mem⟩
    · cases mem

theorem TaskView.mem_lastMarks {registered : List String} {mark : TaskMark}
    (mem : mark ∈ view.lastMarks registered) : mark = .completed := by
  simp only [lastMarks] at mem
  split at mem
  · cases mem
  · split at mem
    · exact List.mem_singleton.mp mem
    · cases mem

theorem TaskView.Underway.cancelSent (underway : view.Underway call)
    (present : view.task.isSome = true) (runnerId : String)
    (live : runnerId ∈ view.live) :
    .cancelSent runnerId ∈ view.cancel.marks := by
  obtain ⟨task, found⟩ := Option.isSome_iff_exists.mp present
  obtain ⟨its, known, _⟩ := underway.live runnerId live
  have same : task.runnerId = runnerId := (underway.entry task found).1.trans its.symm
  subst same
  apply List.mem_append_right
  simp [cancelMarks, found, known]

theorem TaskView.Underway.cancel (underway : view.Underway call) : view.cancel.Underway call := by
  refine underway.extend ?_ rfl rfl rfl ?_ ?_ nofun ?_ ?_
  · exact fun _ known => known
  · intro runnerId mem
    obtain ⟨_, _, _, same⟩ := mem_cancelMarks mem
    cases same
  · intro absent _
    simp [cancelMarks, absent]
  · exact fun _ => ⟨rfl, rfl⟩
  · exact fun _ present runnerId live =>
      .inr (underway.cancelSent present runnerId live)

theorem TaskView.Underway.fail (underway : view.Underway call) {task : Task}
    (found : view.task = some task) (unknown : task.runnerId ∉ view.known)
    (registered : List String) :
    view.live = [] ∧ (view.fail registered).Underway call := by
  have dead : view.live = [] := by
    rw [List.eq_nil_iff_forall_not_mem]
    intro runnerId live
    obtain ⟨its, known, _⟩ := underway.live runnerId live
    apply unknown
    rw [(underway.entry task found).1, ← its]
    exact known
  refine ⟨dead, ?_⟩
  refine underway.extend ?_ rfl rfl rfl ?_ ?_ nofun ?_ ?_
  · exact fun _ known => known
  · exact fun _ mem => nomatch mem_lastMarks mem
  · intro absent
    cases absent.symm.trans found
  · exact fun _ => ⟨rfl, rfl⟩
  · intro _ _ runnerId live
    rw [dead] at live
    cases live

theorem TaskView.Underway.complete (underway : view.Underway call)
    (isOver : view.task.isSome = true → call.phase.stage = .closed)
    (registered : List String) :
    (view.complete registered).Underway call := by
  refine underway.extend ?_ rfl rfl rfl ?_ ?_ ?_ ?_ ?_
  · exact fun _ known => known
  · intro _ mem
    cases mem_lastMarks mem
  · intro absent _
    simp [lastMarks, absent]
  · intro task found
    obtain ⟨old, wasFound, rfl⟩ := Option.map_eq_some_iff.mp found
    refine ⟨old, wasFound, rfl, ?_⟩
    intro timeout
    cases timeout
  · intro notOver
    have absent : view.task.isSome = false := by
      rw [← Bool.not_eq_true]
      exact fun present => notOver (isOver present)
    simp [TaskView.complete, absent]
  · intro isEntered present
    rw [isOver present] at isEntered
    cases isEntered

theorem TaskView.Underway.still (underway : view.Underway call)
    (known : ∀ runnerId ∈ view.known, runnerId ∈ after.known)
    (live : after.live = view.live) (awaits : after.awaits = view.awaits)
    (same : after.marks = view.marks)
    (entry : ∀ task, after.task = some task → view.task = some task)
    (idle : call.phase.stage ≠ .closed → after.completing = view.completing ∧
      after.timingOut = view.timingOut)
    (entered : call.phase.stage = .entered → view.task.isSome = true →
      after.task.isSome = true) : after.Underway call := by
  apply underway.extend known live awaits (same.trans (List.append_nil _).symm)
  · exact fun _ => List.not_mem_nil
  · exact fun _ _ => rfl
  · exact fun task found => ⟨task, entry task found, rfl, id⟩
  · exact idle
  · exact fun isEntered present _ _ => .inl (entered isEntered present)

theorem TaskView.Underway.over_of_busy (underway : view.Underway call)
    (busy : view.completing = true ∨ view.timingOut = true ∨
      ∃ task, view.task = some task ∧ task.timeout = true) :
    call.phase.stage = .closed := by
  apply Classical.byContradiction
  intro notOver
  obtain ⟨completing, timingOut, timer⟩ := underway.idle notOver
  rcases busy with busy | busy | ⟨task, found, isSet⟩
  · rw [completing] at busy
    cases busy
  · rw [timingOut] at busy
    cases busy
  · rw [timer task found] at isSet
    cases isSet

section

variable (call : AcceptCall) (answer : RunnerAnswer)

theorem AcceptCall.settleRunner_offer : (call.settleRunner answer).offer = call.offer := by
  simp only [settleRunner]
  split <;> rfl

theorem AcceptCall.settleRunner_phase : (call.settleRunner answer).phase = call.phase := by
  simp only [settleRunner]
  split <;> rfl

theorem AcceptCall.settleRunner_requesterAnswer :
    (call.settleRunner answer).requesterAnswer = call.requesterAnswer := by
  simp only [settleRunner]
  split <;> rfl

end

variable {answer : RunnerAnswer}

theorem AcceptCall.settleRunner_answer (call : AcceptCall) (settles : answer ≠ .pending) :
    (call.settleRunner answer).runnerAnswer ≠ .pending ∧
      ((call.settleRunner answer).runnerAnswer = call.runnerAnswer ∨
        call.runnerAnswer = .pending) := by
  simp only [settleRunner]
  split
  next pending =>
    exact ⟨settles, .inr pending⟩
  next settled =>
    exact ⟨settled, .inl rfl⟩

theorem TaskView.Underway.settleRunner (underway : view.Underway call) (settles : answer ≠ .pending) (timer awaits : Bool)
    (other : Option AcceptCall) :
    { view with
      call := other
      awaits := awaits }.Underway
      ({ call with runnerTimer := timer }.settleRunner answer) := by
  let stopped := { call with runnerTimer := timer }
  obtain ⟨settled, same⟩ := stopped.settleRunner_answer settles
  apply underway.settle
  · exact stopped.settleRunner_offer answer
  · exact stopped.settleRunner_phase answer
  · exact same.imp_right fun pending => ⟨pending, settled⟩
  · rw [AcceptCall.settleRunner_requesterAnswer]
    exact underway.answered
  · exact fun pending => absurd pending settled

theorem TaskView.Underway.answerRunner (underway : view.Underway call)
    (found : view.call = some call)
    (settles : answer ≠ .pending) :
    ∃ next, (view.answerRunner answer).call = some next ∧
      (view.answerRunner answer).Underway next := by
  cases awaits : view.awaits with
  | true =>
    refine ⟨call.settleRunner answer, ?_, ?_⟩
    · simp [TaskView.answerRunner, awaits, found]
    · exact underway.settleRunner settles call.runnerTimer false _
  | false =>
    rw [answerRunner_of_not awaits]
    exact ⟨call, found, underway⟩

theorem TaskView.Underway.settleRequester (underway : view.Underway call) {answer : RequesterAnswer}
    (told : ∀ settings, answer = .settings settings → .ready ∈ view.marks)
    (timer : Bool) (other : Option AcceptCall) :
    { view with call := other }.Underway
      ({ call with requesterTimer := timer }.settleRequester answer) := by
  simp only [AcceptCall.settleRequester]
  split
  · apply underway.settle
    · rfl
    · rfl
    · exact .inl rfl
    · exact told
    · exact fun _ => rfl
  · apply underway.settle
    · rfl
    · rfl
    · exact .inl rfl
    · exact underway.answered
    · exact fun _ => rfl

theorem TaskView.Underway.disconnect (underway : view.Underway call)
    (other : ∀ task, view.task = some task → task.runnerId ≠ runnerId) :
    (view.disconnect runnerId).Underway call := by
  have live : ∀ runner, runner ∈ (view.disconnect runnerId).live →
      runner ∈ view.live ∧ runner ≠ runnerId := by
    intro runner mem
    simpa [TaskView.disconnect] using mem
  have known : ∀ runner, runner ∈ view.known → runner ≠ runnerId →
      runner ∈ (view.disconnect runnerId).known := by
    intro runner mem ne
    simpa [TaskView.disconnect] using ⟨mem, ne⟩
  constructor
  · exact underway.asked
  · intro runner mem
    obtain ⟨wasLive, ne⟩ := live runner mem
    obtain ⟨its, wasKnown, accepted⟩ := underway.live runner wasLive
    exact ⟨its, known runner wasKnown ne, accepted⟩
  · exact underway.entry
  · exact underway.answered
  · exact underway.pending
  · exact underway.asking
  · exact underway.idle
  · exact fun isEntered runner mem =>
      underway.entered isEntered runner (live runner mem).1
  · intro runner settings phase
    obtain ⟨ready, present⟩ := underway.finding runner settings phase
    refine ⟨ready, ?_⟩
    intro isPresent
    obtain ⟨its, wasKnown⟩ := present isPresent
    obtain ⟨task, found⟩ := Option.isSome_iff_exists.mp isPresent
    refine ⟨its, known runner wasKnown ?_⟩
    rw [its, ← (underway.entry task found).1]
    exact other task found
  · exact fun isOver runner mem =>
      underway.handled isOver runner (live runner mem).1
  · intro isOver task found
    obtain ⟨wasKnown, rest⟩ := underway.served isOver task found
    exact ⟨known _ wasKnown (other task found), rest⟩

theorem TaskView.Underway.drop (underway : view.Underway call)
    {task : Task} (found : view.task = some task) (registered : List String) :
    ((view.disconnect task.runnerId).fail registered).Underway call := by
  have dead : ∀ runnerId, runnerId ∉ (view.disconnect task.runnerId).live := by
    intro runnerId mem
    have both : runnerId ∈ view.live ∧ runnerId ≠ task.runnerId := by
      simpa [TaskView.disconnect] using mem
    apply both.2
    rw [(underway.entry task found).1]
    exact (underway.live runnerId both.1).1
  constructor
  · intro runnerId mem
    rcases List.mem_append.mp mem with before | now
    · exact underway.asked runnerId before
    · cases mem_lastMarks now
  · exact fun runnerId live => absurd live (dead runnerId)
  · intro _ none
    cases none
  · exact fun settings answer =>
      List.mem_append_left _ (underway.answered settings answer)
  · exact underway.pending
  · intro isAsking
    cases (underway.asking isAsking).1.symm.trans found
  · intro notOver
    obtain ⟨completing, timingOut, _⟩ := underway.idle notOver
    refine ⟨completing, timingOut, ?_⟩
    intro _ none
    cases none
  · exact fun _ runnerId live => absurd live (dead runnerId)
  · intro runnerId settings phase
    constructor
    · apply List.mem_append_left
      exact (underway.finding runnerId settings phase).1
    · intro present
      cases present
  · exact fun _ runnerId live => absurd live (dead runnerId)
  · intro _ _ none
    cases none

theorem TaskView.Underway.accept (underway : view.Underway call)
    (pending : call.runnerAnswer = .pending) (goesOn : call.phase ≠ .ended)
    (known : runnerId ∈ view.known) (asked : .asked runnerId ∈ view.marks)
    (other : Option AcceptCall) :
    { view with
      call := other
      awaits := false
      live := view.live ++ [runnerId] }.Underway
      { call with runnerAnswer := .accepted } := by
  have asking : call.phase.stage = .asking := (underway.pending pending).2.resolve_right goesOn
  have absent := (underway.asking asking).1
  constructor
  · exact underway.asked
  · intro runner mem
    rcases List.mem_append.mp mem with before | now
    · have accepted := (underway.live runner before).2.2
      rw [pending] at accepted
      cases accepted
    · cases List.mem_singleton.mp now
      exact ⟨underway.asked runnerId asked, known, rfl⟩
  · intro task found
    cases absent.symm.trans found
  · exact underway.answered
  · exact nofun
  · exact underway.asking
  · exact underway.idle
  · intro isEntered
    cases asking.symm.trans isEntered
  · exact underway.finding
  · intro isOver
    cases asking.symm.trans isOver
  · intro isOver
    cases asking.symm.trans isOver

end Underway

section AcceptMoves

variable {broker : TaskBroker} {view after : TaskView} {call : AcceptCall} {fails : Bool}

theorem TaskView.Underway.announce (underway : view.Underway call)
    (phase : call.phase = .awaitingRunner)
    (answer : call.runnerAnswer = .accepted) (request : TaskRequest)
    {marks : List TaskMark} (told : ∀ mark ∈ marks, mark = .ready) :
    ({ view.enter call request with
      call := some { call with
          requesterTimer := true
          phase := .messagingRequester } }.mark marks).Underway
      { call with
        requesterTimer := true
        phase := .messagingRequester } := by
  have stage : call.phase.stage = .asking := by
    rw [phase]
    rfl
  constructor
  · intro runnerId mem
    rcases List.mem_append.mp mem with before | now
    · exact underway.asked runnerId before
    · cases told _ now
  · exact underway.live
  · intro task found
    cases found
    exact ⟨rfl, answer⟩
  · exact fun settings answered =>
      List.mem_append_left _ (underway.answered settings answered)
  · intro pending
    rw [answer] at pending
    cases pending
  · exact nofun
  · intro _
    have notOver : call.phase.stage ≠ .closed := by
      rw [stage]
      exact nofun
    obtain ⟨completing, timingOut, _⟩ := underway.idle notOver
    refine ⟨completing, timingOut, ?_⟩
    intro task found
    cases found
    rfl
  · exact fun _ _ _ => .inl rfl
  · exact nofun
  · exact nofun
  · exact nofun

theorem TaskView.Underway.notPending (underway : view.Underway call)
    (entered : call.phase.stage ≠ .asking) (goesOn : call.phase ≠ .ended) :
    call.runnerAnswer ≠ .pending := by
  intro pending
  exact (underway.pending pending).2.elim entered goesOn

theorem TaskView.Underway.forward (underway : view.Underway call)
    {runnerId settings : String} {task : Task}
    (phase : call.phase = .findingRunner runnerId settings)
    (found : view.task = some task) :
    (({ view with task := some { task with timeout := true } }.mark
      (if runnerId ∈ view.known then [.settings runnerId] else [])).setPhase
        call .sendingSettings).Underway
      { call with phase := .sendingSettings } := by
  obtain ⟨ready, present⟩ := underway.finding runnerId settings phase
  obtain ⟨its, known⟩ := present (found ▸ rfl)
  have sent : .settings runnerId ∈ view.marks ++ if runnerId ∈ view.known then [.settings runnerId]
        else [] := by
    rw [if_pos known]
    exact List.mem_append_right _ List.mem_cons_self
  have answered := underway.notPending (phase ▸ nofun) (phase ▸ nofun)
  constructor
  · intro other mem
    rcases List.mem_append.mp mem with before | now
    · exact underway.asked other before
    · rw [if_pos known] at now
      cases List.mem_singleton.mp now
  · exact underway.live
  · intro other same
    cases same
    exact underway.entry task found
  · exact fun _ _ => List.mem_append_left _ ready
  · exact fun pending => absurd pending answered
  · exact nofun
  · exact fun notOver => absurd rfl notOver
  · exact nofun
  · exact nofun
  · intro _ other live
    rw [(underway.live other live).1, ← its]
    exact .inl ⟨List.mem_append_left _ ready, sent⟩
  · intro _ other same
    cases same
    have runner : task.runnerId = runnerId := (underway.entry task found).1.trans its.symm
    rw [runner]
    exact ⟨known, List.mem_append_left _ ready, sent⟩

theorem TaskView.Underway.closes (underway : view.Underway call)
    {phase : AcceptPhase} (isOver : phase.stage = .closed)
    (pending : call.runnerAnswer = .pending → phase = .ended)
    (handled : ∀ runnerId ∈ view.live, view.Handled runnerId)
    (served : ∀ task, view.task = some task → task.runnerId ∈ view.known ∧ .ready ∈ view.marks ∧
        .settings task.runnerId ∈ view.marks) :
    (view.setPhase call phase).Underway { call with phase := phase } := by
  apply underway.setPhase
  · exact fun isPending => .inr (pending isPending)
  · intro isAsking
    rw [isOver] at isAsking
    cases isAsking
  · exact fun notOver => absurd isOver notOver
  · intro isEntered
    rw [isOver] at isEntered
    cases isEntered
  · intro runnerId settings same
    rw [same] at isOver
    cases isOver
  · exact fun _ => handled
  · exact fun _ => served

theorem TaskView.Underway.acceptMove (underway : view.Underway call)
    (inTime : call.runnerAnswer = .accepted → (call.phase = .messagingRunner → fails = false) ∧
      (call.phase = .awaitingRunner → call.requestId ∈ broker.pendingTaskRequests))
    (move : AcceptMove broker view call fails after) :
    ∃ next, after.call = some next ∧ after.Underway next := by
  cases move with
  | asked phase =>
    refine ⟨_, rfl, ?_⟩
    apply underway.setPhase
    · exact fun _ => .inl rfl
    · exact fun _ => phase ▸ rfl
    · exact fun _ => phase ▸ nofun
    · exact nofun
    · exact nofun
    · exact nofun
    · exact nofun
  | givenUp early =>
    have asking : call.phase.stage = .asking := by
      rcases early with ⟨phase, _⟩ | ⟨phase, _⟩
      · exact phase ▸ rfl
      · exact phase ▸ rfl
    have refused : call.runnerAnswer ≠ .accepted := by
      rcases early with ⟨phase, failure⟩ | ⟨_, refused⟩
      · intro accepted
        have success := (inTime accepted).1 phase
        rw [failure] at success
        cases success
      · exact refused
    refine ⟨_, rfl, ?_⟩
    apply underway.closes rfl
    · exact fun _ => rfl
    · exact fun runnerId live =>
        absurd (underway.live runnerId live).2.2 refused
    · intro task found
      cases (underway.asking asking).1.symm.trans found
  | announced phase answer waits =>
    refine ⟨_, rfl, underway.announce phase answer _ ?_⟩
    intro mark mem
    split at mem
    · exact List.mem_singleton.mp mem
    · cases mem
  | lost phase answer missing =>
    exact absurd ((inTime answer).2 phase) missing
  | told phase =>
    have answered := underway.notPending (phase ▸ nofun) (phase ▸ nofun)
    refine ⟨_, rfl, ?_⟩
    apply underway.setPhase
    · exact fun pending => absurd pending answered
    · exact nofun
    · exact fun _ => phase ▸ nofun
    · exact fun _ => phase ▸ rfl
    · exact nofun
    · exact nofun
    · exact nofun
  | abandoned phase =>
    have answered : call.runnerAnswer ≠ .pending := by
      rcases phase with phase | phase | phase | phase <;>
        exact underway.notPending (phase ▸ nofun) (phase ▸ nofun)
    refine ⟨_, rfl, ?_⟩
    apply underway.cancel.closes rfl
    · exact fun pending => absurd pending answered
    · intro runnerId live
      cases stage : call.phase.stage with
      | asking =>
        rcases phase with phase | phase | phase | phase <;> rw [phase] at stage <;> cases stage
      | entered =>
        rcases underway.cancel.entered stage runnerId live with none | sent
        · cases none
        · exact .inr sent
      | closed => exact underway.cancel.handled stage runnerId live
    · exact nofun
  | @found task settings phase answer present known =>
    have answered := underway.notPending (phase ▸ nofun) (phase ▸ nofun)
    refine ⟨_, rfl, ?_⟩
    apply underway.setPhase
    · exact fun pending => absurd pending answered
    · exact nofun
    · exact fun _ => phase ▸ nofun
    · exact fun _ => phase ▸ rfl
    · intro runnerId _ same
      cases same
      exact ⟨underway.answered settings answer, fun _ => ⟨(underway.entry task present).1, known⟩⟩
    · exact nofun
    · exact nofun
  | unfound phase answer present unknown =>
    have answered := underway.notPending (phase ▸ nofun) (phase ▸ nofun)
    obtain ⟨dead, failed⟩ := underway.fail present unknown broker.requesters
    refine ⟨_, rfl, ?_⟩
    apply failed.closes rfl
    · exact fun pending => absurd pending answered
    · intro runnerId live
      have none : runnerId ∈ view.live := live
      rw [dead] at none
      cases none
    · exact nofun
  | gone phase absent =>
    have stage : call.phase.stage = .entered := phase ▸ rfl
    refine ⟨_, rfl, ?_⟩
    apply underway.closes rfl
    · exact fun _ => rfl
    · intro runnerId live
      rcases underway.entered stage runnerId live with present | sent
      · rw [absent] at present
        cases present
      · exact .inr sent
    · intro task found
      cases absent.symm.trans found
  | forwarded phase present =>
    exact ⟨_, rfl, underway.forward phase present⟩
  | sent phase | finished phase =>
    have stage : call.phase.stage = .closed := phase ▸ rfl
    refine ⟨_, rfl, ?_⟩
    apply underway.closes rfl
    · exact fun _ => rfl
    · exact underway.handled stage
    · exact underway.served stage

end AcceptMoves

section TaskMoves

variable {broker : TaskBroker} {taskId : TaskId} {event : BrokerEvent} {after : TaskView}
  {view : TaskView}

theorem TaskView.sound_of_none (undrawn : view.call = none)
    (holds : view.Undrawn) : view.Sound := by
  rw [Sound, undrawn]
  exact holds

theorem TaskView.sound_of_some {call : AcceptCall}
    (found : view.call = some call) (holds : view.Underway call) :
    view.Sound := by
  rw [Sound, found]
  exact holds

/-- Nothing but a call of `acceptOffer` moves a task that is not drawn. -/
theorem sound_of_undrawn (none : view.call = none) (undrawn : view.Undrawn)
    (move : TaskMove broker taskId view event after) : after.Sound := by
  have silent : ∀ mark, mark ∉ view.marks := by
    intro mark mem
    rw [undrawn.marks] at mem
    cases mem
  cases move with
  | drawn offer requestId arrival none =>
    have asked : ∀ mark ∈ (view.draw offer requestId).marks, mark = .asked offer.runnerId := by
      intro mark mem
      rcases List.mem_append.mp mem with before | now
      · exact absurd before (silent mark)
      · split at now
        · exact List.mem_singleton.mp now
        · cases now
    have notLive : ∀ runnerId, runnerId ∉ view.live := by
      intro runnerId live
      rw [undrawn.live] at live
      cases live
    have noTask : ∀ task, view.task ≠ some task := by
      intro task found
      cases undrawn.task.symm.trans found
    refine TaskView.sound_of_some rfl ?_
    constructor
    · intro runnerId mem
      cases asked _ mem
      rfl
    · exact fun runnerId live => absurd live (notLive runnerId)
    · exact fun task found => absurd found (noTask task)
    · exact nofun
    · exact fun _ => ⟨rfl, .inl rfl⟩
    · exact fun _ => ⟨undrawn.task, fun mark mem => ⟨_, asked mark mem⟩⟩
    · exact fun _ => ⟨undrawn.completing, undrawn.timingOut,
        fun task found => absurd found (noTask task)⟩
    · exact nofun
    · exact nofun
    · exact nofun
    · exact nofun
  | connected runnerId =>
    apply TaskView.sound_of_none
    · exact none
    · exact ⟨undrawn.task, undrawn.live, undrawn.marks, undrawn.completing, undrawn.timingOut⟩
  | accepted known asked => exact absurd asked (silent _)
  | refused answer refusal settles =>
    apply TaskView.sound_of_none
    · exact TaskView.call_answerRunner_of_none none answer
    · exact ⟨undrawn.task, undrawn.live, undrawn.marks, undrawn.completing, undrawn.timingOut⟩
  | runnerTimeout found | requesterTimeout found
  | resumed fails found acceptMove => cases none.symm.trans found
  | requesterAnswered answer told | cancelled reason told => exact absurd told (silent _)
  | done runnerId data | error runnerId error =>
    rw [TaskView.complete_of_none undrawn.task]
    exact TaskView.sound_of_none none undrawn
  | timedOut internal found timer | timingOut found timer
  | failed found unknown | dropped reason found its => cases undrawn.task.symm.trans found
  | timeoutResumed others timingOut | timeoutFailed others timingOut =>
    cases undrawn.timingOut.symm.trans timingOut
  | completionResumed others completing | completionFailed others completing =>
    cases undrawn.completing.symm.trans completing
  | disconnected runnerId error other =>
    apply TaskView.sound_of_none
    · exact none
    · refine ⟨undrawn.task, ?_, undrawn.marks, undrawn.completing, undrawn.timingOut⟩
      simp [TaskView.disconnect, undrawn.live]

theorem underway_taskMove {call : AcceptCall} (found : (broker.taskView taskId).call = some call)
    (underway : (broker.taskView taskId).Underway call)
    (inTime : broker.InTime event)
    (move : TaskMove broker taskId (broker.taskView taskId) event after) :
    ∃ next, after.call = some next ∧ after.Underway next := by
  have reported : (∀ call, broker.accepts.get? taskId = some call → broker.tasks.has taskId = true →
        call.phase = .sendingSettings ∨ call.phase = .ended) →
      (broker.taskView taskId).task.isSome = true →
      call.phase.stage = .closed := by
    intro later present
    rcases later call found present with phase | phase
    · exact phase ▸ rfl
    · exact phase ▸ rfl
  cases move with
  | drawn offer requestId arrival undrawn => cases undrawn.symm.trans found
  | connected runnerId =>
    refine ⟨call, found, ?_⟩
    apply underway.still
    · exact fun _ known => OrderedSet.mem_add.mpr (.inl known)
    · rfl
    · rfl
    · rfl
    · exact fun _ present => present
    · exact fun _ => ⟨rfl, rfl⟩
    · exact fun _ present => present
  | accepted known asked =>
    obtain ⟨pending, goesOn⟩ := inTime call found
    have awaits := (underway.pending pending).1
    refine ⟨{ call with runnerAnswer := .accepted }, ?_, ?_⟩
    · simp [TaskView.answerRunner, awaits, found, AcceptCall.settleRunner, pending]
    · exact underway.accept pending goesOn known asked _
  | refused answer refusal settles => exact underway.answerRunner found settles
  | runnerTimeout present =>
    cases found.symm.trans present
    refine ⟨_, rfl, ?_⟩
    apply underway.settleRunner
    intro same
    cases same
  | requesterTimeout present =>
    cases found.symm.trans present
    refine ⟨_, rfl, ?_⟩
    apply underway.settleRequester
    intro _ same
    cases same
  | requesterAnswered answer told =>
    refine ⟨call.settleRequester answer, ?_, ?_⟩
    · simp [TaskView.settleRequester, found]
    · exact underway.settleRequester (fun _ _ => told) _ _
  | done runnerId data | error runnerId error =>
    exact ⟨call, found, underway.complete (reported inTime) _⟩
  | timedOut internal present timer =>
    have isOver := underway.over_of_busy (.inr (.inr ⟨_, present, timer⟩))
    exact ⟨call, found, underway.complete (fun _ => isOver) _⟩
  | timingOut present timer =>
    have isOver := underway.over_of_busy (.inr (.inr ⟨_, present, timer⟩))
    refine ⟨call, found, ?_⟩
    refine underway.extend (fun _ known => known) rfl rfl rfl ?_ ?_ ?_ ?_ ?_
    · intro runnerId mem
      split at mem
      · cases List.mem_singleton.mp mem
      · cases mem
    · intro absent
      cases absent.symm.trans present
    · intro task same
      cases same
      refine ⟨_, present, rfl, ?_⟩
      intro timeout
      cases timeout
    · exact fun notOver => absurd isOver notOver
    · intro isEntered
      cases isOver.symm.trans isEntered
  | timeoutResumed others timingOut =>
    have isOver := underway.over_of_busy (.inr (.inl timingOut))
    refine ⟨call, found, ?_⟩
    refine TaskView.Underway.complete ?_ (fun _ => isOver) _
    apply underway.still
    · exact fun _ known => known
    · rfl
    · rfl
    · rfl
    · exact fun _ present => present
    · exact fun notOver => absurd isOver notOver
    · exact fun _ present => present
  | timeoutFailed others timingOut =>
    have isOver := underway.over_of_busy (.inr (.inl timingOut))
    refine ⟨call, found, ?_⟩
    apply underway.still
    · exact fun _ known => known
    · rfl
    · rfl
    · rfl
    · exact fun _ present => present
    · exact fun notOver => absurd isOver notOver
    · intro isEntered
      cases isOver.symm.trans isEntered
  | cancelled reason told =>
    refine ⟨call, found, ?_⟩
    refine underway.cancel.extend (fun _ known => known) rfl rfl rfl ?_ ?_ ?_ ?_ ?_
    · intro runnerId mem
      cases List.mem_singleton.mp mem
    · intro _ isAsking
      obtain ⟨runnerId, other⟩ := (underway.asking isAsking).2 _ told
      cases other
    · intro _ none
      cases none
    · exact fun _ => ⟨rfl, rfl⟩
    · intro _ present
      cases present
  | failed present unknown =>
    exact ⟨call, found, (underway.fail present unknown _).2⟩
  | completionResumed others completing =>
    have isOver := underway.over_of_busy (.inl completing)
    refine ⟨call, found, ?_⟩
    apply underway.still
    · exact fun _ known => known
    · rfl
    · rfl
    · rfl
    · intro _ none
      cases none
    · exact fun notOver => absurd isOver notOver
    · intro isEntered
      cases isOver.symm.trans isEntered
  | completionFailed others completing =>
    have isOver := underway.over_of_busy (.inl completing)
    refine ⟨call, found, ?_⟩
    apply underway.still
    · exact fun _ known => known
    · rfl
    · rfl
    · rfl
    · exact fun _ present => present
    · exact fun notOver => absurd isOver notOver
    · intro isEntered
      cases isOver.symm.trans isEntered
  | disconnected runnerId error other =>
    exact ⟨call, found, underway.disconnect other⟩
  | dropped reason present its =>
    subst its
    apply (underway.drop present broker.requesters).answerRunner
    · exact found
    · intro same
      cases same
  | resumed fails present acceptMove =>
    cases found.symm.trans present
    exact underway.acceptMove (inTime call found) acceptMove

theorem sound_taskMove (sound : (broker.taskView taskId).Sound) (inTime : broker.InTime event)
    (move : TaskMove broker taskId (broker.taskView taskId) event after) :
    after.Sound := by
  cases found : (broker.taskView taskId).call with
  | none =>
    rw [TaskView.Sound, found] at sound
    exact sound_of_undrawn found sound move
  | some call =>
    rw [TaskView.Sound, found] at sound
    obtain ⟨next, nextFound, holds⟩ := underway_taskMove found sound inTime move
    exact TaskView.sound_of_some nextFound holds

theorem Resting.closes (resting : broker.Resting) (sound : (broker.taskView taskId).Sound)
    (drawn : (broker.taskView taskId).call ≠ none) :
    ∃ call, (broker.taskView taskId).call = some call ∧
      (broker.taskView taskId).Underway call ∧ call.phase.stage = .closed := by
  obtain ⟨call, found⟩ := Option.ne_none_iff_exists'.mp drawn
  rw [TaskView.Sound, found] at sound
  refine ⟨call, found, sound, ?_⟩
  rw [resting call (OrderedMap.mem_values_of_mem_entries (OrderedMap.get?_eq_some_iff.mp found))]
  rfl

theorem noOrphan_of_sound (sound : ∀ taskId, (broker.taskView taskId).Sound)
    (resting : broker.Resting) : broker.NoOrphan := by
  have drawn : ∀ taskId, (broker.taskView taskId).live ≠ [] ∨ (broker.taskView taskId).task ≠ none →
      (broker.taskView taskId).call ≠ none := by
    intro taskId either none
    have undrawn := sound taskId
    rw [TaskView.Sound, none] at undrawn
    exact either.elim (fun live => live undrawn.live) (fun task => task undrawn.task)
  constructor
  · intro ⟨runnerId, taskId⟩ mem
    have live : runnerId ∈ (broker.taskView taskId).live :=
      List.mem_filterMap.mpr ⟨_, mem, if_pos rfl⟩
    obtain ⟨call, _, underway, isOver⟩ := resting.closes (sound taskId)
      (drawn taskId (.inl (List.ne_nil_of_mem live)))
    exact underway.handled isOver runnerId live
  · intro ⟨taskId, task⟩ mem
    have found : (broker.taskView taskId).task = some task := OrderedMap.get?_eq_some_iff.mpr mem
    obtain ⟨call, drew, underway, isOver⟩ := resting.closes (sound taskId)
      (drawn taskId (.inr (by simp [found])))
    obtain ⟨its, accepted⟩ := underway.entry task found
    obtain ⟨known, ready, settings⟩ := underway.served isOver task found
    exact ⟨⟨call, drew, its.symm, accepted⟩, known, ready, .inl ⟨ready, settings⟩⟩

end TaskMoves

theorem sound_start (mode : RunnerMode) (taskId : TaskId) :
    (taskView { mode := mode } taskId).Sound :=
  TaskView.sound_of_none rfl ⟨rfl, rfl, rfl, rfl, rfl⟩

/-- When no call of `acceptOffer` is suspended, no task is an orphan, in every
state of a run whose answers come in time. -/
theorem noOrphan_of_inTime {mode : RunnerMode} {events : List BrokerEvent}
    (inTime : step.Meets InTime { mode := mode } events) :
    step.Always (fun broker => broker.Resting → broker.NoOrphan) { mode := mode } events := by
  have kept : ∀ (broker : TaskBroker) event taskId after,
      (broker.taskView taskId).Sound → broker.InTime event →
      TaskMove broker taskId (broker.taskView taskId) event after →
      after.Sound :=
    fun _ _ _ _ sound inTime move => sound_taskMove sound inTime move
  have safe : ∀ broker : TaskBroker, (∀ taskId, (broker.taskView taskId).Sound) →
      broker.Resting → broker.NoOrphan :=
    fun _ sound resting => noOrphan_of_sound sound resting
  exact always_of_taskMove kept safe (sound_start mode) inTime

section Example

instance (broker : TaskBroker) : Decidable broker.Resting :=
  inferInstanceAs (Decidable (∀ call ∈ broker.accepts.values, _))

instance (view : TaskView) (runnerId : String) : Decidable (view.Handled runnerId) :=
  inferInstanceAs (Decidable (_ ∨ _))

instance (broker : TaskBroker) (event : BrokerEvent) : Decidable (broker.InTime event) :=
  match event with
  | .taskaccepted _ taskId =>
    inferInstanceAs (Decidable (∀ call ∈ broker.accepts.get? taskId, _))
  | .acceptResumes taskId _ =>
    inferInstanceAs (Decidable (∀ call ∈ broker.accepts.get? taskId, _))
  | .taskdone _ taskId _ | .taskerror _ taskId _ =>
    inferInstanceAs (Decidable (∀ call ∈ broker.accepts.get? taskId, _))
  | .registerRunner _ | .deregisterRunner _ _ | .registerRequester _
  | .deregisterRequester _ | .taskrequest _ _ _ | .taskoffer _ _ _ _
  | .taskrejected _ _ _ | .taskdeferred _ _ | .tasksettings _ _
  | .taskcancel _ _ | .requesterReject _ _ | .response _
  | .requestTimeout _ | .acceptTimeout _ | .requesterTimeout _
  | .taskTimeout _ | .completionResumes _ _ | .timeoutResumes _ _
  | .elapse _ => isTrue True.intro

def cancelledTask : List BrokerEvent :=
  [.registerRunner "runner", .registerRequester "requester",
   .taskrequest "request" "requester" "javascript",
   .taskoffer "runner" "1" "javascript" 5000, .acceptResumes 0 false,
   .taskaccepted "runner" 0, .acceptResumes 0 false, .acceptResumes 0 false,
   .requesterTimeout 0, .acceptResumes 0 false, .acceptResumes 0 false]

theorem noOrphan_cancelledTask : step.Always (fun broker => broker.Resting → broker.NoOrphan) {}
      cancelledTask := by
  apply noOrphan_of_inTime
  decide

def askedTask : List BrokerEvent :=
  [.registerRunner "runner", .registerRequester "requester",
   .taskrequest "request" "requester" "javascript",
   .taskoffer "runner" "1" "javascript" 5000, .acceptResumes 0 false]

def LeavesOrphan (events : List BrokerEvent) : Prop :=
  ∃ last, step.run {} (askedTask ++ events) = some last ∧ last.Quiescent ∧ ¬ last.NoOrphan

/-- The acceptance comes after its timer or after the request has expired, or
the runner reports an error before it has settings. -/
theorem not_noOrphan_acceptedLate : LeavesOrphan [.acceptTimeout 0, .acceptResumes 0 false,
        .taskaccepted "runner" 0, .requestTimeout "request"] ∧
      LeavesOrphan [.requestTimeout "request", .taskaccepted "runner" 0,
        .acceptResumes 0 false, .acceptTimeout 0] ∧
      LeavesOrphan [.taskaccepted "runner" 0, .acceptResumes 0 false,
        .acceptResumes 0 false, .taskerror "runner" 0 "timeout",
        .completionResumes 0 false, .requesterTimeout 0,
        .acceptResumes 0 false, .acceptResumes 0 false,
        .acceptTimeout 0] := by
  have orphaned : ∀ last : TaskBroker, ("runner", 0) ∈ last.accepted →
      ¬ (last.taskView 0).Handled "runner" → ¬ last.NoOrphan :=
    fun last mem orphan none => orphan (none.accepted _ mem)
  refine ⟨?_, ?_, ?_⟩
  · refine ⟨_, rfl, ?_, orphaned _ (by decide) (by decide)⟩
    constructor <;> decide
  · refine ⟨_, rfl, ?_, orphaned _ (by decide) (by decide)⟩
    constructor <;> decide
  · refine ⟨_, rfl, ?_, orphaned _ (by decide) (by decide)⟩
    constructor <;> decide

end Example

end TaskBroker

end N8n
