import N8n.Engine.ProcessRunExecutionData
import N8n.Library.FoldExcept

/-!
# Cancelling an execution

The cancel handler, the end of a successful run and the catch handler all set
the status, and all run the hook `workflowExecuteAfter`.  A run keeps the
cancellation contract when the hook runs once and a run that was cancelled
before its loop ended has the status `canceled`.  It does exactly when the
handlers do not get into each other's way.
-/

namespace N8n

def HookCall.isWorkflowExecuteAfter : HookCall → Bool
  | .workflowExecuteAfter _ => true
  | _ => false

/-- The last hook runs or has run. -/
def RunPhase.finishing : RunPhase → Bool
  | .workflowExecuteAfter _ | .failureHook _ | .failureClosing _
  | .returning _ | .resolved _ => true
  | _ => false

namespace WorkflowExecute

def afterRuns (run : WorkflowExecute) : Nat :=
  run.hooks.countP HookCall.isWorkflowExecuteAfter

/-- The contract of a run that resolves with `result`. -/
structure KeepsContract (run : WorkflowExecute) (result : IRun) : Prop where
  once : run.afterRuns = 1
  canceled : run.canceledInLoop = true → result.status = .canceled

/-- The cancel handler does not run any more when the last hook has begun, the
last hook of a successful run does not fail, a cancelled run does not leave
its loop by an error, and the error of a node that ends the loop of a cancelled
run is a cancellation. -/
def CancelsCleanly (run : WorkflowExecute) (event : RunEvent) : Prop :=
  match event, run.phase with
  | .cancel, phase => phase.finishing = false
  | .rejects _, .workflowExecuteAfter _ => False
  | .resolves, .threw _ => run.aborted = false
  | .resolves, .loopEnded => run.canceledInLoop = true →
      run.executionError.all ExecutionError.isCancellation = true
  | _, _ => True

instance (run : WorkflowExecute) (event : RunEvent) : Decidable (run.CancelsCleanly event) := by
  unfold CancelsCleanly
  split <;> infer_instance

section LoopStep

variable {workflow : Workflow} {additionalData : WorkflowExecuteAdditionalData}
  {run next : WorkflowExecute} {iteration : Iteration}

/-- What the steps of the loop keep. -/
structure Control where
  status : ExecutionStatus
  aborted : Bool
  canceledInLoop : Bool
  afterRuns : Nat

def control (run : WorkflowExecute) : Control :=
  { status := run.status
    aborted := run.aborted
    canceledInLoop := run.canceledInLoop
    afterRuns := run.afterRuns }

/-- A state behind a step of the loop: it is in the loop, or the loop has
ended. -/
structure LoopStep (control : Control) (next : WorkflowExecute) : Prop where
  aborted : next.aborted = control.aborted
  canceledInLoop : next.canceledInLoop = control.canceledInLoop
  afterRuns : next.afterRuns = control.afterRuns
  status : control.status = .canceled → next.status = .canceled
  phase : next.phase.inLoop = true ∨ next.phase = .loopEnded ∨ ∃ error, next.phase = .threw error

variable {control : Control}

theorem LoopStep.of_control (same : next.control = control)
    (phase : next.phase.inLoop = true ∨ next.phase = .loopEnded ∨
      ∃ error, next.phase = .threw error) : LoopStep control next := by
  subst same
  exact
    { aborted := rfl
      canceledInLoop := rfl
      afterRuns := rfl
      status := id
      phase := phase }

theorem loopStep_stays (same : next.control = control)
    (inLoop : next.phase.inLoop = true) : LoopStep control next :=
  .of_control same (.inl inLoop)

theorem loopStep_ends (same : next.control = control)
    (ended : next.phase = .loopEnded) : LoopStep control next :=
  .of_control same (.inr (.inl ended))

theorem loopStep_leaveLoop (same : run.control = control)
    (error : ExecutionError) : LoopStep control (run.leaveLoop error) :=
  .of_control same (.inr (.inr ⟨error, rfl⟩))

theorem loopStep_runHook (same : run.control = control) {hook : HookCall}
    {phase : RunPhase} (other : hook.isWorkflowExecuteAfter = false)
    (inLoop : phase.inLoop = true) :
    LoopStep control (run.runHook hook phase) := by
  apply loopStep_stays
  · rw [← same]
    simp [runHook, WorkflowExecute.control, afterRuns, other]
  · exact inLoop

theorem loopStep_attempt {α : Type} {computation : Engine α}
    {goOn : WorkflowExecute → α → WorkflowExecute} (same : run.control = control)
    (goesOn : ∀ data value, LoopStep control (goOn { run with runExecutionData := data } value)) :
    LoopStep control (run.attempt computation goOn) := by
  rw [attempt]
  cases StateExcept.exec computation run.runExecutionData with
  | mk outcome data =>
    cases outcome with
    | ok value => exact goesOn data value
    | error error =>
      apply loopStep_leaveLoop
      exact same

theorem loopStep_continueIteration (same : run.control = control) :
    LoopStep control (run.continueIteration workflow iteration) := by
  rw [continueIteration]
  split
  · apply loopStep_leaveLoop
    exact same
  · dsimp only
    split
    · apply loopStep_runHook
      · exact same
      · rfl
      · rfl
    · split
      · apply loopStep_runHook
        · exact same
        · rfl
        · rfl
      · apply loopStep_attempt
        · exact same
        · intro data _
          apply loopStep_runHook
          · exact same
          · rfl
          · rfl

theorem loopStep_afterTries (same : run.control = control) :
    LoopStep control (run.afterTries workflow iteration) := by
  rw [afterTries]
  split
  · apply loopStep_runHook
    · exact same
    · rfl
    · rfl
  · apply loopStep_continueIteration
    exact same

theorem loopStep_failIteration (same : run.control = control) :
    LoopStep control (run.failIteration workflow iteration) := by
  rw [failIteration]
  split
  · apply loopStep_continueIteration
    exact same
  · dsimp only
    split
    · apply loopStep_ends
      · exact same
      · rfl
    · apply loopStep_runHook
      · exact same
      · rfl
      · rfl

theorem loopStep_failTry (same : run.control = control) (error : ExecutionError) :
    LoopStep control (run.failTry workflow iteration error) := by
  rw [failTry]
  split
  · apply loopStep_stays
    · exact same
    · split <;> rfl
  · apply loopStep_afterTries
    exact same

theorem loopStep_endTry (same : run.control = control) (nodeSuccessData : Option NodeSuccessData) :
    LoopStep control (run.endTry workflow iteration nodeSuccessData) := by
  rw [endTry]
  split
  · apply loopStep_failTry
    exact same
  next paired _ =>
    have recorded : (if paired.isSome then run.setLastNodeExecuted iteration
        else run).control = control := by
      split <;> exact same
    dsimp only
    generalize (if paired.isSome then run.setLastNodeExecuted iteration
      else run) = kept at recorded
    split
    · apply loopStep_failTry
      exact recorded
    · split
      · apply loopStep_stays
        · exact recorded
        · rfl
      · apply loopStep_afterTries
        exact recorded

theorem loopStep_startTry (same : run.control = control) :
    LoopStep control (run.startTry workflow iteration) := by
  rw [startTry]
  split
  · apply loopStep_stays
    · exact same
    · rfl
  · apply loopStep_endTry
    exact same

theorem loopStep_receiveOutcome (same : run.control = control) (outcome : RunNodeOutcome) :
    LoopStep control (run.receiveOutcome workflow additionalData iteration outcome) := by
  cases outcome with
  | threw error => exact loopStep_failTry same error
  | requested request =>
    simp only [receiveOutcome]
    split
    · apply loopStep_stays
      · exact same
      · rfl
    · apply loopStep_failTry
      exact same
  | returned data closeFunction =>
    simp only [receiveOutcome]
    split
    · apply loopStep_stays
      · exact same
      · rfl
    · split
      · apply loopStep_failTry
        exact same
      · apply loopStep_endTry
        exact same

theorem loopStep_failBeforeLoop (same : run.control = control) (error : ExecutionError) :
    LoopStep control (run.failBeforeLoop error) := by
  rw [failBeforeLoop]
  split
  · apply loopStep_leaveLoop
    exact same
  · apply loopStep_leaveLoop
    exact same

theorem loopStep_startIteration (same : run.control = control) (executionData : IExecuteData) :
    LoopStep control (run.startIteration workflow executionData) := by
  apply loopStep_attempt
  · exact same
  · intro data start
    cases start with
    | skipped | deferred currentExecutionTry =>
      apply loopStep_stays
      · exact same
      · rfl
    | started iteration =>
      dsimp only
      split
      · apply loopStep_startTry
        exact same
      · apply loopStep_runHook
        · exact same
        · rfl
        · rfl

theorem loopStep_loop (now : Nat) :
    LoopStep run.control (run.loop workflow additionalData now) := by
  rw [loop]
  split
  · apply loopStep_ends
    · rfl
    · rfl
  · dsimp only
    split
    · -- the time is over
      exact
        { aborted := rfl
          canceledInLoop := rfl
          afterRuns := rfl
          status := fun _ => rfl
          phase := .inr (.inl rfl) }
    · split
      · apply loopStep_ends
        · rfl
        · rfl
      · apply loopStep_startIteration
        rfl

theorem loopStep_resolve (inLoop : run.phase.inLoop = true)
    (resolved : run.resolve workflow additionalData = some next) :
    LoopStep run.control next := by
  rw [resolve] at resolved
  split at resolved
  · split at resolved
    · cases resolved
      apply loopStep_runHook
      · rfl
      · rfl
      · rfl
    · cases resolved
      apply loopStep_stays
      · rfl
      · rfl
  · cases resolved
    apply loopStep_stays
    · rfl
    · rfl
  · cases resolved
    exact loopStep_startTry rfl
  · cases resolved
    exact loopStep_startTry rfl
  · cases resolved
    apply loopStep_stays
    · rfl
    · rfl
  · cases resolved
    exact loopStep_failIteration rfl
  · cases resolved
    apply loopStep_ends
    · rfl
    · rfl
  · cases resolved
    apply loopStep_ends
    · rfl
    · rfl
  · cases resolved
    apply loopStep_stays
    · rfl
    · rfl
  · cases resolved
    apply loopStep_attempt
    · rfl
    · intro data _
      apply loopStep_stays
      · rfl
      · rfl
  all_goals
    rename_i phase
    simp [phase, RunPhase.inLoop] at inLoop resolved

theorem loopStep_step {event : RunEvent} (inLoop : run.phase.inLoop = true)
    (uncanceled : event ≠ .cancel)
    (moved : step workflow additionalData run event = some next) :
    LoopStep run.control next := by
  cases event with
  | cancel => exact absurd rfl uncanceled
  | loops now =>
    simp only [step] at moved
    split at moved
    · cases moved
      exact loopStep_loop now
    · cases moved
  | tries =>
    simp only [step] at moved
    split at moved
    · cases moved
      exact loopStep_startTry rfl
    · cases moved
  | resolves => exact loopStep_resolve inLoop moved
  | rejects error =>
    simp only [step, reject] at moved
    split at moved
    all_goals first
      | cases moved
        exact loopStep_failBeforeLoop rfl error
      | cases moved
        exact loopStep_leaveLoop rfl error
      | exact loopStep_resolve inLoop moved
      | cases moved
  | nodeEnds call =>
    simp only [step] at moved
    split at moved
    · cases moved
      apply loopStep_receiveOutcome
      rfl
    · cases moved
      apply loopStep_receiveOutcome
      rfl
    · cases moved

end LoopStep

section Contract

variable {workflow : Workflow} {additionalData : WorkflowExecuteAdditionalData}
  {run next : WorkflowExecute}

/-- The hook has run if the cancel handler has. -/
structure Pending (run : WorkflowExecute) : Prop where
  history : run.canceledInLoop = true → run.aborted = true
  once : run.afterRuns = run.aborted.toNat

/-- A run in its loop or at the end of it. -/
structure Looping (run : WorkflowExecute) : Prop extends Pending run where
  stopped : run.aborted = true → run.status = .canceled

/-- The last hook runs.  The run was not cancelled. -/
structure Finishing (run : WorkflowExecute) : Prop where
  alone : run.aborted = false
  history : run.canceledInLoop = false
  once : run.afterRuns = 1

/-- What holds in the phases of a run whose handlers keep apart. -/
def Sound (run : WorkflowExecute) : Prop :=
  match run.phase with
  | .threw _ => run.Pending
  | .closing _ => run.Pending ∧ (run.canceledInLoop = true → run.status = .canceled)
  | .workflowExecuteAfter _ | .failureHook _ | .failureClosing _ =>
    run.Finishing
  | .returning result | .resolved result => run.KeepsContract result
  | _ => run.Looping

theorem sound_of_inLoop (looping : run.Looping) (inLoop : run.phase.inLoop = true) : run.Sound := by
  rw [Sound]
  split
  all_goals first
    | exact looping
    | rename_i phase
      simp [phase, RunPhase.inLoop] at inLoop

theorem Sound.looping (sound : run.Sound) (inLoop : run.phase.inLoop = true) : run.Looping := by
  rw [Sound] at sound
  split at sound
  all_goals first
    | exact sound
    | rename_i phase
      simp [phase, RunPhase.inLoop] at inLoop

theorem LoopStep.sound (loopStep : LoopStep run.control next)
    (looping : run.Looping) : next.Sound := by
  have pending : next.Pending :=
    { history := by
        rw [loopStep.canceledInLoop, loopStep.aborted]
        exact looping.history
      once := by
        rw [loopStep.afterRuns, loopStep.aborted]
        exact looping.once }
  have stopped : next.aborted = true → next.status = .canceled := by
    rw [loopStep.aborted]
    exact fun aborted => loopStep.status (looping.stopped aborted)
  rcases loopStep.phase with inLoop | ended | ⟨error, threw⟩
  · exact sound_of_inLoop ⟨pending, stopped⟩ inLoop
  · rw [Sound, ended]
    exact ⟨pending, stopped⟩
  · rw [Sound, threw]
    exact pending

theorem afterRuns_cancel : run.cancel.afterRuns = run.afterRuns + 1 := by
  simp [cancel, runHook, afterRuns, HookCall.isWorkflowExecuteAfter]

theorem Pending.cancel (pending : run.Pending) (running : run.aborted = false) :
    run.cancel.Pending :=
  { history := fun _ => rfl
    once := by
      rw [afterRuns_cancel, pending.once, running]
      rfl }

theorem sound_cancel (sound : run.Sound) (running : run.aborted = false)
    (unfinished : run.phase.finishing = false) : run.cancel.Sound := by
  have same : run.cancel.phase = run.phase := rfl
  rw [Sound] at sound ⊢
  rw [same]
  split at sound
  · exact sound.cancel running
  · exact ⟨sound.1.cancel running, fun _ => rfl⟩
  all_goals first
    | exact ⟨sound.toPending.cancel running, fun _ => rfl⟩
    | rename_i phase
      simp [phase, RunPhase.finishing] at unfinished

theorem afterRuns_lastHook (result : IRun) (phase : RunPhase) :
    (run.runHook (.workflowExecuteAfter result) phase).afterRuns = run.afterRuns + 1 := by
  simp [runHook, afterRuns, HookCall.isWorkflowExecuteAfter]

theorem Pending.lastHook (pending : run.Pending) (alone : run.aborted = false)
    (result : IRun) (phase : RunPhase) :
    (run.runHook (.workflowExecuteAfter result) phase).Finishing :=
  { alone := alone
    history := by
      rw [← Bool.not_eq_true]
      intro canceled
      have aborted := pending.history canceled
      rw [alone] at aborted
      cases aborted
    once := by
      rw [afterRuns_lastHook, pending.once, alone]
      rfl }

theorem Finishing.returning (finishing : run.Finishing) (result : IRun) :
    Sound { run with phase := .returning result } := by
  refine ⟨finishing.once, ?_⟩
  intro canceled
  rw [finishing.history] at canceled
  cases canceled

theorem sound_finishExecution (pending : run.Pending) (error : Option ExecutionError)
    (canceled : run.canceledInLoop = true → run.status = .canceled) :
    (run.finishExecution error).Sound := by
  rw [finishExecution]
  split
  next aborted =>
    have once : run.afterRuns = 1 := by
      rw [pending.once, show run.aborted = true from aborted]
      rfl
    exact ⟨once, canceled⟩
  next running =>
    apply pending.lastHook
    exact Bool.not_eq_true _ ▸ running

theorem isCancellation_finalError (looping : run.Looping) (canceled : run.canceledInLoop = true)
    (clean : run.executionError.all ExecutionError.isCancellation = true) :
    ∃ error, run.finalError = some error ∧ error.isCancellation = true := by
  have stopped := looping.stopped (looping.history canceled)
  rw [finalError]
  cases failed : run.executionError with
  | none =>
    rw [if_pos ⟨stopped, rfl⟩]
    refine ⟨_, rfl, ?_⟩
    split
    · decide +kernel
    · decide +kernel
  | some error =>
    rw [if_neg (by simp)]
    rw [failed] at clean
    exact ⟨error, rfl, clean⟩

theorem sound_processSuccessExecution (looping : run.Looping) (clean : run.canceledInLoop = true →
      run.executionError.all ExecutionError.isCancellation = true) :
    (run.processSuccessExecution run.finalError).Sound := by
  have canceled : run.canceledInLoop = true →
      successStatus run.finalError run.runExecutionData.waitTill =
        .canceled := by
    intro canceled
    obtain ⟨error, final, isCancellation⟩ :=
      isCancellation_finalError looping canceled (clean canceled)
    rw [final, successStatus, if_pos isCancellation]
  have pending : Pending { run with
        status := successStatus run.finalError run.runExecutionData.waitTill } :=
    ⟨looping.history, looping.once⟩
  rw [processSuccessExecution]
  split
  · exact ⟨⟨pending.history, pending.once⟩, canceled⟩
  · exact sound_finishExecution pending _ canceled

/-- The steps behind the end of the loop. -/
inductive LateStep (run : WorkflowExecute) : RunEvent → WorkflowExecute → Prop where
  | succeeds : run.phase = .loopEnded →
      LateStep run .resolves (run.processSuccessExecution run.finalError)
  | fails {error : ExecutionError} : run.phase = .threw error →
      LateStep run .resolves (run.processFailure error)
  | closed {error : Option ExecutionError} (event : RunEvent) : run.phase = .closing error →
      LateStep run event (run.finishExecution error)
  | hookRan {result : IRun} : run.phase = .workflowExecuteAfter result →
      LateStep run .resolves { run with phase := .returning result }
  | hookFailed {result : IRun} (error : ExecutionError) : run.phase = .workflowExecuteAfter result →
      LateStep run (.rejects error) (run.leaveLoop error)
  | failureClosing {result : IRun} (event : RunEvent) : run.phase = .failureHook result →
      LateStep run event { run with phase := .failureClosing result }
  | failureHookRan {result : IRun} (event : RunEvent) : run.phase = .failureHook result →
      LateStep run event { run with phase := .returning result }
  | failureClosed {result : IRun} (event : RunEvent) : run.phase = .failureClosing result →
      LateStep run event { run with phase := .returning result }
  | returned {result : IRun} : run.phase = .returning result →
      LateStep run .resolves { run with phase := .resolved result }

variable {event : RunEvent}

theorem lateStep_of_step (late : run.phase.inLoop = false) (uncanceled : event ≠ .cancel)
    (moved : step workflow additionalData run event = some next) :
    run.LateStep event next := by
  cases phase : run.phase with
  | loopEnded =>
    cases event with
    | resolves =>
      simp only [step, resolve, phase] at moved
      cases moved
      exact .succeeds phase
    | cancel => exact absurd rfl uncanceled
    | _ => simp [step, reject, phase] at moved
  | threw error =>
    cases event with
    | resolves =>
      simp only [step, resolve, phase] at moved
      cases moved
      exact .fails phase
    | cancel => exact absurd rfl uncanceled
    | _ => simp [step, reject, phase] at moved
  | closing error =>
    cases event with
    | resolves =>
      simp only [step, resolve, phase] at moved
      cases moved
      exact .closed _ phase
    | rejects other =>
      simp only [step, reject, resolve, phase] at moved
      cases moved
      exact .closed _ phase
    | cancel => exact absurd rfl uncanceled
    | _ => simp [step, phase] at moved
  | workflowExecuteAfter result =>
    cases event with
    | resolves =>
      simp only [step, resolve, phase] at moved
      cases moved
      exact .hookRan phase
    | rejects error =>
      simp only [step, reject, phase] at moved
      cases moved
      exact .hookFailed error phase
    | cancel => exact absurd rfl uncanceled
    | _ => simp [step, phase] at moved
  | failureHook result =>
    have settled : ∀ next, run.resolve workflow additionalData = some next →
        run.LateStep event next := by
      intro next resolved
      simp only [resolve, phase] at resolved
      split at resolved
      · cases resolved
        exact .failureClosing _ phase
      · cases resolved
        exact .failureHookRan _ phase
    cases event with
    | resolves => exact settled next moved
    | rejects error =>
      simp only [step, reject, phase] at moved
      exact settled next moved
    | cancel => exact absurd rfl uncanceled
    | _ => simp [step, phase] at moved
  | failureClosing result =>
    cases event with
    | resolves =>
      simp only [step, resolve, phase] at moved
      cases moved
      exact .failureClosed _ phase
    | rejects error =>
      simp only [step, reject, resolve, phase] at moved
      cases moved
      exact .failureClosed _ phase
    | cancel => exact absurd rfl uncanceled
    | _ => simp [step, phase] at moved
  | returning result =>
    cases event with
    | resolves =>
      simp only [step, resolve, phase] at moved
      cases moved
      exact .returned phase
    | cancel => exact absurd rfl uncanceled
    | _ => simp [step, reject, phase] at moved
  | resolved result =>
    cases event with
    | resolves => simp [step, resolve, phase] at moved
    | cancel => exact absurd rfl uncanceled
    | _ => simp [step, reject, phase] at moved
  | _ =>
    rw [phase] at late
    cases late

theorem LateStep.of_threw {error : ExecutionError}
    (late : run.LateStep event next) (threw : run.phase = .threw error) :
    next = run.processFailure error := by
  cases late
  case fails phase =>
    cases threw.symm.trans phase
    rfl
  all_goals
    rename_i phase
    cases threw.symm.trans phase

theorem LateStep.of_closing {error : Option ExecutionError} (late : run.LateStep event next)
    (closing : run.phase = .closing error) :
    next = run.finishExecution error := by
  cases late
  case closed phase =>
    cases closing.symm.trans phase
    rfl
  all_goals
    rename_i phase
    cases closing.symm.trans phase

theorem LateStep.of_returning {result : IRun} (late : run.LateStep event next)
    (returning : run.phase = .returning result ∨ run.phase = .resolved result) :
    next = { run with phase := .resolved result } := by
  cases late
  case returned phase =>
    rw [phase] at returning
    rcases returning with same | other
    · cases same
      rfl
    · cases other
  all_goals
    rename_i phase
    rw [phase] at returning
    rcases returning with other | other
    · cases other
    · cases other

theorem canceled_of_step (moved : step workflow additionalData run .cancel = some next) :
    run.phase.synchronous = false ∧ run.aborted = false ∧
      next = run.cancel := by
  simp only [step] at moved
  split at moved
  · cases moved
  next allowed =>
    cases moved
    simpa using allowed

theorem LateStep.sound (late : run.LateStep event next)
    (sound : run.Sound) (clean : run.CancelsCleanly event) : next.Sound := by
  cases late with
  | succeeds phase =>
    rw [Sound, phase] at sound
    simp only [CancelsCleanly, phase] at clean
    exact sound_processSuccessExecution sound clean
  | fails phase =>
    rw [Sound, phase] at sound
    simp only [CancelsCleanly, phase] at clean
    exact sound.lastHook clean _ _
  | closed _ phase =>
    rw [Sound, phase] at sound
    exact sound_finishExecution sound.1 _ sound.2
  | hookRan phase | failureHookRan _ phase | failureClosed _ phase =>
    rw [Sound, phase] at sound
    exact sound.returning _
  | hookFailed error phase =>
    simp only [CancelsCleanly, phase] at clean
  | failureClosing _ phase =>
    rw [Sound, phase] at sound
    exact ⟨sound.alone, sound.history, sound.once⟩
  | returned phase =>
    rw [Sound, phase] at sound
    exact ⟨sound.once, sound.canceled⟩

theorem sound_step (sound : run.Sound) (clean : run.CancelsCleanly event)
    (moved : step workflow additionalData run event = some next) :
    next.Sound := by
  by_cases uncanceled : event = .cancel
  · subst uncanceled
    obtain ⟨_, running, rfl⟩ := canceled_of_step moved
    exact sound_cancel sound running clean
  · cases inLoop : run.phase.inLoop with
    | true =>
      apply (loopStep_step inLoop uncanceled moved).sound
      exact sound.looping inLoop
    | false => exact (lateStep_of_step inLoop uncanceled moved).sound sound clean

/-- A run that cannot keep the contract any more. -/
inductive Spoiled (run : WorkflowExecute) : Prop where
  | ranTwice (twice : 2 ≤ run.afterRuns)
  | runsAgain {error : ExecutionError} (ran : 1 ≤ run.afterRuns) (threw : run.phase = .threw error)
  | closing {error : Option ExecutionError} (aborted : run.aborted = true)
      (canceled : run.canceledInLoop = true)
      (phase : run.phase = .closing error) (other : run.status ≠ .canceled)
  | returning {result : IRun} (aborted : run.aborted = true) (canceled : run.canceledInLoop = true)
      (phase : run.phase = .returning result ∨ run.phase = .resolved result)
      (other : result.status ≠ .canceled)

theorem Spoiled.not_keepsContract {result : IRun} (spoiled : run.Spoiled)
    (resolved : run.phase = .resolved result) :
    ¬ run.KeepsContract result := by
  intro keeps
  have once := keeps.once
  cases spoiled with
  | ranTwice twice => omega
  | runsAgain ran threw => cases threw.symm.trans resolved
  | closing aborted canceled phase other => cases phase.symm.trans resolved
  | returning aborted canceled phase other =>
    rcases phase with phase | phase
    · cases phase.symm.trans resolved
    · cases phase.symm.trans resolved
      exact other (keeps.canceled canceled)

theorem LateStep.afterRuns_le
    (late : run.LateStep event next) : run.afterRuns ≤ next.afterRuns := by
  have finished : ∀ (run : WorkflowExecute) (error : Option ExecutionError),
      run.afterRuns ≤ (run.finishExecution error).afterRuns := by
    intro run error
    rw [finishExecution]
    split
    · exact Nat.le_refl _
    · rw [afterRuns_lastHook]
      exact Nat.le_succ _
  cases late with
  | succeeds phase =>
    rw [processSuccessExecution]
    dsimp only
    split
    · exact Nat.le_refl _
    · exact finished { run with
          status := successStatus run.finalError run.runExecutionData.waitTill } _
  | fails phase =>
    rw [processFailure, afterRuns_lastHook]
    exact Nat.le_succ _
  | closed _ phase => exact finished _ _
  | hookRan phase | hookFailed error phase | failureClosing _ phase
  | failureHookRan _ phase | failureClosed _ phase | returned phase => exact Nat.le_refl _

theorem afterRuns_le_step (moved : step workflow additionalData run event = some next) :
    run.afterRuns ≤ next.afterRuns := by
  by_cases uncanceled : event = .cancel
  · subst uncanceled
    obtain ⟨_, _, rfl⟩ := canceled_of_step moved
    rw [afterRuns_cancel]
    exact Nat.le_succ _
  · cases inLoop : run.phase.inLoop with
    | true =>
      exact (loopStep_step inLoop uncanceled moved).afterRuns.ge
    | false =>
      exact (lateStep_of_step inLoop uncanceled moved).afterRuns_le

theorem spoiled_finishExecution (aborted : run.aborted = true)
    (canceled : run.canceledInLoop = true) (other : run.status ≠ .canceled)
    (error : Option ExecutionError) : (run.finishExecution error).Spoiled := by
  rw [finishExecution]
  rw [isCancelled, if_pos aborted]
  exact .returning aborted canceled (.inl rfl) other

theorem spoiled_step (spoiled : run.Spoiled)
    (moved : step workflow additionalData run event = some next) :
    next.Spoiled := by
  have uncanceled : run.aborted = true → event ≠ .cancel := by
    intro aborted cancel
    subst cancel
    obtain ⟨_, running, _⟩ := canceled_of_step moved
    rw [aborted] at running
    cases running
  cases spoiled with
  | ranTwice twice =>
    exact .ranTwice (twice.trans (afterRuns_le_step moved))
  | @runsAgain error ran threw =>
    by_cases cancel : event = .cancel
    · subst cancel
      obtain ⟨_, _, rfl⟩ := canceled_of_step moved
      apply Spoiled.ranTwice
      rw [afterRuns_cancel]
      omega
    · have late : run.phase.inLoop = false := threw ▸ rfl
      obtain rfl := (lateStep_of_step late cancel moved).of_threw threw
      apply Spoiled.ranTwice
      rw [processFailure, afterRuns_lastHook]
      omega
  | closing aborted canceled closing other =>
    have late : run.phase.inLoop = false := closing ▸ rfl
    obtain rfl := (lateStep_of_step late (uncanceled aborted) moved).of_closing closing
    exact spoiled_finishExecution aborted canceled other _
  | returning aborted canceled returning other =>
    have late : run.phase.inLoop = false := by
      rcases returning with phase | phase
      · exact phase ▸ rfl
      · exact phase ▸ rfl
    obtain rfl := (lateStep_of_step late (uncanceled aborted) moved).of_returning returning
    exact .returning aborted canceled (.inr rfl) other

theorem Sound.once (sound : run.Sound) (finishing : run.phase.finishing = true) :
    run.afterRuns = 1 := by
  rw [Sound] at sound
  split at sound
  case h_3 => exact Finishing.once sound
  case h_4 => exact Finishing.once sound
  case h_5 => exact Finishing.once sound
  case h_6 => exact KeepsContract.once sound
  case h_7 => exact KeepsContract.once sound
  all_goals simp_all [RunPhase.finishing]

theorem spoiled_processSuccessExecution (looping : run.Looping)
    (canceled : run.canceledInLoop = true)
    (unclean : run.executionError.all ExecutionError.isCancellation ≠ true) :
    (run.processSuccessExecution run.finalError).Spoiled := by
  have aborted := looping.history canceled
  cases failed : run.executionError with
  | none => simp [failed] at unclean
  | some error =>
    have isOther : error.isCancellation ≠ true := by
      simpa [failed] using unclean
    have final : run.finalError = some error := by
      rw [finalError, failed, if_neg (by simp)]
    have other : successStatus run.finalError run.runExecutionData.waitTill ≠ .canceled := by
      rw [final, successStatus, if_neg isOther]
      exact nofun
    rw [processSuccessExecution]
    split
    · exact .closing aborted canceled rfl other
    · apply spoiled_finishExecution
      · exact aborted
      · exact canceled
      · exact other

theorem spoiled_of_unclean (sound : run.Sound)
    (moved : step workflow additionalData run event = some next)
    (unclean : ¬ run.CancelsCleanly event) : next.Spoiled := by
  cases event with
  | cancel =>
    obtain ⟨_, _, rfl⟩ := canceled_of_step moved
    have finishing : run.phase.finishing = true := by
      simpa [CancelsCleanly] using unclean
    apply Spoiled.ranTwice
    rw [afterRuns_cancel, sound.once finishing]
  | resolves =>
    cases phase : run.phase with
    | threw error =>
      have late : run.phase.inLoop = false := phase ▸ rfl
      obtain rfl := (lateStep_of_step late (by simp) moved).of_threw phase
      have aborted : run.aborted = true := by
        simpa [CancelsCleanly, phase] using unclean
      rw [Sound, phase] at sound
      apply Spoiled.ranTwice
      rw [processFailure, afterRuns_lastHook, sound.once, aborted]
      exact Nat.le_refl _
    | loopEnded =>
      simp only [step, resolve, phase, Option.some.injEq] at moved
      subst moved
      simp only [CancelsCleanly, phase, Classical.not_imp] at unclean
      rw [Sound, phase] at sound
      exact spoiled_processSuccessExecution sound unclean.1 unclean.2
    | _ => simp [CancelsCleanly, phase] at unclean
  | rejects error =>
    cases phase : run.phase with
    | workflowExecuteAfter result =>
      simp only [step, reject, phase, Option.some.injEq] at moved
      subst moved
      apply Spoiled.runsAgain
      · have once := sound.once (phase ▸ rfl)
        exact once.ge
      · rfl
    | _ => simp [CancelsCleanly, phase] at unclean
  | loops now | tries | nodeEnds call => simp [CancelsCleanly] at unclean

theorem sound_start {data : RunExecutionData} {start : WorkflowExecute}
    (started : processRunExecutionData data = .ok start) : start.Sound := by
  obtain ⟨state, _, same⟩ := Except.bind_eq_ok_iff.mp started
  cases same
  exact ⟨⟨nofun, rfl⟩, nofun⟩

/-- A run keeps the cancellation contract exactly when its handlers keep
apart. -/
theorem keepsContract_iff_cancelsCleanly {data : RunExecutionData}
    {start last : WorkflowExecute} {events : List RunEvent} {result : IRun}
    (started : processRunExecutionData data = .ok start)
    (reached : (step workflow additionalData).run start events = some last)
    (resolved : last.phase = .resolved result) :
    last.KeepsContract result ↔
      (step workflow additionalData).Meets CancelsCleanly start events := by
  constructor
  · intro keeps
    exact Machine.meets_of_end
      (fun last => last.phase = .resolved result ∧ last.KeepsContract result)
      (fun _ _ _ sound clean stepped => sound_step sound clean stepped)
      (fun _ _ _ sound stepped unclean =>
        spoiled_of_unclean sound stepped unclean)
      (fun _ _ _ spoiled stepped => spoiled_step spoiled stepped)
      (fun _ spoiled ended => spoiled.not_keepsContract ended.1 ended.2)
      (sound_start started) reached ⟨resolved, keeps⟩
  · intro meets
    have sound : last.Sound := Machine.invariant_of_meets Sound
      (fun _ _ _ sound clean stepped => sound_step sound clean stepped)
      (sound_start started) meets reached
    rw [Sound, resolved] at sound
    exact sound

end Contract

namespace Example

def workflow : Workflow :=
  { nodes := Workflow.setNodes [{ name := "Fetch" }]
    connectionsBySourceNode := .empty
    executionOrder := some .v1
    nodes_named := Workflow.setNodes_named _ }

def start : WorkflowExecute :=
  { runExecutionData := { executionData := { nodeExecutionStack :=
              [{ node := { name := "Fetch" }
                 data := .ofMain [.value [INodeExecutionData.blank]]
                 source := none }] } } }

def runsNode : List RunEvent := [.resolves, .resolves, .loops 0, .resolves]

def returnsItem : List RunEvent :=
  [.nodeEnds { outcome := .returned (some [.value [INodeExecutionData.blank]]) false },
    .resolves, .loops 0]

/-- An execution is cancelled while its node runs. -/
theorem keepsContract_cancelledNode : ∃ last result, (step workflow {}).run start
        (runsNode ++ .cancel :: returnsItem ++ [.resolves, .resolves]) = some last ∧
      last.phase = .resolved result ∧ last.KeepsContract result ∧
      result.status = .canceled := by
  have resolves : ((step workflow {}).run start
      (runsNode ++ .cancel :: returnsItem ++ [.resolves, .resolves])).map phase = some (.resolved
          { status := .canceled
            error := some .manualExecutionCancelled }) := by
    decide +kernel
  obtain ⟨last, reached, resolved⟩ := Option.map_eq_some_iff.mp resolves
  refine ⟨last, _, reached, resolved, ?_, rfl⟩
  have started : processRunExecutionData start.runExecutionData = .ok start := rfl
  apply (keepsContract_iff_cancelsCleanly started reached resolved).mpr
  decide +kernel

/-- The run resolves and has broken the contract. -/
def BreaksContract (events : List RunEvent) : Prop :=
  ∃ last result, (step workflow {}).run start events = some last ∧
    last.phase = .resolved result ∧ ¬ last.KeepsContract result

theorem breaksContract_of {events : List RunEvent} (result : IRun) (runs : Nat) (canceled : Bool)
    (observed : ((step workflow {}).run start events).map (fun last =>
      (last.phase, last.afterRuns, last.canceledInLoop)) = some (.resolved result, runs, canceled))
    (broken : runs ≠ 1 ∨ canceled = true ∧ result.status ≠ .canceled) :
    BreaksContract events := by
  obtain ⟨last, reached, same⟩ := Option.map_eq_some_iff.mp observed
  simp only [Prod.mk.injEq] at same
  obtain ⟨resolved, ranTimes, inLoop⟩ := same
  refine ⟨last, result, reached, resolved, ?_⟩
  intro keeps
  rcases broken with several | ⟨wasCanceled, other⟩
  · exact several (ranTimes ▸ keeps.once)
  · exact other (keeps.canceled (inLoop.trans wasCanceled))

def failure : ExecutionError := .node none (some "failure")

/-- The node of a cancelled execution fails, the hook before it fails, the
last hook fails, or the execution is cancelled while its last hook runs. -/
theorem not_keepsContract_failedAfterCancel :
    BreaksContract (runsNode ++ [.cancel, .nodeEnds { outcome := .threw failure },
        .resolves, .resolves, .resolves]) ∧
      BreaksContract [.resolves, .resolves, .loops 0, .cancel,
        .rejects failure, .resolves, .resolves, .resolves] ∧
      BreaksContract (runsNode ++ returnsItem ++ [.resolves, .rejects failure,
        .resolves, .resolves, .resolves]) ∧
      BreaksContract (runsNode ++ returnsItem ++ [.resolves, .cancel, .resolves, .resolves]) := by
  refine ⟨?_, ?_, ?_, ?_⟩
  · apply breaksContract_of
      { status := .error
        error := some failure } 1 true
    · decide +kernel
    · exact .inr ⟨rfl, nofun⟩
  · apply breaksContract_of
      { status := .canceled
        error := some failure } 2 true
    · decide +kernel
    · exact .inl nofun
  · apply breaksContract_of
      { status := .success
        error := some failure } 2 false
    · decide +kernel
    · exact .inl nofun
  · apply breaksContract_of
      { status := .success
        finished := true } 2 false
    · decide +kernel
    · exact .inl nofun

end Example

end WorkflowExecute

end N8n
