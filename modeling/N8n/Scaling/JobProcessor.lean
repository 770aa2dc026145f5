import N8n.Library.Machine
import N8n.Library.OrderedMap

/-!
# Jobs of a worker

A worker registers a job when its workflow run has been started, and removes it
when the run has come to an end or is aborted.  An abort that arrives before
finds nothing to cancel, and a run that rejects leaves its entry behind.
-/

namespace N8n

open OrderedMap

/-- What `processJob` awaits.  In the last three phases no run of the workflow
goes on. -/
inductive JobPhase where
  | findsExecution
  | setsRunning
  | loadsStaticData
  | getsBase
  | runs (cancelled : Bool)
  | reportsIssues
  | checksErrors
  | reportsFinish
deriving DecidableEq

/-- A call of `processJob` that has not ended.  `aborted` says that an abort of
the job has been delivered since the call began. -/
structure ProcessJobCall where
  job : String
  loadStaticData : Bool
  phase : JobPhase := .findsExecution
  aborted : Bool := false

/-- The calls by their numbers, and for each registered job the call that
started the run.  `forgotAbort` says that a job has run to normal completion
behind an abort. -/
structure JobProcessor where
  calls : OrderedMap Nat ProcessJobCall := .empty
  nextCall : Nat := 0
  runningJobs : OrderedMap String Nat := .empty
  forgotAbort : Bool := false

inductive ExecutionLookup where
  | fails
  | missing
  | crashed
  | succeeds

/-- How the run of a workflow is started.  With issues it does not start, and
`workflowExecuteAfter` is called in its place. -/
inductive RunStart where
  | fails
  | hasIssues
  | starts

/-- How something ends that `processJob` awaits.  A run that was cancelled has
the status `canceled` however it ends. -/
inductive JobOutcome where
  | executionFound (lookup : ExecutionLookup)
  | runningSet (succeeds : Bool)
  | staticDataLoaded (succeeds : Bool)
  | baseLoaded (start : RunStart)
  | runSettled (resolves : Bool)
  | issuesReported
  | errorsChecked (succeeds : Bool)
  | finishReported

inductive JobEvent where
  | processJob (job : String) (loadStaticData : Bool)
  | settles (call : Nat) (outcome : JobOutcome)
  | abortJob (job : String)

namespace JobPhase

/-- The workflow of the call is not going to complete any more, or it has been
cancelled. -/
def isOver : JobPhase → Bool
  | .runs cancelled => cancelled
  | .reportsIssues | .checksErrors | .reportsFinish => true
  | _ => false

end JobPhase

namespace JobProcessor

section

variable (processor : JobProcessor)

section

variable (id : Nat) (call : ProcessJobCall)

def setPhase (phase : JobPhase) : JobProcessor :=
  { processor with calls := processor.calls.set id { call with phase } }

def endCall : JobProcessor :=
  { processor with calls := processor.calls.delete id }

def processJob (job : String) (loadStaticData : Bool) : JobProcessor :=
  { processor with
    calls := processor.calls.set processor.nextCall { job, loadStaticData }
    nextCall := processor.nextCall + 1 }

def executionFound : ExecutionLookup → JobProcessor
  | .fails | .missing | .crashed => processor.endCall id
  | .succeeds => processor.setPhase id call .setsRunning

variable (succeeds : Bool)

def runningSet : JobProcessor :=
  if !succeeds then processor.endCall id
  else if call.loadStaticData then processor.setPhase id call .loadsStaticData
  else processor.setPhase id call .getsBase

def staticDataLoaded : JobProcessor :=
  if succeeds then processor.setPhase id call .getsBase
  else processor.endCall id

/-- The run is started and registered. -/
def baseLoaded : RunStart → JobProcessor
  | .fails => processor.endCall id
  | .hasIssues => processor.setPhase id call .reportsIssues
  | .starts =>
    { processor.setPhase id call (.runs false) with
      runningJobs := processor.runningJobs.set call.job id }

/-- A run that rejects ends the call at once. -/
def runSettled (cancelled resolves : Bool) : JobProcessor :=
  if resolves then
    { processor.setPhase id call .checksErrors with
      runningJobs := processor.runningJobs.delete call.job
      forgotAbort := processor.forgotAbort || (call.aborted && !cancelled) }
  else processor.endCall id

def errorsChecked : JobProcessor :=
  if succeeds then processor.setPhase id call .reportsFinish
  else processor.endCall id

def stopJob (job : String) : JobProcessor :=
  match processor.runningJobs.get? job with
  | none => processor
  | some id =>
    let stopped := { processor with runningJobs := processor.runningJobs.delete job }
    match processor.calls.get? id with
    | none => stopped
    | some call =>
      if call.phase = .runs false then
        stopped.setPhase id call (.runs true)
      else stopped

/-- The message reaches all calls of the job. -/
def abortJob (job : String) : JobProcessor :=
  { processor with
    calls := processor.calls.mapValues fun call =>
      { call with aborted := call.aborted || call.job = job } }.stopJob job

/-- The call goes on behind what it awaited. -/
def resume : JobPhase → JobOutcome → Option JobProcessor
  | .findsExecution, .executionFound lookup =>
    some (processor.executionFound id call lookup)
  | .setsRunning, .runningSet succeeds =>
    some (processor.runningSet id call succeeds)
  | .loadsStaticData, .staticDataLoaded succeeds =>
    some (processor.staticDataLoaded id call succeeds)
  | .getsBase, .baseLoaded start => some (processor.baseLoaded id call start)
  | .runs cancelled, .runSettled resolves =>
    some (processor.runSettled id call cancelled resolves)
  | .reportsIssues, .issuesReported => some (processor.endCall id)
  | .checksErrors, .errorsChecked succeeds =>
    some (processor.errorsChecked id call succeeds)
  | .reportsFinish, .finishReported => some (processor.endCall id)
  | _, _ => none

end

def step : Machine JobProcessor JobEvent
  | processor, .processJob job loadStaticData =>
    some (processor.processJob job loadStaticData)
  | processor, .settles id outcome =>
    (processor.calls.get? id).bind fun call =>
      processor.resume id call call.phase outcome
  | processor, .abortJob job => some (processor.abortJob job)

def getRunningJobsCount : Nat :=
  processor.runningJobs.size

/-- No aborted job has run to normal completion, only jobs are registered whose
call has not ended, and so the loop of `stopWorker` ends with the calls. -/
structure ForgetsNothing (processor : JobProcessor) : Prop where
  abort : processor.forgotAbort = false
  registry : ∀ job ∈ processor.runningJobs.keys, ∃ call ∈ processor.calls.values, call.job = job
  stops : processor.calls.values = [] → processor.getRunningJobsCount = 0

/-- An abort finds the run of each call of the job, or a call whose run is
over, and a run that rejects has been removed by an abort. -/
def keepsJobs : JobEvent → Bool
  | .abortJob job => processor.calls.entries.all fun (id, call) =>
    call.job ≠ job || call.phase.isOver || processor.runningJobs.get? job = some id
  | .settles id (.runSettled false) => id ∉ processor.runningJobs.values
  | _ => true

def KeepsJobs (event : JobEvent) : Prop :=
  keepsJobs processor event = true

end

instance (processor : JobProcessor) (event : JobEvent) : Decidable (KeepsJobs processor event) :=
  inferInstanceAs (Decidable (_ = _))

variable {processor next : JobProcessor} {id : Nat} {call : ProcessJobCall}

/-- What holds as long as no abort is missed and no entry is left behind. -/
structure Sound (processor : JobProcessor) : Prop where
  registered : ∀ job id, processor.runningJobs.get? job = some id →
    ∃ call, processor.calls.get? id = some call ∧ call.job = job ∧ call.phase = .runs false
  remembered : ∀ id call, processor.calls.get? id = some call →
    call.aborted = true → call.phase.isOver = true
  fresh : ∀ id call, processor.calls.get? id = some call → id < processor.nextCall
  forgotAbort : processor.forgotAbort = false

theorem start_sound : Sound {} := by
  constructor
  · intro job id found
    cases found
  · intro id call found
    cases found
  · intro id call found
    cases found
  · rfl

theorem Sound.forgetsNothing (sound : Sound processor) : ForgetsNothing processor := by
  have registry (job : String) (mem : job ∈ processor.runningJobs.keys) :
      ∃ call ∈ processor.calls.values, call.job = job := by
    obtain ⟨id, found⟩ := Option.isSome_iff_exists.mp (has_iff.mpr mem)
    obtain ⟨call, isCall, same, _⟩ := sound.registered job id found
    have listed := get?_eq_some_iff.mp isCall
    exact ⟨call, List.mem_map.mpr ⟨_, listed, rfl⟩, same⟩
  refine ⟨sound.forgotAbort, registry, fun none => ?_⟩
  apply List.length_eq_zero_iff.mpr
  apply List.eq_nil_iff_forall_not_mem.mpr
  intro entry mem
  obtain ⟨call, listed, _⟩ := registry entry.1 (mem_keys_of_mem_entries mem)
  rw [none] at listed
  cases listed

theorem Sound.not_registered (sound : Sound processor) (found : processor.calls.get? id = some call)
    (notRunning : call.phase ≠ .runs false) (job : String) :
    processor.runningJobs.get? job ≠ some id := by
  intro registered
  obtain ⟨other, isOther, _, running⟩ := sound.registered job id registered
  obtain rfl := Option.some.inj (found.symm.trans isOther)
  exact notRunning running

theorem Sound.setPhase (sound : Sound processor) (found : processor.calls.get? id = some call)
    (notRegistered : ∀ job, processor.runningJobs.get? job ≠ some id)
    {phase : JobPhase} (remembers : call.aborted = true → phase.isOver = true) :
    Sound (processor.setPhase id call phase) := by
  constructor
  · intro job other registered
    obtain ⟨otherCall, isOther, rest⟩ := sound.registered job other registered
    refine ⟨otherCall, ?_, rest⟩
    rw [JobProcessor.setPhase, get?_set_ne]
    · exact isOther
    · rintro rfl
      exact notRegistered job registered
  · intro other otherCall isOther aborted
    rw [JobProcessor.setPhase, get?_set] at isOther
    split at isOther
    · cases isOther
      exact remembers aborted
    · exact sound.remembered other otherCall isOther aborted
  · intro other otherCall isOther
    rw [JobProcessor.setPhase, get?_set] at isOther
    split at isOther
    next same =>
      subst same
      exact sound.fresh id call found
    · exact sound.fresh other otherCall isOther
  · exact sound.forgotAbort

theorem Sound.endCall (sound : Sound processor)
    (notRegistered : ∀ job, processor.runningJobs.get? job ≠ some id) :
    Sound (processor.endCall id) := by
  have kept (other : Nat) (otherCall : ProcessJobCall)
      (isOther : (processor.endCall id).calls.get? other = some otherCall) :
      processor.calls.get? other = some otherCall := by
    rw [JobProcessor.endCall, get?_delete] at isOther
    split at isOther
    · cases isOther
    · exact isOther
  constructor
  · intro job other registered
    obtain ⟨otherCall, isOther, rest⟩ := sound.registered job other registered
    refine ⟨otherCall, ?_, rest⟩
    rw [JobProcessor.endCall, get?_delete, if_neg]
    · exact isOther
    · rintro rfl
      exact notRegistered job registered
  · intro other otherCall isOther
    exact sound.remembered other otherCall (kept other otherCall isOther)
  · intro other otherCall isOther
    exact sound.fresh other otherCall (kept other otherCall isOther)
  · exact sound.forgotAbort

theorem Sound.processJob (sound : Sound processor) (job : String) (loadStaticData : Bool) :
    Sound (processor.processJob job loadStaticData) := by
  constructor
  · intro other id registered
    obtain ⟨call, found, rest⟩ := sound.registered other id registered
    refine ⟨call, ?_, rest⟩
    rw [JobProcessor.processJob, get?_set_ne]
    · exact found
    · exact Nat.ne_of_gt (sound.fresh id call found)
  · intro id call found aborted
    rw [JobProcessor.processJob, get?_set] at found
    split at found
    · cases found
      cases aborted
    · exact sound.remembered id call found aborted
  · intro id call found
    rw [JobProcessor.processJob, get?_set] at found
    change id < processor.nextCall + 1
    split at found
    · omega
    · have before := sound.fresh id call found
      omega
  · exact sound.forgotAbort

theorem Sound.register (sound : Sound processor) (found : processor.calls.get? id = some call)
    (notRunning : call.phase.isOver = false)
    (notStarted : call.phase ≠ .runs false) :
    Sound { processor.setPhase id call (.runs false) with
      runningJobs := processor.runningJobs.set call.job id } := by
  have notAborted : call.aborted = true → (JobPhase.runs false).isOver = true :=
    fun aborted => by
      rw [sound.remembered id call found aborted] at notRunning
      cases notRunning
  have started := sound.setPhase found (sound.not_registered found notStarted) notAborted
  refine ⟨?_, started.remembered, started.fresh, started.forgotAbort⟩
  intro job other registered
  rw [get?_set] at registered
  split at registered
  next same =>
    cases registered
    refine ⟨{ call with phase := .runs false }, ?_, same, rfl⟩
    exact get?_set_self _ _ _
  · exact started.registered job other registered

theorem Sound.unregister (sound : Sound processor) (job : String) : Sound { processor with
      runningJobs := processor.runningJobs.delete job } := by
  refine ⟨?_, sound.remembered, sound.fresh, sound.forgotAbort⟩
  intro other id registered
  rw [get?_delete] at registered
  split at registered
  · cases registered
  · exact sound.registered other id registered

theorem Sound.runSettled (sound : Sound processor)
    (found : processor.calls.get? id = some call) {cancelled resolves : Bool}
    (runs : call.phase = .runs cancelled)
    (keeps : KeepsJobs processor (.settles id (.runSettled resolves))) :
    Sound (processor.runSettled id call cancelled resolves) := by
  cases resolves with
  | false =>
    apply sound.endCall
    intro job registered
    have listed := mem_values_of_mem_entries (get?_eq_some_iff.mp registered)
    exact of_decide_eq_true keeps listed
  | true =>
    have removed := sound.unregister call.job
    have notRegistered (job : String) :
        (processor.runningJobs.delete call.job).get? job ≠ some id := by
      intro registered
      rw [get?_delete] at registered
      split at registered
      · cases registered
      next other =>
        obtain ⟨same, isCall, ofJob, _⟩ := sound.registered job id registered
        obtain rfl := Option.some.inj (found.symm.trans isCall)
        exact other ofJob
    have ended : Sound ({ processor with
        runningJobs := processor.runningJobs.delete call.job }.setPhase id call .checksErrors) :=
      removed.setPhase found notRegistered fun _ => rfl
    refine ⟨ended.registered, ended.remembered, ended.fresh, ?_⟩
    have remembered := sound.remembered id call found
    rw [runs] at remembered
    change (processor.forgotAbort || (call.aborted && !cancelled)) = false
    rw [sound.forgotAbort]
    cases aborted : call.aborted with
    | false => rfl
    | true =>
      have isCancelled : cancelled = true := remembered aborted
      rw [isCancelled]
      rfl

theorem Sound.resume (sound : Sound processor)
    (found : processor.calls.get? id = some call) {outcome : JobOutcome}
    (keeps : KeepsJobs processor (.settles id outcome))
    (resumed : processor.resume id call call.phase outcome = some next) :
    Sound next := by
  have idle := sound.not_registered found
  have remembered := sound.remembered id call found
  cases phase : call.phase with
  | findsExecution =>
    rw [phase] at resumed idle remembered
    have notRegistered := idle nofun
    cases outcome with
    | executionFound lookup =>
      cases resumed
      cases lookup with
      | succeeds => exact sound.setPhase found notRegistered remembered
      | fails | missing | crashed => exact sound.endCall notRegistered
    | _ => cases resumed
  | setsRunning =>
    rw [phase] at resumed idle remembered
    have notRegistered := idle nofun
    cases outcome with
    | runningSet succeeds =>
      cases resumed
      rw [runningSet]
      split
      · exact sound.endCall notRegistered
      · split
        · exact sound.setPhase found notRegistered remembered
        · exact sound.setPhase found notRegistered remembered
    | _ => cases resumed
  | loadsStaticData =>
    rw [phase] at resumed idle remembered
    have notRegistered := idle nofun
    cases outcome with
    | staticDataLoaded succeeds =>
      cases resumed
      rw [staticDataLoaded]
      split
      · exact sound.setPhase found notRegistered remembered
      · exact sound.endCall notRegistered
    | _ => cases resumed
  | getsBase =>
    rw [phase] at resumed idle remembered
    have notRegistered := idle nofun
    cases outcome with
    | baseLoaded start =>
      cases resumed
      cases start with
      | fails => exact sound.endCall notRegistered
      | hasIssues => exact sound.setPhase found notRegistered fun _ => rfl
      | starts =>
        apply sound.register found
        · rw [phase]
          rfl
        · rw [phase]
          exact nofun
    | _ => cases resumed
  | runs cancelled =>
    rw [phase] at resumed
    cases outcome with
    | runSettled resolves =>
      cases resumed
      exact sound.runSettled found phase keeps
    | _ => cases resumed
  | reportsIssues =>
    rw [phase] at resumed idle
    cases outcome with
    | issuesReported =>
      cases resumed
      exact sound.endCall (idle nofun)
    | _ => cases resumed
  | checksErrors =>
    rw [phase] at resumed idle
    have notRegistered := idle nofun
    cases outcome with
    | errorsChecked succeeds =>
      cases resumed
      rw [errorsChecked]
      split
      · exact sound.setPhase found notRegistered fun _ => rfl
      · exact sound.endCall notRegistered
    | _ => cases resumed
  | reportsFinish =>
    rw [phase] at resumed idle
    cases outcome with
    | finishReported =>
      cases resumed
      exact sound.endCall (idle nofun)
    | _ => cases resumed

theorem runningJobs_abortJob (processor : JobProcessor) (job other : String) :
    (processor.abortJob job).runningJobs.get? other =
      if job = other then none else processor.runningJobs.get? other := by
  rw [← get?_delete]
  unfold abortJob stopJob
  split
  next missing =>
    rw [get?_delete]
    split
    next same =>
      rw [← same]
      exact missing
    · rfl
  · split
    · rfl
    · split
      · rfl
      · rfl

variable {job : String}

/-- A call behind an abort is an earlier one that may have been aborted, and
one that was registered is cancelled. -/
theorem get?_abortJob (found : (processor.abortJob job).calls.get? id = some call) :
    ∃ before, processor.calls.get? id = some before ∧
      call.aborted = (before.aborted || before.job = job) ∧
      call.job = before.job ∧
      (call.phase = before.phase ∨ call.phase = .runs true ∧ before.phase = .runs false) ∧
      (processor.runningJobs.get? job = some id →
        before.phase = .runs false → call.phase = .runs true) := by
  have marked {other : Nat} {otherCall : ProcessJobCall}
      (isOther : (processor.calls.mapValues fun call =>
        { call with aborted := call.aborted || call.job = job }).get? other = some otherCall) :
      ∃ before, processor.calls.get? other = some before ∧
        { before with aborted := before.aborted || before.job = job } =
          otherCall := by
    rw [get?_mapValues] at isOther
    exact Option.map_eq_some_iff.mp isOther
  unfold abortJob stopJob at found
  split at found
  next missing =>
    obtain ⟨before, isBefore, rfl⟩ := marked found
    refine ⟨before, isBefore, rfl, rfl, .inl rfl, fun registered => ?_⟩
    cases missing.symm.trans registered
  next stopped registered =>
    split at found
    next missing =>
      obtain ⟨before, isBefore, rfl⟩ := marked found
      refine ⟨before, isBefore, rfl, rfl, .inl rfl, fun same => ?_⟩
      obtain rfl := Option.some.inj (registered.symm.trans same)
      cases missing.symm.trans found
    next stoppedCall isStopped =>
      split at found
      next running =>
        rw [JobProcessor.setPhase, get?_set] at found
        split at found
        next same =>
          subst same
          cases found
          obtain ⟨before, isBefore, rfl⟩ := marked isStopped
          exact ⟨before, isBefore, rfl, rfl, .inr ⟨rfl, running⟩, fun _ _ => rfl⟩
        next ne =>
          obtain ⟨before, isBefore, rfl⟩ := marked found
          refine ⟨before, isBefore, rfl, rfl, .inl rfl, fun same => ?_⟩
          exact absurd (Option.some.inj (registered.symm.trans same)) ne
      next notRunning =>
        obtain ⟨before, isBefore, rfl⟩ := marked found
        refine ⟨before, isBefore, rfl, rfl, .inl rfl, fun same running => ?_⟩
        obtain rfl := Option.some.inj (registered.symm.trans same)
        obtain rfl := Option.some.inj (isStopped.symm.trans found)
        exact absurd running notRunning

@[simp] theorem nextCall_abortJob (processor : JobProcessor) (job : String) :
    (processor.abortJob job).nextCall = processor.nextCall := by
  unfold abortJob stopJob
  split
  · rfl
  · split
    · rfl
    · split
      · rfl
      · rfl

@[simp] theorem forgotAbort_abortJob (processor : JobProcessor) (job : String) :
    (processor.abortJob job).forgotAbort = processor.forgotAbort := by
  unfold abortJob stopJob
  split
  · rfl
  · split
    · rfl
    · split
      · rfl
      · rfl

theorem get?_abortJob_of_ne (found : processor.calls.get? id = some call) (other : call.job ≠ job)
    (notRegistered : processor.runningJobs.get? job ≠ some id) :
    (processor.abortJob job).calls.get? id = some call := by
  have kept : (processor.calls.mapValues fun call =>
      { call with aborted := call.aborted || call.job = job }).get? id = some call := by
    rw [get?_mapValues, found]
    simp [other]
  unfold abortJob stopJob
  split
  · exact kept
  next stopped registered =>
    split
    · exact kept
    · split
      · rw [JobProcessor.setPhase, get?_set_ne]
        · exact kept
        · rintro rfl
          exact notRegistered registered
      · exact kept

theorem Sound.abortJob (sound : Sound processor) (keeps : KeepsJobs processor (.abortJob job)) :
    Sound (processor.abortJob job) := by
  constructor
  · intro other id registered
    rw [runningJobs_abortJob] at registered
    split at registered
    · cases registered
    next ne =>
      obtain ⟨call, found, ofJob, running⟩ := sound.registered other id registered
      refine ⟨call, get?_abortJob_of_ne found ?_ ?_, ofJob, running⟩
      · rw [ofJob]
        exact Ne.symm ne
      · intro twice
        obtain ⟨same, isSame, sameJob, _⟩ := sound.registered job id twice
        obtain rfl := Option.some.inj (found.symm.trans isSame)
        exact ne (sameJob.symm.trans ofJob)
  · intro id call found aborted
    obtain ⟨before, isBefore, marked, _, phase, cancels⟩ := get?_abortJob found
    have overAfter (isOver : before.phase.isOver = true) : call.phase.isOver = true := by
      rcases phase with same | ⟨cancelled, _⟩
      · rw [same]
        exact isOver
      · rw [cancelled]
        rfl
    rw [marked, Bool.or_eq_true, decide_eq_true_eq] at aborted
    rcases aborted with earlier | ofJob
    · exact overAfter (sound.remembered id before isBefore earlier)
    · have listed := get?_eq_some_iff.mp isBefore
      have kept := List.all_eq_true.mp keeps (id, before) listed
      simp only [ofJob, Bool.or_eq_true, decide_eq_true_eq] at kept
      rcases kept with (ne | isOver) | registered
      · exact absurd rfl ne
      · exact overAfter isOver
      · obtain ⟨same, isSame, _, running⟩ := sound.registered job id registered
        obtain rfl := Option.some.inj (isBefore.symm.trans isSame)
        rw [cancels registered running]
        rfl
  · intro id call found
    obtain ⟨before, isBefore, _⟩ := get?_abortJob found
    rw [nextCall_abortJob]
    exact sound.fresh id before isBefore
  · rw [forgotAbort_abortJob]
    exact sound.forgotAbort

theorem Sound.step (sound : Sound processor) {event : JobEvent} (keeps : KeepsJobs processor event)
    (moved : step processor event = some next) : Sound next := by
  cases event with
  | processJob job loadStaticData =>
    cases moved
    exact sound.processJob job loadStaticData
  | settles id outcome =>
    obtain ⟨call, found, resumed⟩ := Option.bind_eq_some_iff.mp moved
    exact sound.resume found keeps resumed
  | abortJob job =>
    cases moved
    exact sound.abortJob keeps

/-- No abort and no job is forgotten in a run in which each abort finds the
started runs of its job and no registered run rejects. -/
theorem forgetsNothing_of_keepsJobs {events : List JobEvent}
    (meets : step.Meets KeepsJobs {} events) :
    step.Always ForgetsNothing {} events :=
  Machine.always_of_meets (fun _ _ _ sound keeps stepped => Sound.step sound keeps stepped)
    (fun _ => Sound.forgetsNothing) start_sound meets

def sampleEvents : List JobEvent :=
  [.processJob "1" false, .settles 0 (.executionFound .succeeds),
    .processJob "2" true, .settles 0 (.runningSet true),
    .settles 0 (.baseLoaded .starts), .settles 1 (.executionFound .succeeds),
    .abortJob "1", .settles 1 (.runningSet true),
    .settles 1 (.staticDataLoaded true), .settles 1 (.baseLoaded .starts),
    .settles 0 (.runSettled false), .settles 1 (.runSettled true),
    .settles 1 (.errorsChecked true), .settles 1 .finishReported]

theorem forgetsNothing_sampleEvents : (step.run {} sampleEvents).isSome = true ∧
      step.Always ForgetsNothing {} sampleEvents :=
  ⟨by decide +kernel, forgetsNothing_of_keepsJobs (by decide +kernel)⟩

def earlyAbort : List JobEvent :=
  [.processJob "1" false, .abortJob "1",
    .settles 0 (.executionFound .succeeds), .settles 0 (.runningSet true),
    .settles 0 (.baseLoaded .starts), .settles 0 (.runSettled true)]

def rejectedRun : List JobEvent :=
  [.processJob "1" false, .settles 0 (.executionFound .succeeds),
    .settles 0 (.runningSet true), .settles 0 (.baseLoaded .starts),
    .settles 0 (.runSettled false)]

theorem abort_and_job_forgotten : ¬ step.Always ForgetsNothing {} earlyAbort ∧
      ¬ step.Always ForgetsNothing {} rejectedRun := by
  constructor
  · intro always
    have forgot := (always earlyAbort List.prefix_rfl _ rfl).abort
    revert forgot
    decide +kernel
  · intro always
    have stops := (always rejectedRun List.prefix_rfl _ rfl).stops
    revert stops
    decide +kernel

end JobProcessor

end N8n
