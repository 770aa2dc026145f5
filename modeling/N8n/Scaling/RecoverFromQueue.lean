import N8n.Library.Machine
import N8n.Workflow.Interfaces

/-!
# Recovery of executions that are missing in the queue

Recovery reads which executions are in progress, then which of them have a job,
and marks the others as crashed without another look.  Meanwhile mains create
executions and add jobs for them, and workers finish them.
-/

namespace N8n

open List Machine OrderedMap

structure StoredExecution where
  status : ExecutionStatus
  startedAt : Option Nat := none

inductive QueuedJobState where
  | waiting
  | active
deriving DecidableEq

structure QueuedJob where
  id : Nat
  executionId : String
  state : QueuedJobState := .waiting
deriving DecidableEq

structure ExecutionOnMain where
  hostId : String
  executionId : String
deriving DecidableEq

structure QueueRecoveryContext where
  batchSize : Nat
  waitMs : Nat

/-- The access that a call of `recoverFromQueue` waits for, with what it has
read before. -/
inductive RecoveryPhase where
  | readIds
  | readJobs (storedIds : List String)
  | markAsCrashed (danglingIds : List String) (storedCount : Nat)
deriving DecidableEq

/-- The database and the queue.  `toEnqueue` lists the executions for which a
main is going to add a job, and `inMain` those that a main finishes itself.
`crashedLive` says that an execution was marked as crashed that had ended, had
a job, or was to be given one. -/
structure QueuedExecutions where
  executions : OrderedMap String StoredExecution := .empty
  jobs : List QueuedJob := []
  nextJob : Nat := 0
  toEnqueue : List ExecutionOnMain := []
  inMain : List ExecutionOnMain := []
  recoveries : List RecoveryPhase := []
  returned : List Nat := []
  crashedLive : Bool := false

/-- What mains, workers and recovery do. -/
inductive QueuedExecutionsEvent where
  | createExecution (main : ExecutionOnMain) (shouldEnqueue : Bool)
  | resumeExecution (main : ExecutionOnMain) (shouldEnqueue : Bool)
  | addJob (main : ExecutionOnMain) (succeeds : Bool)
  | finishInMain (main : ExecutionOnMain) (status : ExecutionStatus)
  | mainStops (hostId : String)
  | takeJob (job : QueuedJob)
  | jobStalls (job : QueuedJob)
  | setRunning (job : QueuedJob) (now : Nat)
  | saveExecution (job : QueuedJob) (status : ExecutionStatus)
  | removeJob (job : QueuedJob)
  | recoverFromQueue
  | recoveryAccess (phase : RecoveryPhase) (succeeds : Bool)

def ExecutionStatus.hasEnded : ExecutionStatus → Bool
  | .canceled | .crashed | .error | .success => true
  | .new | .running | .unknown | .waiting => false

def ExecutionStatus.isInProgress : ExecutionStatus → Bool
  | .new | .running => true
  | _ => false

def RecoveryPhase.danglingIds : RecoveryPhase → List String
  | .markAsCrashed danglingIds _ => danglingIds
  | _ => []

def RecoveryPhase.readIdsOnly : RecoveryPhase → List String
  | .readIds => []
  | .readJobs storedIds => storedIds
  | .markAsCrashed danglingIds _ => danglingIds

namespace QueuedExecutions

def maxUpdateBatchSize : Nat := 900

/-- Whether an execution comes before another one when they are ordered by
`startedAt`, the last one first.  `nullsFirst` says where the database puts
those without a start. -/
def startsAfter (nullsFirst : Bool) (first second : StoredExecution) : Bool :=
  match first.startedAt, second.startedAt with
  | some start, some other => other ≤ start
  | none, some _ => nullsFirst
  | some _, none => !nullsFirst
  | none, none => true

section

variable (state : QueuedExecutions)

def getInProgressExecutionIds (nullsFirst : Bool) (batchSize : Nat) : List String :=
  let inProgress := state.executions.entries.filter fun entry =>
    entry.2.status.isInProgress
  let ordered := inProgress.insertionSort fun first second =>
    startsAfter nullsFirst first.2 second.2
  (ordered.take batchSize).map Prod.fst

variable (executionId : String)

def hasJob : Bool :=
  state.jobs.any fun job => job.executionId = executionId

def isToBeEnqueued : Bool :=
  state.toEnqueue.any fun main => main.executionId = executionId

def hasEnded (state : QueuedExecutions) (executionId : String) : Bool :=
  (state.executions.get? executionId).any fun execution =>
    execution.status.hasEnded

/-- The execution has ended, or its job is in the queue, or a main is going to
add it. -/
def mustNotCrash : Bool :=
  state.hasEnded executionId || state.hasJob executionId || state.isToBeEnqueued executionId

def update (change : StoredExecution → StoredExecution) : QueuedExecutions :=
  match state.executions.get? executionId with
  | none => state
  | some execution =>
    { state with
      executions := state.executions.set executionId (change execution) }

def setStatus (status : ExecutionStatus) : QueuedExecutions :=
  state.update executionId fun execution => { execution with status }

def crashBatch (batch : List String) : QueuedExecutions :=
  let marked := batch.foldl (fun state executionId =>
    state.setStatus executionId .crashed) state
  { marked with
    crashedLive := state.crashedLive || batch.any state.mustNotCrash }

/-- The main has an execution whose job it adds, or which it runs itself. -/
def startOnMain (main : ExecutionOnMain) (shouldEnqueue : Bool) : QueuedExecutions :=
  if shouldEnqueue then
    { state with toEnqueue := state.toEnqueue ++ [main] }
  else { state with inMain := state.inMain ++ [main] }

def setJobState (job : QueuedJob) (jobState : QueuedJobState) : QueuedExecutions :=
  { state with
    jobs := state.jobs.erase job ++ [{ job with state := jobState }] }

def continueRecovery (phase : RecoveryPhase) : QueuedExecutions :=
  { state with recoveries := state.recoveries ++ [phase] }

def returnFromRecovery (waitMs : Nat) : QueuedExecutions :=
  { state with returned := state.returned ++ [waitMs] }

def recover (context : QueueRecoveryContext) (nullsFirst : Bool)
    (state : QueuedExecutions) : RecoveryPhase → QueuedExecutions
  | .readIds =>
    let storedIds := state.getInProgressExecutionIds nullsFirst context.batchSize
    if storedIds = [] then state.returnFromRecovery context.waitMs
    else state.continueRecovery (.readJobs storedIds)
  | .readJobs storedIds =>
    let danglingIds := storedIds.filter fun id => !state.hasJob id
    if danglingIds = [] then state.returnFromRecovery context.waitMs
    else state.continueRecovery (.markAsCrashed danglingIds storedIds.length)
  | .markAsCrashed danglingIds storedCount =>
    let marked := state.crashBatch (danglingIds.take maxUpdateBatchSize)
    let rest := danglingIds.drop maxUpdateBatchSize
    if rest = [] then
      marked.returnFromRecovery (if context.batchSize ≤ storedCount then context.waitMs / 2
          else context.waitMs)
    else marked.continueRecovery (.markAsCrashed rest storedCount)

def resumeRecovery (phase : RecoveryPhase) : QueuedExecutions :=
  { state with recoveries := state.recoveries.erase phase }

/-- A recovery whose access fails throws.  A main that cannot add the job
finishes the execution with an error. -/
def step (context : QueueRecoveryContext) (nullsFirst : Bool) :
    Machine QueuedExecutions QueuedExecutionsEvent
  | state, .createExecution main shouldEnqueue =>
    if state.executions.has main.executionId then none
    else some ({ state with
      executions := state.executions.set main.executionId
        { status := .new } }.startOnMain main shouldEnqueue)
  | state, .resumeExecution main shouldEnqueue =>
    if (state.executions.get? main.executionId).any fun execution =>
        execution.status = .waiting then
      some ((state.setStatus main.executionId .running).startOnMain main shouldEnqueue)
    else none
  | state, .addJob main succeeds =>
    if main ∈ state.toEnqueue then
      let done := { state with toEnqueue := state.toEnqueue.erase main }
      if succeeds then
        some { done with
          jobs := done.jobs ++ [{ id := done.nextJob, executionId := main.executionId }]
          nextJob := done.nextJob + 1 }
      else some { done with inMain := done.inMain ++ [main] }
    else none
  | state, .finishInMain main status =>
    if main ∈ state.inMain then
      some ({ state with inMain := state.inMain.erase main }.setStatus main.executionId status)
    else none
  | state, .mainStops hostId =>
    some { state with
      toEnqueue := state.toEnqueue.filter fun main => main.hostId ≠ hostId
      inMain := state.inMain.filter fun main => main.hostId ≠ hostId }
  | state, .takeJob job =>
    if job ∈ state.jobs ∧ job.state = .waiting then
      some (state.setJobState job .active)
    else none
  | state, .jobStalls job =>
    if job ∈ state.jobs ∧ job.state = .active then
      some (state.setJobState job .waiting)
    else none
  | state, .setRunning job now =>
    if job ∈ state.jobs ∧ job.state = .active then
      some (state.update job.executionId fun _ =>
        { status := .running, startedAt := some now })
    else none
  | state, .saveExecution job status =>
    if job ∈ state.jobs ∧ job.state = .active then
      some (state.setStatus job.executionId status)
    else none
  | state, .removeJob job =>
    if job ∈ state.jobs then
      some { state with jobs := state.jobs.erase job }
    else none
  | state, .recoverFromQueue => some (state.continueRecovery .readIds)
  | state, .recoveryAccess phase succeeds =>
    if phase ∈ state.recoveries then
      let resumed := state.resumeRecovery phase
      if succeeds then some (recover context nullsFirst resumed phase)
      else some resumed
    else none

def NeverCrashesLive : Prop := state.crashedLive = false

/-- A recovery is going to mark the execution. -/
def isMarked : Bool :=
  state.recoveries.any fun phase => executionId ∈ phase.danglingIds

/-- What was read as in progress and has no job in the queue has not ended and
gets no job any more, and until it is marked no main finishes or resumes it and
no other recovery marks it. -/
def keepsLive : QueuedExecutionsEvent → Bool
  | .recoveryAccess (.readJobs storedIds) true => storedIds.all fun id =>
    state.hasJob id || (!state.hasEnded id && !state.isToBeEnqueued id)
  | .recoveryAccess (.markAsCrashed danglingIds storedCount) true =>
    (danglingIds.take maxUpdateBatchSize).all fun id =>
      !(state.resumeRecovery (.markAsCrashed danglingIds storedCount)).isMarked id
  | .finishInMain main status =>
    !(status.hasEnded && state.isMarked main.executionId)
  | .resumeExecution main shouldEnqueue =>
    !(shouldEnqueue && state.isMarked main.executionId)
  | _ => true

def KeepsLive (event : QueuedExecutionsEvent) : Prop :=
  keepsLive state event = true

end

instance (state : QueuedExecutions) (event : QueuedExecutionsEvent) :
    Decidable (KeepsLive state event) :=
  inferInstanceAs (Decidable (_ = _))

variable {state next : QueuedExecutions} {id : String}

theorem mustNotCrash_eq_false_iff : state.mustNotCrash id = false ↔
    state.hasEnded id = false ∧ state.hasJob id = false ∧ state.isToBeEnqueued id = false := by
  simp [mustNotCrash, and_assoc]

theorem hasJob_eq_false_iff : state.hasJob id = false ↔
    ∀ job ∈ state.jobs, job.executionId ≠ id := by
  simp [hasJob]

theorem isToBeEnqueued_eq_false_iff : state.isToBeEnqueued id = false ↔
    ∀ main ∈ state.toEnqueue, main.executionId ≠ id := by
  simp [isToBeEnqueued]

/-- What is going to be marked exists and may be marked. -/
structure Sound (state : QueuedExecutions) : Prop where
  crashedLive : state.crashedLive = false
  exist : ∀ phase ∈ state.recoveries, ∀ id ∈ phase.readIdsOnly, state.executions.has id = true
  distinct : ∀ phase ∈ state.recoveries, phase.readIdsOnly.Nodup
  dangling : ∀ phase ∈ state.recoveries, ∀ id ∈ phase.danglingIds, state.mustNotCrash id = false

theorem start_sound : Sound {} := by
  constructor
  · rfl
  · simp
  · simp
  · simp

variable {phase : RecoveryPhase}

theorem isMarked_of_mem (mem : phase ∈ state.recoveries) (marked : id ∈ phase.danglingIds) :
    state.isMarked id = true :=
  any_eq_true.mpr ⟨phase, mem, by simpa using marked⟩

theorem Sound.of_isMarked (sound : Sound state) (marked : state.isMarked id = true) :
    state.executions.has id = true ∧ state.mustNotCrash id = false := by
  obtain ⟨phase, mem, dangling⟩ := any_eq_true.mp marked
  have dangling : id ∈ phase.danglingIds := by simpa using dangling
  refine ⟨sound.exist phase mem id ?_, sound.dangling phase mem id dangling⟩
  cases phase with
  | readIds | readJobs storedIds => cases dangling
  | markAsCrashed danglingIds storedCount => exact dangling

theorem Sound.of_steady (sound : Sound state) (recoveries : next.recoveries = state.recoveries)
    (crashedLive : next.crashedLive = state.crashedLive)
    (exist : ∀ id, state.executions.has id = true → next.executions.has id = true)
    (steady : ∀ id, state.isMarked id = true →
      state.executions.has id = true → state.mustNotCrash id = false →
        next.mustNotCrash id = false) : Sound next := by
  constructor
  · exact crashedLive.trans sound.crashedLive
  · rw [recoveries]
    intro phase mem id read
    exact exist id (sound.exist phase mem id read)
  · rw [recoveries]
    exact sound.distinct
  · rw [recoveries]
    intro phase mem id marked
    have isMarked := isMarked_of_mem mem marked
    obtain ⟨has, mayCrash⟩ := sound.of_isMarked isMarked
    exact steady id isMarked has mayCrash

section

variable (state : QueuedExecutions)

theorem update_eq (id : String) (change : StoredExecution → StoredExecution) :
    state.update id change = { state with executions := (state.update id change).executions } := by
  unfold update
  split <;> rfl

section

variable (id other : String) (change : StoredExecution → StoredExecution)

theorem get?_update : (state.update id change).executions.get? other =
      if id = other then (state.executions.get? id).map change
      else state.executions.get? other := by
  unfold update
  cases found : state.executions.get? id with
  | none =>
    by_cases same : id = other
    · subst same
      simp [found]
    · simp [same]
  | some execution =>
    rw [get?_set, Option.map_some]

theorem has_update :
    (state.update id change).executions.has other = state.executions.has other := by
  rw [OrderedMap.has, OrderedMap.has, get?_update]
  by_cases same : id = other
  · subst same
    simp
  · simp [same]

theorem mustNotCrash_update : (state.update id change).mustNotCrash other =
      ((if id = other then (state.executions.get? id).any fun execution =>
          (change execution).status.hasEnded
        else state.hasEnded other) ||
        state.hasJob other || state.isToBeEnqueued other) := by
  have ended : (state.update id change).hasEnded other =
      if id = other then (state.executions.get? id).any fun execution =>
        (change execution).status.hasEnded
      else state.hasEnded other := by
    rw [hasEnded, get?_update]
    split
    · rw [Option.any_map]
    · rfl
  rw [mustNotCrash, ended, update_eq]
  rfl

end

end

/-- A write of an execution that has not ended behind it, or that is not
marked. -/
theorem Sound.update (sound : Sound state) (change : StoredExecution → StoredExecution)
    (steady : state.isMarked id = true → ∀ execution, (change execution).status.hasEnded = false) :
    Sound (state.update id change) := by
  apply sound.of_steady
  · rw [update_eq]
  · rw [update_eq]
  · intro other has
    rw [has_update]
    exact has
  · intro other marked _ mayCrash
    rw [mustNotCrash_update]
    obtain ⟨notEnded, noJob, notToBe⟩ := mustNotCrash_eq_false_iff.mp mayCrash
    rw [noJob, notToBe]
    by_cases same : id = other
    · subst same
      rw [if_pos rfl]
      cases state.executions.get? id with
      | none => rfl
      | some execution => simp [steady marked execution]
    · rw [if_neg same, notEnded]
      rfl

theorem Sound.startOnMain (sound : Sound state) {main : ExecutionOnMain} {shouldEnqueue : Bool}
    (notMarked : shouldEnqueue = true → state.isMarked main.executionId = false) :
    Sound (state.startOnMain main shouldEnqueue) := by
  cases shouldEnqueue with
  | false =>
    refine sound.of_steady rfl rfl ?_ ?_
    · exact fun id has => has
    · exact fun id _ _ mayCrash => mayCrash
  | true =>
    refine sound.of_steady rfl rfl ?_ ?_
    · exact fun id has => has
    · intro id marked _ mayCrash
      obtain ⟨notEnded, noJob, notToBe⟩ := mustNotCrash_eq_false_iff.mp mayCrash
      refine mustNotCrash_eq_false_iff.mpr ⟨notEnded, noJob, ?_⟩
      rw [isToBeEnqueued_eq_false_iff] at notToBe ⊢
      intro other mem
      rcases mem_append.mp mem with old | new
      · exact notToBe other old
      · obtain rfl := mem_singleton.mp new
        rintro rfl
        rw [notMarked rfl] at marked
        cases marked

theorem Sound.of_fewer (sound : Sound state) (executions : next.executions = state.executions)
    (recoveries : next.recoveries = state.recoveries)
    (crashedLive : next.crashedLive = state.crashedLive)
    (jobs : ∀ job ∈ next.jobs, ∃ other ∈ state.jobs, other.executionId = job.executionId)
    (toEnqueue : next.toEnqueue ⊆ state.toEnqueue) : Sound next := by
  apply sound.of_steady recoveries crashedLive
  · rw [executions]
    exact fun id has => has
  · intro id _ _ mayCrash
    obtain ⟨notEnded, noJob, notToBe⟩ := mustNotCrash_eq_false_iff.mp mayCrash
    rw [hasJob_eq_false_iff] at noJob
    rw [isToBeEnqueued_eq_false_iff] at notToBe
    refine mustNotCrash_eq_false_iff.mpr ⟨?_, ?_, ?_⟩
    · rw [hasEnded, executions]
      exact notEnded
    · rw [hasJob_eq_false_iff]
      intro job mem
      obtain ⟨other, old, same⟩ := jobs job mem
      exact same ▸ noJob other old
    · rw [isToBeEnqueued_eq_false_iff]
      exact fun main mem => notToBe main (toEnqueue mem)

theorem Sound.addJob (sound : Sound state) {main : ExecutionOnMain} (mem : main ∈ state.toEnqueue) :
    Sound { state with
      toEnqueue := state.toEnqueue.erase main
      jobs := state.jobs ++ [{ id := state.nextJob, executionId := main.executionId }]
      nextJob := state.nextJob + 1 } := by
  refine sound.of_steady rfl rfl ?_ ?_
  · exact fun id has => has
  · intro id _ _ mayCrash
    obtain ⟨notEnded, noJob, notToBe⟩ := mustNotCrash_eq_false_iff.mp mayCrash
    rw [hasJob_eq_false_iff] at noJob
    rw [isToBeEnqueued_eq_false_iff] at notToBe
    refine mustNotCrash_eq_false_iff.mpr ⟨notEnded, ?_, ?_⟩
    · rw [hasJob_eq_false_iff]
      intro job among
      rcases mem_append.mp among with old | new
      · exact noJob job old
      · obtain rfl := mem_singleton.mp new
        exact notToBe main mem
    · rw [isToBeEnqueued_eq_false_iff]
      exact fun other among => notToBe other (mem_of_mem_erase among)

variable {job : QueuedJob}

theorem Sound.setJobState (sound : Sound state) (mem : job ∈ state.jobs)
    (jobState : QueuedJobState) :
    Sound (state.setJobState job jobState) := by
  refine sound.of_fewer rfl rfl rfl ?_ (List.Subset.refl _)
  intro other among
  rcases mem_append.mp among with old | new
  · exact ⟨other, mem_of_mem_erase old, rfl⟩
  · obtain rfl := mem_singleton.mp new
    exact ⟨job, mem, rfl⟩

theorem Sound.notMarked_of_mem_jobs (sound : Sound state)
    (mem : job ∈ state.jobs) : state.isMarked job.executionId = false := by
  by_contra marked
  rw [Bool.not_eq_false] at marked
  have mayCrash := (sound.of_isMarked marked).2
  have noJob := (mustNotCrash_eq_false_iff.mp mayCrash).2.1
  exact hasJob_eq_false_iff.mp noJob job mem rfl

theorem Sound.create (sound : Sound state)
    (isNew : state.executions.has id = false) (execution : StoredExecution) :
    Sound { state with executions := state.executions.set id execution } := by
  have other (existing : String) (has : state.executions.has existing = true) : id ≠ existing := by
    rintro rfl
    rw [isNew] at has
    cases has
  refine sound.of_steady rfl rfl ?_ ?_
  · intro existing has
    rw [OrderedMap.has, get?_set_ne _ _ (other existing has)]
    exact has
  · intro existing _ has mayCrash
    obtain ⟨notEnded, rest⟩ := mustNotCrash_eq_false_iff.mp mayCrash
    refine mustNotCrash_eq_false_iff.mpr ⟨?_, rest⟩
    rw [hasEnded, get?_set_ne _ _ (other existing has)]
    exact notEnded

theorem Sound.resumeRecovery (sound : Sound state) (phase : RecoveryPhase) :
    Sound (state.resumeRecovery phase) := by
  constructor
  · exact sound.crashedLive
  · exact fun other mem => sound.exist other (mem_of_mem_erase mem)
  · exact fun other mem =>
      sound.distinct other (mem_of_mem_erase mem)
  · exact fun other mem =>
      sound.dangling other (mem_of_mem_erase mem)

theorem Sound.continueRecovery (sound : Sound state)
    (exist : ∀ id ∈ phase.readIdsOnly, state.executions.has id = true)
    (distinct : phase.readIdsOnly.Nodup)
    (dangling : ∀ id ∈ phase.danglingIds, state.mustNotCrash id = false) :
    Sound (state.continueRecovery phase) := by
  constructor
  · exact sound.crashedLive
  · intro other mem
    rcases mem_append.mp mem with old | new
    · exact sound.exist other old
    · obtain rfl := mem_singleton.mp new
      exact exist
  · intro other mem
    rcases mem_append.mp mem with old | new
    · exact sound.distinct other old
    · obtain rfl := mem_singleton.mp new
      exact distinct
  · intro other mem
    rcases mem_append.mp mem with old | new
    · exact sound.dangling other old
    · obtain rfl := mem_singleton.mp new
      exact dangling

theorem Sound.returnFromRecovery (sound : Sound state) (waitMs : Nat) :
    Sound (state.returnFromRecovery waitMs) :=
  ⟨sound.crashedLive, sound.exist, sound.distinct, sound.dangling⟩

variable {nullsFirst : Bool}

theorem has_of_mem_getInProgressExecutionIds {batchSize : Nat}
    (mem : id ∈ state.getInProgressExecutionIds nullsFirst batchSize) :
    state.executions.has id = true := by
  obtain ⟨entry, among, rfl⟩ := mem_map.mp mem
  have ordered := mem_of_mem_take among
  have inProgress := (perm_insertionSort _ _).mem_iff.mp ordered
  exact has_iff.mpr (mem_keys_of_mem_entries (mem_filter.mp inProgress).1)

section

variable (state : QueuedExecutions)

theorem nodup_getInProgressExecutionIds (nullsFirst : Bool) (batchSize : Nat) :
    (state.getInProgressExecutionIds nullsFirst batchSize).Nodup := by
  refine List.Nodup.sublist (List.Sublist.map Prod.fst (take_sublist _ _)) ?_
  refine (List.Perm.map Prod.fst (perm_insertionSort _ _)).nodup_iff.mpr ?_
  exact List.Nodup.sublist (List.Sublist.map Prod.fst filter_sublist) state.executions.keys_nodup

theorem foldl_setStatus_eq (batch : List String) (status : ExecutionStatus) :
    batch.foldl (fun state id => state.setStatus id status) state = { state with
        executions := (batch.foldl (fun state id => state.setStatus id status)
          state).executions } := by
  induction batch generalizing state with
  | nil => rfl
  | cons id batch ih =>
    rw [foldl_cons, ih (state.setStatus id status), setStatus, update_eq]

theorem get?_foldl_setStatus (batch : List String) (status : ExecutionStatus) (id : String) :
    (batch.foldl (fun state id => state.setStatus id status) state).executions.get? id =
        if id ∈ batch then (state.executions.get? id).map fun execution =>
          { execution with status }
        else state.executions.get? id := by
  induction batch generalizing state with
  | nil => simp
  | cons first batch ih =>
    rw [foldl_cons, ih (state.setStatus first status), setStatus, get?_update]
    by_cases same : first = id
    · subst same
      by_cases later : first ∈ batch
      · simp [later, Function.comp_def]
      · simp [later]
    · simp [same, Ne.symm same]

end

variable {batch : List String}

theorem mustNotCrash_crashBatch (outside : id ∉ batch) :
    (state.crashBatch batch).mustNotCrash id = state.mustNotCrash id := by
  have ended : (state.crashBatch batch).hasEnded id = state.hasEnded id := by
    have found := get?_foldl_setStatus state batch .crashed id
    rw [if_neg outside] at found
    rw [hasEnded, hasEnded, ← found]
    rfl
  rw [mustNotCrash, ended, crashBatch, foldl_setStatus_eq]
  rfl

theorem has_crashBatch (state : QueuedExecutions) (batch : List String)
    (id : String) : (state.crashBatch batch).executions.has id = state.executions.has id := by
  have found := get?_foldl_setStatus state batch .crashed id
  rw [OrderedMap.has, OrderedMap.has, crashBatch]
  rw [found]
  split
  · simp
  · rfl

theorem recoveries_crashBatch (state : QueuedExecutions) (batch : List String) :
    (state.crashBatch batch).recoveries = state.recoveries := by
  rw [crashBatch]
  rw [foldl_setStatus_eq]

theorem Sound.crashBatch (sound : Sound state)
    (mayCrash : ∀ id ∈ batch, state.mustNotCrash id = false)
    (notMarked : ∀ id ∈ batch, state.isMarked id = false) :
    Sound (state.crashBatch batch) := by
  apply sound.of_steady
  · exact recoveries_crashBatch state batch
  · have none : batch.any state.mustNotCrash = false := by
      rw [any_eq_false]
      intro id mem
      rw [mayCrash id mem]
      exact Bool.false_ne_true
    simp [QueuedExecutions.crashBatch, none]
  · intro id has
    rw [has_crashBatch]
    exact has
  · intro id marked _ mayCrash
    rw [mustNotCrash_crashBatch]
    · exact mayCrash
    · intro mem
      rw [notMarked id mem] at marked
      cases marked

variable {context : QueueRecoveryContext}

theorem Sound.recover (sound : Sound state) (mem : phase ∈ state.recoveries)
    (keeps : KeepsLive state (.recoveryAccess phase true)) :
    Sound (recover context nullsFirst (state.resumeRecovery phase) phase) := by
  have resumed := sound.resumeRecovery phase
  cases phase with
  | readIds =>
    simp only [QueuedExecutions.recover]
    split
    · exact resumed.returnFromRecovery _
    · apply resumed.continueRecovery
      · intro id among
        exact has_of_mem_getInProgressExecutionIds among
      · exact nodup_getInProgressExecutionIds _ _ _
      · exact fun id among => absurd among not_mem_nil
  | readJobs storedIds =>
    have exist := sound.exist _ mem
    have distinct := sound.distinct _ mem
    simp only [QueuedExecutions.recover]
    split
    · exact resumed.returnFromRecovery _
    · apply resumed.continueRecovery
      · intro id among
        exact exist id (mem_filter.mp among).1
      · exact distinct.sublist filter_sublist
      · intro id among
        obtain ⟨stored, noJob⟩ := mem_filter.mp among
        have noJob : state.hasJob id = false := by
          rw [Bool.not_eq_true'] at noJob
          exact noJob
        have kept := all_eq_true.mp keeps id stored
        rw [noJob, Bool.false_or, Bool.and_eq_true, Bool.not_eq_true', Bool.not_eq_true'] at kept
        exact mustNotCrash_eq_false_iff.mpr ⟨kept.1, noJob, kept.2⟩
  | markAsCrashed danglingIds storedCount =>
    have exist := sound.exist _ mem
    have distinct := sound.distinct _ mem
    have mayCrash := sound.dangling _ mem
    have marked := resumed.crashBatch (fun id among => mayCrash id (mem_of_mem_take among))
      (fun id among => by
        have kept := all_eq_true.mp keeps id among
        simpa using kept)
    simp only [QueuedExecutions.recover]
    split
    · exact marked.returnFromRecovery _
    · apply marked.continueRecovery
      · intro id among
        rw [has_crashBatch]
        exact exist id (mem_of_mem_drop among)
      · exact distinct.sublist (drop_sublist _ _)
      · intro id among
        rw [mustNotCrash_crashBatch]
        · exact mayCrash id (mem_of_mem_drop among)
        · intro before
          exact (disjoint_take_drop distinct (Nat.le_refl _)) before among

theorem Sound.step (sound : Sound state) {nullsFirst : Bool} {event : QueuedExecutionsEvent}
    (keeps : KeepsLive state event)
    (moved : step context nullsFirst state event = some next) :
    Sound next := by
  cases event with
  | createExecution main shouldEnqueue =>
    simp only [QueuedExecutions.step] at moved
    split at moved
    · cases moved
    next isNew =>
      cases moved
      rw [Bool.not_eq_true] at isNew
      apply (sound.create isNew _).startOnMain
      intro _
      by_contra marked
      rw [Bool.not_eq_false] at marked
      have has := (sound.of_isMarked marked).1
      rw [isNew] at has
      cases has
  | resumeExecution main shouldEnqueue =>
    obtain ⟨_, rfl⟩ := of_guarded moved
    apply Sound.startOnMain
    · exact sound.update _ fun _ _ => rfl
    · rintro rfl
      simp only [KeepsLive, keepsLive, Bool.true_and, Bool.not_eq_true'] at keeps
      rw [isMarked, setStatus, update_eq]
      exact keeps
  | addJob main succeeds =>
    simp only [QueuedExecutions.step] at moved
    split at moved
    next mem =>
      cases succeeds with
      | true =>
        cases moved
        exact sound.addJob mem
      | false =>
        cases moved
        refine sound.of_fewer rfl rfl rfl ?_ erase_subset
        exact fun job mem => ⟨job, mem, rfl⟩
    · cases moved
  | finishInMain main status =>
    obtain ⟨_, rfl⟩ := of_guarded moved
    have fewer : Sound { state with inMain := state.inMain.erase main } :=
      ⟨sound.crashedLive, sound.exist, sound.distinct, sound.dangling⟩
    apply fewer.update
    intro marked execution
    simp only [KeepsLive, keepsLive, Bool.not_eq_true', Bool.and_eq_false_iff] at keeps
    rcases keeps with notEnded | notMarked
    · exact notEnded
    · rw [isMarked] at marked notMarked
      rw [marked] at notMarked
      cases notMarked
  | mainStops hostId =>
    cases moved
    refine sound.of_fewer rfl rfl rfl ?_ (filter_subset_self _)
    exact fun job mem => ⟨job, mem, rfl⟩
  | takeJob job =>
    obtain ⟨taken, rfl⟩ := of_guarded moved
    exact sound.setJobState taken.1 _
  | jobStalls job =>
    obtain ⟨stalls, rfl⟩ := of_guarded moved
    exact sound.setJobState stalls.1 _
  | setRunning job now =>
    obtain ⟨_, rfl⟩ := of_guarded moved
    exact sound.update _ fun _ _ => rfl
  | saveExecution job status =>
    obtain ⟨saves, rfl⟩ := of_guarded moved
    apply sound.update
    intro marked
    rw [sound.notMarked_of_mem_jobs saves.1] at marked
    cases marked
  | removeJob job =>
    obtain ⟨_, rfl⟩ := of_guarded moved
    refine sound.of_fewer rfl rfl rfl ?_ (List.Subset.refl _)
    exact fun other mem => ⟨other, mem_of_mem_erase mem, rfl⟩
  | recoverFromQueue =>
    cases moved
    apply sound.continueRecovery
    · exact fun id read => absurd read not_mem_nil
    · exact nodup_nil
    · exact fun id read => absurd read not_mem_nil
  | recoveryAccess phase succeeds =>
    simp only [QueuedExecutions.step] at moved
    split at moved
    next mem =>
      cases succeeds with
      | true =>
        cases moved
        exact sound.recover mem keeps
      | false =>
        cases moved
        exact sound.resumeRecovery phase
    · cases moved

end QueuedExecutions

end N8n
