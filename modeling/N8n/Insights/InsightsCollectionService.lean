import N8n.Library.Machine
import N8n.Library.OrderedSet
import N8n.Workflow.Interfaces

/-!
# Collecting insight events

Events are collected in a buffer, and a flush takes the whole buffer along
while it saves it.  A flush that fails puts its events back into the buffer.
A run interleaves the callbacks of the service at its await points; a save is
over with one event, whichever of its awaits fails.
-/

namespace N8n

open List Machine

inductive WorkflowExecuteMode where
  | cli
  | error
  | integrated
  | internal
  | manual
  | retry
  | trigger
  | webhook
  | evaluation
  | chat

def shouldSkipStatus : ExecutionStatus → Bool
  | .success | .crashed | .error => false
  | .canceled | .new | .running | .unknown | .waiting => true

def shouldSkipMode : WorkflowExecuteMode → Bool
  | .cli | .error | .retry | .trigger | .webhook | .evaluation => false
  | .integrated | .internal | .manual | .chat => true

def minRuntime : Int := 0

def maxRuntime : Int := 2147483647

inductive InsightType where
  | success
  | failure
  | runtimeMs
  | timeSavedMin
deriving DecidableEq

structure BufferedInsight where
  identity : Nat
  workflowId : String
  workflowName : String
  timestamp : Nat
  type : InsightType
  value : Rat
deriving DecidableEq

/-- What `handleWorkflowExecuteAfter` reads of its context; `nodeTimeSaved`
lists the minutes in the metadata of the run data. -/
structure WorkflowExecuteAfterContext where
  workflowId : String
  workflowName : String
  status : ExecutionStatus
  mode : WorkflowExecuteMode
  startedAt : Int
  stoppedAt : Option Int
  timestamp : Nat
  timeSavedDynamic : Bool := false
  timeSavedPerExecution : Option Rat := none
  nodeTimeSaved : List Rat := []

namespace WorkflowExecuteAfterContext

variable (ctx : WorkflowExecuteAfterContext)

def calculateTimeSaved : Rat :=
  if ctx.timeSavedDynamic then ctx.nodeTimeSaved.foldl (· + ·) 0
  else ctx.timeSavedPerExecution.getD 0

def insights : List (InsightType × Rat) :=
  let status : InsightType :=
    if ctx.status = .success then .success else .failure
  let runtime : List (InsightType × Rat) :=
    match ctx.stoppedAt with
    | some stoppedAt =>
      let runtimeMs := stoppedAt - ctx.startedAt
      let value : Int := min (max runtimeMs minRuntime) maxRuntime
      [(.runtimeMs, (value : Rat))]
    | none => []
  let timeSaved : List (InsightType × Rat) :=
    if status = .success then [(.timeSavedMin, ctx.calculateTimeSaved)]
    else []
  (status, 1) :: (runtime ++ timeSaved)

def createEvents (identity : Nat) : List BufferedInsight :=
  ctx.insights.mapIdx fun index insight =>
    { identity := identity + index
      workflowId := ctx.workflowId
      workflowName := ctx.workflowName
      timestamp := ctx.timestamp
      type := insight.1
      value := insight.2 }

end WorkflowExecuteAfterContext

structure InsightsCollectionService where
  flushBatchSize : Nat
  bufferedInsights : List BufferedInsight := []
  flushTimerSet : Bool := false
  isAsynchronouslySavingInsights : Bool := true
  flushesInProgress : List Nat := []
  isInitialized : Bool := false

namespace InsightsCollectionService

section

variable (service : InsightsCollectionService)

def cancelScheduledFlushing : InsightsCollectionService :=
  { service with flushTimerSet := false }

def scheduleFlushing : InsightsCollectionService :=
  if service.isInitialized then
    { service.cancelScheduledFlushing with flushTimerSet := true }
  else service

def init : InsightsCollectionService :=
  { service with
    isInitialized := true
    isAsynchronouslySavingInsights := true }.scheduleFlushing

/-- The `finally` block of a flush. -/
def finishFlush (flush : Nat) : InsightsCollectionService :=
  let scheduled := service.scheduleFlushing
  { scheduled with
    flushesInProgress := scheduled.flushesInProgress.filter (· ≠ flush) }

end

end InsightsCollectionService

inductive SaveOutcome where
  | saved
  | failed

/-- A flush, with the events it took along; it is in progress while it has no
outcome.  `late` says that it began when the shutdown had begun. -/
structure InsightsFlush where
  events : List BufferedInsight
  late : Bool
  outcome : Option SaveOutcome := none

/-- A call of `handleWorkflowExecuteAfter`.  It awaits a flush only while
insights are not saved asynchronously. -/
inductive HandlerStage where
  | awaitingFlush (flush : Option Nat)
  | returned

inductive ShutdownStage where
  | notBegun
  | awaiting (flushes : List Nat)
  | resolved
deriving DecidableEq

/-- The service in use.  `flushes` are all flushes so far, each named by its
position; `saved` are the events in the database, `collected` all events ever
put into the buffer, and `lateFailure` says that a save attempted after the
shutdown began has failed. -/
structure InsightsRun where
  service : InsightsCollectionService
  flushes : List InsightsFlush := []
  handlers : List HandlerStage := []
  shutdown : ShutdownStage := .notBegun
  saved : List BufferedInsight := []
  collected : List BufferedInsight := []
  lateFailure : Bool := false

inductive InsightsEvent where
  | workflowExecuteAfter (ctx : WorkflowExecuteAfterContext)
  | resumes (handler : Nat)
  | timerFires
  | saveSucceeds (flush : Nat)
  | saveFails (flush : Nat)
  | shutdown
  | shutdownResolves

namespace InsightsRun

def start (flushBatchSize : Nat) : InsightsRun :=
  { service := InsightsCollectionService.init { flushBatchSize } }

section

variable (run : InsightsRun)

/-- `flushEvents` up to its await, and the flush it awaits. -/
def flushEvents : InsightsRun × Option Nat :=
  if run.service.isInitialized = false then (run, none)
  else if run.service.bufferedInsights = [] then
    ({ run with service := run.service.scheduleFlushing }, none)
  else
    let flush := run.flushes.length
    ({ run with
        service :=
          { run.service.cancelScheduledFlushing with
            bufferedInsights := []
            flushesInProgress := OrderedSet.add run.service.flushesInProgress flush }
        flushes := run.flushes ++
          [{ events := run.service.bufferedInsights
             late := run.shutdown ≠ .notBegun }] },
      some flush)

/-- The end of `handleWorkflowExecuteAfter`. -/
def flushFullBuffer : InsightsRun :=
  if run.service.flushBatchSize ≤ run.service.bufferedInsights.length then
    run.flushEvents.1
  else run

def addEvents (events : List BufferedInsight) : InsightsRun :=
  { run with
    service :=
      { run.service with
        bufferedInsights := events.foldl OrderedSet.add run.service.bufferedInsights }
    collected := run.collected ++ events }

/-- `handleWorkflowExecuteAfter` up to its await. -/
def handleWorkflowExecuteAfter (ctx : WorkflowExecuteAfterContext) : InsightsRun :=
  if run.service.isInitialized = false ∨
      shouldSkipStatus ctx.status = true ∨ shouldSkipMode ctx.mode = true then
    { run with handlers := run.handlers ++ [.returned] }
  else
    let added := run.addEvents (ctx.createEvents run.collected.length)
    if added.service.isAsynchronouslySavingInsights then
      let checked := added.flushFullBuffer
      { checked with handlers := checked.handlers ++ [.returned] }
    else
      let (flushing, flush) := added.flushEvents
      { flushing with
        handlers := flushing.handlers ++ [.awaitingFlush flush] }

section

variable (flush : Nat)

def isSettled : Bool :=
  match run.flushes[flush]? with
  | some settled => settled.outcome.isSome
  | none => false

def resumeHandler (handler : Nat) : Option InsightsRun :=
  match run.handlers[handler]? with
  | some (.awaitingFlush flush) =>
    if flush.all run.isSettled then
      let checked := run.flushFullBuffer
      some { checked with handlers := checked.handlers.set handler .returned }
    else none
  | _ => none

def fireTimer : Option InsightsRun :=
  if run.service.flushTimerSet then
    some ({ run with
      service := { run.service with flushTimerSet := false } }.flushEvents.1)
  else none

def settleFlush (saving : InsightsFlush) (outcome : SaveOutcome) : InsightsRun :=
  { run with
    service := run.service.finishFlush flush
    flushes := run.flushes.set flush { saving with outcome := some outcome } }

def succeedSave : Option InsightsRun :=
  match run.flushes[flush]? with
  | some ⟨events, late, none⟩ =>
    some { run.settleFlush flush ⟨events, late, none⟩ .saved with
      saved := run.saved ++ events }
  | _ => none

def failSave : Option InsightsRun :=
  match run.flushes[flush]? with
  | some ⟨events, late, none⟩ =>
    let restored :=
      { run with
        service :=
          { run.service with
            bufferedInsights := events.foldl OrderedSet.add run.service.bufferedInsights } }
    some { restored.settleFlush flush ⟨events, late, none⟩ .failed with
      lateFailure := run.lateFailure || late }
  | _ => none

end

/-- `shutdown` up to its await.  The flushes in progress are listed before the
last flush begins. -/
def beginShutdown : Option InsightsRun :=
  match run.shutdown with
  | .notBegun =>
    let inProgress := run.service.flushesInProgress
    let stopped :=
      { run with
        service :=
          { run.service.cancelScheduledFlushing with
            isAsynchronouslySavingInsights := false }
        shutdown := .awaiting [] }
    let (flushing, flush) := stopped.flushEvents
    some { flushing with
      shutdown := .awaiting (inProgress ++ flush.toList) }
  | _ => none

def resolveShutdown : Option InsightsRun :=
  match run.shutdown with
  | .awaiting flushes =>
    if flushes.all run.isSettled then
      some { run with
        service := { run.service with isInitialized := false }
        shutdown := .resolved }
    else none
  | _ => none

def step : Machine InsightsRun InsightsEvent := fun run event =>
  match event with
  | .workflowExecuteAfter ctx => some (run.handleWorkflowExecuteAfter ctx)
  | .resumes handler => run.resumeHandler handler
  | .timerFires => run.fireTimer
  | .saveSucceeds flush => run.succeedSave flush
  | .saveFails flush => run.failSave flush
  | .shutdown => run.beginShutdown
  | .shutdownResolves => run.resolveShutdown

def inFlight (flushes : List InsightsFlush) : List BufferedInsight :=
  flushes.flatMap fun flush =>
    if flush.outcome = none then flush.events else []

/-- Each collected event is in the buffer, in a flush in progress or saved, in
exactly one of them and once. -/
structure InOnePlace (run : InsightsRun) : Prop where
  distinct : run.collected.Nodup
  placed : (run.service.bufferedInsights ++ (inFlight run.flushes ++ run.saved)).Perm run.collected

/-- After the shutdown has resolved and when no flush is in progress, the
buffer is empty if all saves attempted since the shutdown began succeeded. -/
def EmptyAfterShutdown : Prop :=
  run.shutdown = .resolved → run.service.flushesInProgress = [] →
    run.lateFailure = false → run.service.bufferedInsights = []

/-- No flush from before the shutdown fails when the shutdown has begun. -/
def NoEarlierFailure : InsightsEvent → Prop
  | .saveFails flush => run.shutdown ≠ .notBegun →
      ∀ saving, run.flushes[flush]? = some saving → saving.late = true
  | _ => True

end

end InsightsRun

namespace InsightsCollectionService

variable (service : InsightsCollectionService)

@[simp] theorem bufferedInsights_scheduleFlushing :
    service.scheduleFlushing.bufferedInsights = service.bufferedInsights := by
  rw [scheduleFlushing]
  split <;> rfl

@[simp] theorem isInitialized_scheduleFlushing :
    service.scheduleFlushing.isInitialized = service.isInitialized := by
  rw [scheduleFlushing]
  split <;> rfl

@[simp] theorem isAsynchronouslySavingInsights_scheduleFlushing :
    service.scheduleFlushing.isAsynchronouslySavingInsights =
      service.isAsynchronouslySavingInsights := by
  rw [scheduleFlushing]
  split <;> rfl

end InsightsCollectionService

namespace InsightsRun

variable {run next : InsightsRun} {event : InsightsEvent}

theorem inFlight_append (left right : List InsightsFlush) :
    inFlight (left ++ right) = inFlight left ++ inFlight right :=
  flatMap_append

variable {flush : Nat}

theorem inFlight_settle {flushes : List InsightsFlush}
    {events : List BufferedInsight} {late : Bool} (outcome : SaveOutcome)
    (saving : flushes[flush]? = some ⟨events, late, none⟩) :
    (inFlight flushes).Perm
      (events ++ inFlight (flushes.set flush ⟨events, late, some outcome⟩)) := by
  induction flushes generalizing flush with
  | nil => simp at saving
  | cons first flushes ih =>
    cases flush with
    | zero =>
      obtain rfl : first = ⟨events, late, none⟩ := by simpa using saving
      simp [inFlight]
    | succ flush =>
      have found : flushes[flush]? = some ⟨events, late, none⟩ := by
        simpa using saving
      have rest := ih found
      have moved := (rest.append_left (inFlight [first])).trans (perm_append_comm_assoc _ _ _)
      simpa [inFlight] using moved

/-- What a flush leaves alone. -/
structure KeptByFlush (run next : InsightsRun) : Prop where
  shutdown : next.shutdown = run.shutdown
  saved : next.saved = run.saved
  collected : next.collected = run.collected
  lateFailure : next.lateFailure = run.lateFailure
  isInitialized : next.service.isInitialized = run.service.isInitialized
  isAsynchronous : next.service.isAsynchronouslySavingInsights =
    run.service.isAsynchronouslySavingInsights

theorem flushEvents_kept (run : InsightsRun) : KeptByFlush run run.flushEvents.1 := by
  rw [flushEvents]
  split
  · constructor <;> rfl
  · split
    · constructor <;> simp
    · constructor <;> rfl

theorem flushEvents_buffer (initialized : run.service.isInitialized = true) :
    run.flushEvents.1.service.bufferedInsights = [] := by
  rw [flushEvents, if_neg (by simp [initialized])]
  split
  next empty =>
    simpa using empty
  · rfl

theorem flushEvents_buffer_nil (empty : run.service.bufferedInsights = []) :
    run.flushEvents.1.service.bufferedInsights = [] := by
  cases initialized : run.service.isInitialized with
  | true => exact flushEvents_buffer initialized
  | false =>
    rw [flushEvents, if_pos initialized]
    exact empty

theorem flushFullBuffer_kept (run : InsightsRun) : KeptByFlush run run.flushFullBuffer := by
  rw [flushFullBuffer]
  split
  · exact run.flushEvents_kept
  · constructor <;> rfl

theorem flushFullBuffer_buffer_nil (empty : run.service.bufferedInsights = []) :
    run.flushFullBuffer.service.bufferedInsights = [] := by
  rw [flushFullBuffer]
  split
  · exact flushEvents_buffer_nil empty
  · exact empty

/-- The events are in one place each, and numbered in the order of their
collection. -/
structure Placed (run : InsightsRun) : Prop where
  inOnePlace : run.InOnePlace
  numbered : ∀ event ∈ run.collected, event.identity < run.collected.length

theorem Placed.of_perm (placed : run.Placed) (collected : next.collected = run.collected)
    (moved : (next.service.bufferedInsights ++ (inFlight next.flushes ++ next.saved)).Perm
      (run.service.bufferedInsights ++ (inFlight run.flushes ++ run.saved))) : next.Placed := by
  constructor
  · constructor
    · rw [collected]
      exact placed.inOnePlace.distinct
    · rw [collected]
      exact moved.trans placed.inOnePlace.placed
  · rw [collected]
    exact placed.numbered

theorem Placed.flushEvents (placed : run.Placed) : run.flushEvents.1.Placed := by
  apply placed.of_perm run.flushEvents_kept.collected
  rw [InsightsRun.flushEvents]
  split
  · exact List.Perm.refl _
  · split
    · simp
    · simp only [inFlight_append]
      have flying : ∀ late, inFlight [⟨run.service.bufferedInsights, late, none⟩] =
            run.service.bufferedInsights := by
        simp [inFlight]
      rw [flying, nil_append, append_assoc]
      exact perm_append_comm_assoc _ _ _

theorem Placed.flushFullBuffer (placed : run.Placed) : run.flushFullBuffer.Placed := by
  rw [InsightsRun.flushFullBuffer]
  split
  · exact placed.flushEvents
  · exact placed

theorem length_createEvents (ctx : WorkflowExecuteAfterContext) (identity : Nat) :
    (ctx.createEvents identity).length = ctx.insights.length := by
  simp [WorkflowExecuteAfterContext.createEvents]

theorem map_identity_createEvents (ctx : WorkflowExecuteAfterContext) (identity : Nat) :
    (ctx.createEvents identity).map (·.identity) = List.range' identity ctx.insights.length := by
  apply ext_getElem
  · simp [WorkflowExecuteAfterContext.createEvents]
  · intro index _ _
    simp [WorkflowExecuteAfterContext.createEvents]

theorem Placed.addEvents (placed : run.Placed) (ctx : WorkflowExecuteAfterContext) :
    (run.addEvents (ctx.createEvents run.collected.length)).Placed := by
  have numbers := map_identity_createEvents ctx run.collected.length
  have fresh : ∀ event ∈ ctx.createEvents run.collected.length,
      run.collected.length ≤ event.identity ∧
        event.identity < run.collected.length + ctx.insights.length := by
    intro event mem
    have listed := mem_map_of_mem (f := (·.identity)) mem
    rw [numbers] at listed
    simpa [and_comm] using mem_range'_1.mp listed
  have created : (ctx.createEvents run.collected.length).Nodup := by
    apply List.Nodup.of_map (·.identity)
    rw [numbers]
    exact nodup_range'
  have distinct : (run.collected ++ ctx.createEvents run.collected.length).Nodup := by
    rw [nodup_append]
    refine ⟨placed.inOnePlace.distinct, created, ?_⟩
    rintro event mem other otherMem rfl
    have below := placed.numbered event mem
    have above := (fresh event otherMem).1
    omega
  have everywhere := placed.inOnePlace.placed.append_right (ctx.createEvents run.collected.length)
  have buffered : (run.service.bufferedInsights ++ ctx.createEvents run.collected.length).Nodup :=
    (everywhere.nodup_iff.mpr distinct).sublist
      ((sublist_append_left _ _).append (List.Sublist.refl _))
  constructor
  · constructor
    · exact distinct
    · apply List.Perm.trans _ everywhere
      rw [InsightsRun.addEvents, OrderedSet.foldl_add_of_nodup buffered]
      rw [append_assoc, append_assoc]
      exact perm_append_comm.append_left _
  · intro event mem
    change event ∈ run.collected ++ _ at mem
    change event.identity < (run.collected ++ _).length
    rw [length_append, length_createEvents]
    rcases mem_append.mp mem with mem | mem
    · have below := placed.numbered event mem
      omega
    · exact (fresh event mem).2

theorem Placed.handleWorkflowExecuteAfter (placed : run.Placed)
    (ctx : WorkflowExecuteAfterContext) :
    (run.handleWorkflowExecuteAfter ctx).Placed := by
  rw [InsightsRun.handleWorkflowExecuteAfter]
  split
  · exact placed.of_perm rfl (List.Perm.refl _)
  · have added := placed.addEvents ctx
    dsimp only
    split
    · exact added.flushFullBuffer.of_perm rfl (List.Perm.refl _)
    · exact added.flushEvents.of_perm rfl (List.Perm.refl _)

theorem Placed.resumeHandler (placed : run.Placed) {handler : Nat}
    (moved : run.resumeHandler handler = some next) : next.Placed := by
  rw [InsightsRun.resumeHandler] at moved
  split at moved
  · obtain ⟨_, rfl⟩ := of_guarded moved
    exact placed.flushFullBuffer.of_perm rfl (List.Perm.refl _)
  · cases moved

theorem Placed.fireTimer (placed : run.Placed)
    (moved : run.fireTimer = some next) : next.Placed := by
  obtain ⟨_, rfl⟩ := of_guarded moved
  apply Placed.flushEvents
  exact placed.of_perm rfl (List.Perm.refl _)

theorem succeedSave_cases (moved : run.succeedSave flush = some next) :
    ∃ events late, run.flushes[flush]? = some ⟨events, late, none⟩ ∧
      next = { run.settleFlush flush ⟨events, late, none⟩ .saved with
        saved := run.saved ++ events } := by
  rw [succeedSave] at moved
  split at moved
  next events late saving =>
    exact ⟨events, late, saving, (Option.some.inj moved).symm⟩
  · cases moved

theorem failSave_cases (moved : run.failSave flush = some next) :
    ∃ events late, run.flushes[flush]? = some ⟨events, late, none⟩ ∧
      next.service.bufferedInsights = events.foldl OrderedSet.add run.service.bufferedInsights ∧
      next = { run.settleFlush flush ⟨events, late, none⟩ .failed with
        service := next.service
        lateFailure := run.lateFailure || late } ∧
      next.service.isInitialized = run.service.isInitialized ∧
      next.service.isAsynchronouslySavingInsights =
        run.service.isAsynchronouslySavingInsights := by
  rw [failSave] at moved
  split at moved
  next events late saving =>
    cases moved
    refine ⟨events, late, saving, ?_, rfl, ?_, ?_⟩
    · simp [settleFlush, InsightsCollectionService.finishFlush]
    · simp [settleFlush, InsightsCollectionService.finishFlush]
    · simp [settleFlush, InsightsCollectionService.finishFlush]
  · cases moved

theorem Placed.succeedSave (placed : run.Placed)
    (moved : run.succeedSave flush = some next) : next.Placed := by
  obtain ⟨events, late, saving, rfl⟩ := succeedSave_cases moved
  have released := inFlight_settle .saved saving
  apply placed.of_perm
  · rfl
  · simp only [settleFlush, InsightsCollectionService.finishFlush,
      InsightsCollectionService.bufferedInsights_scheduleFlushing]
    apply List.Perm.append_left
    apply List.Perm.trans _ (released.append_right run.saved).symm
    rw [append_assoc, ← append_assoc _ run.saved]
    exact perm_append_comm

theorem Placed.failSave (placed : run.Placed)
    (moved : run.failSave flush = some next) : next.Placed := by
  obtain ⟨events, late, saving, buffer, shape, -⟩ := failSave_cases moved
  have released := inFlight_settle .failed saving
  have apart := ((released.append_right run.saved).append_left
    run.service.bufferedInsights).symm.trans placed.inOnePlace.placed
  have nodup : (run.service.bufferedInsights ++ events).Nodup := by
    have all := apart.nodup_iff.mpr placed.inOnePlace.distinct
    apply List.Nodup.sublist _ all
    apply List.Sublist.append_left
    rw [append_assoc]
    exact sublist_append_left _ _
  rw [OrderedSet.foldl_add_of_nodup nodup] at buffer
  apply placed.of_perm
  · rw [shape]
    rfl
  · have flushes : next.flushes = run.flushes.set flush ⟨events, late, some .failed⟩ := by
      rw [shape]
      rfl
    have saved : next.saved = run.saved := by
      rw [shape]
      rfl
    rw [buffer, flushes, saved, append_assoc, ← append_assoc events]
    exact (released.append_right _).symm.append_left _

theorem Placed.beginShutdown (placed : run.Placed)
    (moved : run.beginShutdown = some next) : next.Placed := by
  rw [InsightsRun.beginShutdown] at moved
  split at moved
  · cases moved
    have stopped : Placed { run with
        service :=
          { run.service.cancelScheduledFlushing with
            isAsynchronouslySavingInsights := false }
        shutdown := .awaiting [] } :=
      placed.of_perm rfl (List.Perm.refl _)
    exact stopped.flushEvents.of_perm rfl (List.Perm.refl _)
  · cases moved

theorem Placed.resolveShutdown (placed : run.Placed)
    (moved : run.resolveShutdown = some next) : next.Placed := by
  rw [InsightsRun.resolveShutdown] at moved
  split at moved
  · obtain ⟨_, rfl⟩ := of_guarded moved
    exact placed.of_perm rfl (List.Perm.refl _)
  · cases moved

theorem Placed.step (placed : run.Placed) (moved : step run event = some next) : next.Placed := by
  cases event with
  | workflowExecuteAfter ctx =>
    cases moved
    exact placed.handleWorkflowExecuteAfter ctx
  | resumes handler => exact placed.resumeHandler moved
  | timerFires => exact placed.fireTimer moved
  | saveSucceeds flush => exact placed.succeedSave moved
  | saveFails flush => exact placed.failSave moved
  | shutdown => exact placed.beginShutdown moved
  | shutdownResolves => exact placed.resolveShutdown moved

variable (flushBatchSize : Nat)

theorem start_placed : (start flushBatchSize).Placed := by
  constructor
  · constructor
    · exact nodup_nil
    · exact List.Perm.refl _
  · simp [start]

/-- While no late save fails, the buffer stays empty from the begin of the
shutdown on. -/
structure Drained (run : InsightsRun) : Prop where
  initialized : run.shutdown ≠ .resolved → run.service.isInitialized = true
  synchronous : run.shutdown ≠ .notBegun → run.service.isAsynchronouslySavingInsights = false
  empty : run.shutdown ≠ .notBegun → run.lateFailure = false → run.service.bufferedInsights = []

theorem Drained.of_kept (drained : run.Drained) (kept : KeptByFlush run next)
    (buffer : run.service.bufferedInsights = [] →
      next.service.bufferedInsights = []) : next.Drained := by
  constructor
  · rw [kept.shutdown, kept.isInitialized]
    exact drained.initialized
  · rw [kept.shutdown, kept.isAsynchronous]
    exact drained.synchronous
  · rw [kept.shutdown, kept.lateFailure]
    intro begun clean
    exact buffer (drained.empty begun clean)

theorem Drained.handleWorkflowExecuteAfter (drained : run.Drained)
    (ctx : WorkflowExecuteAfterContext) :
    (run.handleWorkflowExecuteAfter ctx).Drained := by
  rw [InsightsRun.handleWorkflowExecuteAfter]
  split
  · exact ⟨drained.initialized, drained.synchronous, drained.empty⟩
  next accepted =>
    have initialized : run.service.isInitialized = true := by
      simp only [not_or, Bool.not_eq_false] at accepted
      exact accepted.1
    dsimp only
    split
    next asynchronous =>
      have notBegun : run.shutdown = .notBegun := by
        by_contra begun
        have synchronous := drained.synchronous begun
        rw [InsightsRun.addEvents, synchronous] at asynchronous
        cases asynchronous
      have kept := flushFullBuffer_kept (run.addEvents (ctx.createEvents run.collected.length))
      have still : (run.addEvents
          (ctx.createEvents run.collected.length)).flushFullBuffer.shutdown =
            .notBegun := kept.shutdown.trans notBegun
      constructor
      · intro _
        exact kept.isInitialized.trans initialized
      · exact fun begun => absurd still begun
      · exact fun begun => absurd still begun
    · have kept := flushEvents_kept (run.addEvents (ctx.createEvents run.collected.length))
      constructor
      · intro _
        exact kept.isInitialized.trans initialized
      · intro begun
        apply kept.isAsynchronous.trans
        apply drained.synchronous
        intro notBegun
        exact begun (kept.shutdown.trans notBegun)
      · intro _ _
        exact flushEvents_buffer initialized

theorem Drained.resumeHandler (drained : run.Drained) {handler : Nat}
    (moved : run.resumeHandler handler = some next) : next.Drained := by
  rw [InsightsRun.resumeHandler] at moved
  split at moved
  · obtain ⟨_, rfl⟩ := of_guarded moved
    have kept := run.flushFullBuffer_kept
    apply drained.of_kept
    · exact ⟨kept.shutdown, kept.saved, kept.collected, kept.lateFailure,
        kept.isInitialized, kept.isAsynchronous⟩
    · exact flushFullBuffer_buffer_nil
  · cases moved

theorem Drained.fireTimer (drained : run.Drained)
    (moved : run.fireTimer = some next) : next.Drained := by
  obtain ⟨_, rfl⟩ := of_guarded moved
  have kept := flushEvents_kept { run with service := { run.service with flushTimerSet := false } }
  apply drained.of_kept
  · exact ⟨kept.shutdown, kept.saved, kept.collected, kept.lateFailure,
      kept.isInitialized, kept.isAsynchronous⟩
  · intro empty
    exact flushEvents_buffer_nil empty

theorem Drained.succeedSave (drained : run.Drained)
    (moved : run.succeedSave flush = some next) : next.Drained := by
  obtain ⟨events, late, saving, rfl⟩ := succeedSave_cases moved
  constructor
  · simpa [settleFlush, InsightsCollectionService.finishFlush] using drained.initialized
  · simpa [settleFlush, InsightsCollectionService.finishFlush] using drained.synchronous
  · simpa [settleFlush, InsightsCollectionService.finishFlush] using drained.empty

/-- A late save that fails is a late failure; an earlier one must not fail when
the shutdown has begun. -/
theorem Drained.failSave (drained : run.Drained) (kept : run.NoEarlierFailure (.saveFails flush))
    (moved : run.failSave flush = some next) : next.Drained := by
  obtain ⟨events, late, saving, -, shape, initialized, asynchronous⟩ := failSave_cases moved
  have shutdown : next.shutdown = run.shutdown := by
    rw [shape]
    rfl
  constructor
  · rw [shutdown, initialized]
    exact drained.initialized
  · rw [shutdown, asynchronous]
    exact drained.synchronous
  · intro begun clean
    rw [shutdown] at begun
    have isLate : late = true := kept begun _ saving
    have failed : next.lateFailure = true := by
      rw [shape, isLate]
      exact Bool.or_true _
    rw [failed] at clean
    cases clean

theorem Drained.beginShutdown (drained : run.Drained)
    (moved : run.beginShutdown = some next) : next.Drained := by
  rw [InsightsRun.beginShutdown] at moved
  split at moved
  next notBegun =>
    cases moved
    have initialized := drained.initialized (by simp [notBegun])
    have kept := flushEvents_kept { run with
      service :=
        { run.service.cancelScheduledFlushing with
          isAsynchronouslySavingInsights := false }
      shutdown := .awaiting [] }
    constructor
    · intro _
      exact kept.isInitialized.trans initialized
    · intro _
      exact kept.isAsynchronous
    · intro _ _
      exact flushEvents_buffer initialized
  · cases moved

theorem Drained.resolveShutdown (drained : run.Drained)
    (moved : run.resolveShutdown = some next) : next.Drained := by
  rw [InsightsRun.resolveShutdown] at moved
  split at moved
  next flushes awaiting =>
    obtain ⟨_, rfl⟩ := of_guarded moved
    have begun : run.shutdown ≠ .notBegun := by simp [awaiting]
    constructor
    · exact fun resolved => absurd rfl resolved
    · exact fun _ => drained.synchronous begun
    · exact fun _ => drained.empty begun
  · cases moved

theorem Drained.step (drained : run.Drained) (kept : run.NoEarlierFailure event)
    (moved : step run event = some next) : next.Drained := by
  cases event with
  | workflowExecuteAfter ctx =>
    cases moved
    exact drained.handleWorkflowExecuteAfter ctx
  | resumes handler => exact drained.resumeHandler moved
  | timerFires => exact drained.fireTimer moved
  | saveSucceeds flush => exact drained.succeedSave moved
  | saveFails flush => exact drained.failSave kept moved
  | shutdown => exact drained.beginShutdown moved
  | shutdownResolves => exact drained.resolveShutdown moved

theorem start_drained : (start flushBatchSize).Drained := by
  constructor <;> simp [start, InsightsCollectionService.init]

variable (events : List InsightsEvent)

/-- Events are never lost or duplicated, and the shutdown leaves none behind
unless a flush that began before it fails during it. -/
theorem insights_accounted : step.Always InOnePlace (start flushBatchSize) events ∧
      (step.Meets NoEarlierFailure (start flushBatchSize) events →
        step.Always EmptyAfterShutdown (start flushBatchSize) events) := by
  constructor
  · intro earlier _ reached run
    have placed : reached.Placed := by
      apply invariant_of_run Placed _ (start_placed _) run
      intro state event next holds stepped
      exact holds.step stepped
    exact placed.inOnePlace
  · intro meets earlier isPrefix reached run resolved _ clean
    have drained : reached.Drained := by
      apply invariant_of_meets Drained _ (start_drained _) (meets.of_prefix isPrefix) run
      intro state event next holds kept stepped
      exact holds.step kept stepped
    exact drained.empty (by simp [resolved]) clean

private def execution : WorkflowExecuteAfterContext :=
  { workflowId := "1"
    workflowName := "workflow"
    status := .success
    mode := .trigger
    startedAt := 0
    stoppedAt := some 2000
    timestamp := 2000 }

/-- The timer starts a flush, the shutdown waits for it, and it fails. -/
private def failureDuringShutdown : List InsightsEvent :=
  [.workflowExecuteAfter execution, .timerFires, .shutdown, .saveFails 0, .shutdownResolves]

def LeavesEvents : Prop :=
  ∃ last, step.run (start flushBatchSize) events = some last ∧ ¬ last.EmptyAfterShutdown

theorem leavesEvents_failureDuringShutdown : LeavesEvents 10 failureDuringShutdown := by
  refine ⟨_, rfl, ?_⟩
  intro empty
  exact absurd (empty rfl rfl rfl) (by decide)

end InsightsRun

end N8n
