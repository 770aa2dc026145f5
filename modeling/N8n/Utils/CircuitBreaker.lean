import N8n.Library.Machine

/-!
# Circuit breaker

A call is started in one of the states of the breaker, and its outcome is
handled whenever the wrapped function settles.  The handlers act on the state
of that moment, so the breaker follows its state machine as long as no outcome
comes from an earlier state than the one it is counted for.
-/

namespace N8n

/-- `array.slice(-count)`, which keeps everything when `count` is zero. -/
def sliceLast (count : Nat) (items : List Nat) : List Nat :=
  if count = 0 then items else items.drop (items.length - count)

structure SlidingWindow where
  maxEvents : Nat
  durationMs : Nat
  eventTimestamps : List Nat := []

namespace SlidingWindow

variable (window : SlidingWindow)

def addEvent (timestamp : Nat) : SlidingWindow :=
  let added := window.eventTimestamps ++ [timestamp]
  { window with
    eventTimestamps :=
      if window.maxEvents * 2 < added.length then
        sliceLast (window.maxEvents * 2) added
      else added }

/-- Events before `now - durationMs` have expired. -/
def isWithin (durationMs now timestamp : Nat) : Bool := now ≤ timestamp + durationMs

/-- `getCount` also forgets the expired events. -/
def getCount (now : Nat) : Nat × SlidingWindow :=
  let timestamps := window.eventTimestamps.filter (isWithin window.durationMs now)
  (timestamps.length, { window with eventTimestamps := timestamps })

def clear : SlidingWindow :=
  { window with eventTimestamps := [] }

end SlidingWindow

inductive CircuitBreakerState where
  | closed
  | open
  | halfOpen
deriving DecidableEq

structure CircuitBreakerOptions where
  timeout : Nat
  maxFailures : Nat
  halfOpenRequests : Nat
  failureWindow : Nat
  maxConcurrentHalfOpenRequests : Option Nat := none

structure CircuitBreaker where
  state : CircuitBreakerState
  halfOpenCount : Nat
  lastFailureTime : Nat
  pendingHalfOpenRequests : Nat
  slidingWindow : SlidingWindow
  timeoutMs : Nat
  maxFailures : Nat
  halfOpenRequests : Nat
  maxConcurrentHalfOpenRequests : Nat

/-- The handler that waits for the wrapped function. -/
inductive Handler where
  | closedState
  | halfOpenState

namespace CircuitBreaker

def create (options : CircuitBreakerOptions) : CircuitBreaker :=
  { state := .closed
    halfOpenCount := 0
    lastFailureTime := 0
    pendingHalfOpenRequests := 0
    slidingWindow :=
      { maxEvents := options.maxFailures
        durationMs := options.failureWindow }
    timeoutMs := options.timeout
    maxFailures := options.maxFailures
    halfOpenRequests := options.halfOpenRequests
    maxConcurrentHalfOpenRequests := options.maxConcurrentHalfOpenRequests.getD 1 }

section

variable (breaker : CircuitBreaker) (now : Nat)

def getFailureCount : Nat × CircuitBreaker :=
  let (count, slidingWindow) := breaker.slidingWindow.getCount now
  (count, { breaker with slidingWindow })

def clearFailures : CircuitBreaker :=
  { breaker with slidingWindow := breaker.slidingWindow.clear }

def recordFailure : CircuitBreaker :=
  { breaker with
    lastFailureTime := now
    slidingWindow := breaker.slidingWindow.addEvent now }

def changeToState (newState : CircuitBreakerState) : CircuitBreaker :=
  { breaker with state := newState }

/-- `handleHalfOpenState` up to the call of the function; `none` is the
rejection of the request. -/
def beginHalfOpenState : CircuitBreaker × Option Handler :=
  if breaker.maxConcurrentHalfOpenRequests ≤ breaker.pendingHalfOpenRequests then
    (breaker, none)
  else
    ({ breaker with
        pendingHalfOpenRequests := breaker.pendingHalfOpenRequests + 1 },
      some .halfOpenState)

/-- `handleOpenState` up to the call of the function. -/
def beginOpenState : CircuitBreaker × Option Handler :=
  if breaker.timeoutMs ≤ now - breaker.lastFailureTime then
    beginHalfOpenState ({ breaker with halfOpenCount := 0 }.changeToState .halfOpen)
  else (breaker, none)

/-- `execute` up to the call of the function. -/
def execute : CircuitBreaker × Option Handler :=
  match breaker.state with
  | .open => breaker.beginOpenState now
  | .halfOpen => breaker.beginHalfOpenState
  | .closed => (breaker, some .closedState)

def halfOpenSucceeded : CircuitBreaker :=
  let counted := { breaker with halfOpenCount := breaker.halfOpenCount + 1 }
  let changed :=
    if counted.halfOpenRequests ≤ counted.halfOpenCount then
      (counted.changeToState .closed).clearFailures
    else counted
  { changed with
    pendingHalfOpenRequests := changed.pendingHalfOpenRequests - 1 }

def halfOpenFailed : CircuitBreaker :=
  let changed := (breaker.recordFailure now).changeToState .open
  { changed with
    pendingHalfOpenRequests := changed.pendingHalfOpenRequests - 1 }

def closedFailed : CircuitBreaker :=
  let (count, counted) := (breaker.recordFailure now).getFailureCount now
  if counted.maxFailures ≤ count then counted.changeToState .open
  else counted

end

end CircuitBreaker

/-- A call of `execute`.  A call of the half-open state remembers in which
half-open period of the breaker it was started. -/
inductive BreakerCall where
  | closedState
  | halfOpenState (period : Nat)
  | settled
deriving DecidableEq

/-- A breaker in use.  `period` counts how often it became half open,
`successes` the successes of calls of the current period, and `failures` lists
the times of all failures. -/
structure BreakerRun where
  breaker : CircuitBreaker
  now : Nat
  calls : List BreakerCall := []
  period : Nat := 0
  successes : Nat := 0
  failures : List Nat := []

inductive BreakerEvent where
  | elapse (milliseconds : Nat)
  | execute
  | succeeds (call : Nat)
  | fails (call : Nat)
deriving DecidableEq

namespace BreakerRun

def start (options : CircuitBreakerOptions) (now : Nat) : BreakerRun :=
  { breaker := .create options
    now }

section

variable (run : BreakerRun)

section

variable (call : Nat)

def settle (breaker : CircuitBreaker) : BreakerRun :=
  { run with
    breaker
    calls := run.calls.set call .settled }

/-- A call of `execute`, which may find the timeout of the open state over. -/
def execute (run : BreakerRun) : BreakerRun :=
  let (breaker, handler) := run.breaker.execute run.now
  let entered :=
    if run.breaker.state = .open ∧ breaker.state = .halfOpen then
      { run with breaker, period := run.period + 1, successes := 0 }
    else { run with breaker }
  let call : BreakerCall :=
    match handler with
    | some .closedState => .closedState
    | some .halfOpenState => .halfOpenState entered.period
    | none => .settled
  { entered with calls := run.calls ++ [call] }

def succeeds : Option BreakerRun :=
  match run.calls[call]? with
  | some .closedState => some (run.settle call run.breaker)
  | some (.halfOpenState period) =>
    some { run.settle call run.breaker.halfOpenSucceeded with
      successes :=
        if period = run.period then run.successes + 1 else run.successes }
  | _ => none

def fails : Option BreakerRun :=
  let failed := { run with failures := run.failures ++ [run.now] }
  match run.calls[call]? with
  | some .closedState =>
    some (failed.settle call (run.breaker.closedFailed run.now))
  | some (.halfOpenState _) =>
    some (failed.settle call (run.breaker.halfOpenFailed run.now))
  | _ => none

def step : Machine BreakerRun BreakerEvent := fun run event =>
  match event with
  | .elapse milliseconds => some { run with now := run.now + milliseconds }
  | .execute => some run.execute
  | .succeeds call => run.succeeds call
  | .fails call => run.fails call

def recentFailures : List Nat :=
  run.failures.filter (SlidingWindow.isWithin run.breaker.slidingWindow.durationMs run.now)

/-- The call was started since the breaker became half open. -/
def StartedHalfOpen : Prop :=
  run.calls[call]? = some (.halfOpenState run.period)

end

/-- The changes of state that the state machine allows in one step. -/
def LawfulChange (event : BreakerEvent) (next : BreakerRun) : Prop :=
  match run.breaker.state, next.breaker.state, event with
  | .closed, .open, .fails _ =>
    run.breaker.maxFailures ≤ next.recentFailures.length
  | .open, .halfOpen, .execute =>
    run.breaker.timeoutMs ≤ run.now - run.breaker.lastFailureTime
  | .open, .open, .execute =>
    run.now - run.breaker.lastFailureTime < run.breaker.timeoutMs
  | .halfOpen, .closed, .succeeds call =>
    run.StartedHalfOpen call ∧ run.breaker.halfOpenRequests ≤ next.successes
  | .halfOpen, .open, .fails call => run.StartedHalfOpen call
  | before, after, _ => before = after

/-- The event changes the state as the state machine allows. -/
def Lawful (event : BreakerEvent) : Prop :=
  ∀ next, step run event = some next → LawfulChange run event next

/-- No outcome is counted for another state than that in which its call was
started. -/
def Timely : BreakerEvent → Prop
  | .elapse _ => True
  | .execute => True
  | .succeeds call =>
    match run.calls[call]? with
    | some (.halfOpenState period) =>
      (run.breaker.state = .halfOpen → period = run.period) ∧ (run.breaker.state = .open →
          run.breaker.halfOpenCount + 1 < run.breaker.halfOpenRequests)
    | _ => True
  | .fails call =>
    match run.calls[call]? with
    | some .closedState =>
      run.breaker.state = .halfOpen → ((run.breaker.recordFailure run.now).getFailureCount
          run.now).1 < run.breaker.maxFailures
    | some (.halfOpenState period) =>
      (run.breaker.state = .halfOpen → period = run.period) ∧ (run.breaker.state = .closed →
          run.breaker.maxFailures ≤ run.recentFailures.length + 1)
    | _ => True

end

instance decidableTimely (run : BreakerRun) (event : BreakerEvent) :
    Decidable (run.Timely event) := by
  cases event with
  | elapse milliseconds | execute => exact isTrue trivial
  | succeeds call | fails call =>
    rw [Timely]
    split <;> infer_instance

instance decidableLawfulChange (run : BreakerRun) (event : BreakerEvent)
    (next : BreakerRun) : Decidable (run.LawfulChange event next) := by
  unfold LawfulChange StartedHalfOpen
  split <;> infer_instance

instance decidableLawful (run : BreakerRun) (event : BreakerEvent) : Decidable (run.Lawful event) :=
  match stepped : step run event with
  | none => isTrue fun next other => by
    rw [stepped] at other
    cases other
  | some next =>
    decidable_of_iff (run.LawfulChange event next) ⟨fun lawful other otherStep => by
        rw [stepped] at otherStep
        exact Option.some.inj otherStep ▸ lawful,
      fun lawful => lawful next stepped⟩

end BreakerRun

namespace SlidingWindow

theorem addEvent_sublist (window : SlidingWindow) (timestamp : Nat) :
    (window.addEvent timestamp).eventTimestamps.Sublist
      (window.eventTimestamps ++ [timestamp]) := by
  simp only [addEvent, sliceLast]
  split
  · split
    · exact List.Sublist.refl _
    · exact List.drop_sublist _ _
  · exact List.Sublist.refl _

@[simp] theorem durationMs_addEvent (window : SlidingWindow) (timestamp : Nat) :
    (window.addEvent timestamp).durationMs = window.durationMs := rfl

end SlidingWindow

namespace CircuitBreaker

variable (breaker : CircuitBreaker) (now : Nat)

abbrev TimeoutOver : Prop :=
  breaker.state = .open ∧ breaker.timeoutMs ≤ now - breaker.lastFailureTime

@[simp] theorem state_beginHalfOpenState : breaker.beginHalfOpenState.1.state = breaker.state := by
  rw [beginHalfOpenState]
  split <;> rfl

@[simp] theorem halfOpenCount_beginHalfOpenState :
    breaker.beginHalfOpenState.1.halfOpenCount = breaker.halfOpenCount := by
  rw [beginHalfOpenState]
  split <;> rfl

@[simp] theorem slidingWindow_beginHalfOpenState :
    breaker.beginHalfOpenState.1.slidingWindow = breaker.slidingWindow := by
  rw [beginHalfOpenState]
  split <;> rfl

/-- A call changes the state only when the timeout of the open state is
over. -/
structure Started (before after : CircuitBreaker) (timeoutOver : Prop) : Prop where
  entered : timeoutOver → after.state = .halfOpen ∧ after.halfOpenCount = 0
  kept : ¬ timeoutOver → after.state = before.state ∧ after.halfOpenCount = before.halfOpenCount
  window : after.slidingWindow = before.slidingWindow

theorem execute_started : Started breaker (breaker.execute now).1 (breaker.TimeoutOver now) := by
  rw [execute, TimeoutOver]
  cases state : breaker.state with
  | «open» =>
    simp only [beginOpenState]
    split
    · constructor <;> simp_all [changeToState]
    · constructor <;> simp_all
  | halfOpen | closed => constructor <;> simp_all

end CircuitBreaker

namespace CircuitBreaker

variable (breaker : CircuitBreaker) (now : Nat)

theorem state_halfOpenSucceeded : breaker.halfOpenSucceeded.state =
      if breaker.halfOpenRequests ≤ breaker.halfOpenCount + 1 then .closed
      else breaker.state := by
  simp only [halfOpenSucceeded]
  split <;> rfl

theorem halfOpenCount_halfOpenSucceeded :
    breaker.halfOpenSucceeded.halfOpenCount = breaker.halfOpenCount + 1 := by
  simp only [halfOpenSucceeded]
  split <;> rfl

theorem timestamps_halfOpenSucceeded :
    breaker.halfOpenSucceeded.slidingWindow.eventTimestamps.Sublist
      breaker.slidingWindow.eventTimestamps := by
  simp only [halfOpenSucceeded]
  split
  · exact List.nil_sublist _
  · exact List.Sublist.refl _

/-- The failures that decide whether a failure in the closed state opens the
breaker. -/
def countWithFailure : Nat := ((breaker.recordFailure now).getFailureCount now).1

theorem state_closedFailed : (breaker.closedFailed now).state =
      if breaker.maxFailures ≤ breaker.countWithFailure now then .open
      else breaker.state := by
  simp only [closedFailed]
  split
  next reached =>
    exact (if_pos reached).symm
  next below =>
    exact (if_neg below).symm

theorem halfOpenCount_closedFailed :
    (breaker.closedFailed now).halfOpenCount = breaker.halfOpenCount := by
  simp only [closedFailed]
  split <;> rfl

theorem slidingWindow_closedFailed : (breaker.closedFailed now).slidingWindow =
      ((breaker.slidingWindow.addEvent now).getCount now).2 := by
  simp only [closedFailed]
  split <;> rfl

theorem timestamps_closedFailed : (breaker.closedFailed now).slidingWindow.eventTimestamps.Sublist
      (breaker.slidingWindow.eventTimestamps ++ [now]) := by
  rw [slidingWindow_closedFailed]
  exact List.filter_sublist.trans (SlidingWindow.addEvent_sublist _ _)

end CircuitBreaker

namespace BreakerRun

variable {run next : BreakerRun} {event : BreakerEvent} {call : Nat}

/-- The counters of the breaker say what happened in the run. -/
structure Sound (run : BreakerRun) : Prop where
  counted : run.breaker.state = .halfOpen → run.successes = run.breaker.halfOpenCount
  recorded : run.breaker.slidingWindow.eventTimestamps.Sublist run.failures

theorem start_sound (options : CircuitBreakerOptions) (now : Nat) : (start options now).Sound := by
  constructor
  · intro halfOpen
    cases halfOpen
  · exact List.nil_sublist _

section

variable (run : BreakerRun)

@[simp] theorem breaker_execute : run.execute.breaker = (run.breaker.execute run.now).1 := by
  simp only [execute]
  split <;> rfl

theorem successes_execute : run.execute.successes =
      if run.breaker.state = .open ∧ (run.breaker.execute run.now).1.state = .halfOpen then 0
      else run.successes := by
  simp only [execute]
  split <;> rfl

@[simp] theorem failures_execute : run.execute.failures = run.failures := by
  simp only [execute]
  split <;> rfl

theorem Sound.execute (sound : run.Sound) : run.execute.Sound := by
  have started := run.breaker.execute_started run.now
  constructor
  · intro halfOpen
    rw [breaker_execute] at halfOpen ⊢
    rw [successes_execute]
    by_cases expired : run.breaker.TimeoutOver run.now
    · rw [if_pos ⟨expired.1, halfOpen⟩, (started.entered expired).2]
    · obtain ⟨state, count⟩ := started.kept expired
      rw [state] at halfOpen
      rw [if_neg (by simp [halfOpen]), count]
      exact sound.counted halfOpen
  · rw [breaker_execute, started.window, failures_execute]
    exact sound.recorded

theorem execute_lawful : run.LawfulChange .execute run.execute := by
  have started := run.breaker.execute_started run.now
  rw [← breaker_execute] at started
  by_cases expired : run.breaker.TimeoutOver run.now
  · simp only [LawfulChange, expired.1, (started.entered expired).1]
    exact expired.2
  · have state := (started.kept expired).1
    unfold LawfulChange
    rw [state]
    cases before : run.breaker.state with
    | «open» =>
      apply Nat.lt_of_not_le
      intro reached
      exact expired ⟨before, reached⟩
    | halfOpen => rfl
    | closed => rfl

end

theorem lawfulChange_of_same (same : next.breaker.state = run.breaker.state)
    (outcome : event ≠ .execute) : run.LawfulChange event next := by
  unfold LawfulChange
  rw [same]
  cases run.breaker.state <;> cases event <;> simp_all

theorem Sound.countWithFailure_le (sound : run.Sound) : run.breaker.countWithFailure run.now ≤
      ((run.failures ++ [run.now]).filter (SlidingWindow.isWithin
        run.breaker.slidingWindow.durationMs run.now)).length := by
  have counted := (SlidingWindow.addEvent_sublist run.breaker.slidingWindow
    run.now).trans (sound.recorded.append (List.Sublist.refl [run.now]))
  exact (counted.filter _).length_le

theorem succeeds_cases (moved : run.succeeds call = some next) :
    (run.calls[call]? = some .closedState ∧ next = run.settle call run.breaker) ∨
      ∃ period, run.calls[call]? = some (.halfOpenState period) ∧
        next = { run.settle call run.breaker.halfOpenSucceeded with
          successes :=
            if period = run.period then run.successes + 1
            else run.successes } := by
  rw [succeeds] at moved
  cases found : run.calls[call]? with
  | none => simp [found] at moved
  | some stage =>
    cases stage with
    | closedState =>
      left
      simpa [found, eq_comm] using moved
    | halfOpenState period =>
      right
      refine ⟨period, rfl, ?_⟩
      simpa [found, eq_comm] using moved
    | settled => simp [found] at moved

theorem fails_cases (moved : run.fails call = some next) : (run.calls[call]? = some .closedState ∧
        next = { run.settle call (run.breaker.closedFailed run.now) with
          failures := run.failures ++ [run.now] }) ∨
      ∃ period, run.calls[call]? = some (.halfOpenState period) ∧
        next = { run.settle call (run.breaker.halfOpenFailed run.now) with
          failures := run.failures ++ [run.now] } := by
  rw [fails] at moved
  cases found : run.calls[call]? with
  | none => simp [found] at moved
  | some stage =>
    cases stage with
    | closedState =>
      left
      simpa [found, settle, eq_comm] using moved
    | halfOpenState period =>
      right
      refine ⟨period, rfl, ?_⟩
      simpa [found, settle, eq_comm] using moved
    | settled => simp [found] at moved

theorem Sound.succeeds (sound : run.Sound) (timely : run.Timely (.succeeds call))
    (moved : run.succeeds call = some next) : next.Sound := by
  rcases succeeds_cases moved with ⟨_, rfl⟩ | ⟨period, found, rfl⟩
  · exact ⟨sound.counted, sound.recorded⟩
  · rw [Timely, found] at timely
    constructor
    · intro halfOpen
      have before : run.breaker.state = .halfOpen := by
        have state : run.breaker.halfOpenSucceeded.state = .halfOpen := halfOpen
        rw [CircuitBreaker.state_halfOpenSucceeded] at state
        split at state
        · cases state
        · exact state
      have current := timely.1 before
      have counted := sound.counted before
      change (if period = run.period then run.successes + 1 else _) =
        run.breaker.halfOpenSucceeded.halfOpenCount
      rw [if_pos current, counted, CircuitBreaker.halfOpenCount_halfOpenSucceeded]
    · exact (CircuitBreaker.timestamps_halfOpenSucceeded _).trans sound.recorded

theorem Sound.fails (sound : run.Sound) (moved : run.fails call = some next) : next.Sound := by
  rcases fails_cases moved with ⟨_, rfl⟩ | ⟨period, _, rfl⟩
  · constructor
    · intro halfOpen
      have state : (run.breaker.closedFailed run.now).state = .halfOpen := halfOpen
      rw [CircuitBreaker.state_closedFailed] at state
      split at state
      · cases state
      · have counted := sound.counted state
        change run.successes = (run.breaker.closedFailed run.now).halfOpenCount
        rw [CircuitBreaker.halfOpenCount_closedFailed]
        exact counted
    · exact (CircuitBreaker.timestamps_closedFailed _ _).trans
        (sound.recorded.append (List.Sublist.refl _))
  · constructor
    · intro halfOpen
      cases halfOpen
    · exact (SlidingWindow.addEvent_sublist _ _).trans (sound.recorded.append (List.Sublist.refl _))

theorem Sound.step (sound : run.Sound) (timely : run.Timely event)
    (moved : step run event = some next) : next.Sound := by
  cases event with
  | elapse milliseconds =>
    cases moved
    exact ⟨sound.counted, sound.recorded⟩
  | execute =>
    cases moved
    exact sound.execute
  | succeeds call => exact sound.succeeds timely moved
  | fails call => exact sound.fails moved

theorem Sound.succeeds_lawful (sound : run.Sound)
    (timely : run.Timely (.succeeds call)) (moved : run.succeeds call = some next) :
    run.LawfulChange (.succeeds call) next := by
  rcases succeeds_cases moved with ⟨_, rfl⟩ | ⟨period, found, rfl⟩
  · exact lawfulChange_of_same rfl (by simp)
  · rw [Timely, found] at timely
    have state := run.breaker.state_halfOpenSucceeded
    by_cases enough : run.breaker.halfOpenRequests ≤ run.breaker.halfOpenCount + 1
    · rw [if_pos enough] at state
      cases before : run.breaker.state with
      | closed =>
        apply lawfulChange_of_same
        · exact state.trans before.symm
        · simp
      | «open» =>
        have few := timely.2 before
        omega
      | halfOpen =>
        have current := timely.1 before
        have counted := sound.counted before
        simp only [LawfulChange, before, settle, state, current, if_true]
        constructor
        · rw [StartedHalfOpen, found, current]
        · rw [counted]
          exact enough
    · rw [if_neg enough] at state
      exact lawfulChange_of_same state (by simp)

theorem Sound.fails_lawful (sound : run.Sound) (timely : run.Timely (.fails call))
    (moved : run.fails call = some next) :
    run.LawfulChange (.fails call) next := by
  rcases fails_cases moved with ⟨found, rfl⟩ | ⟨period, found, rfl⟩
  · rw [Timely, found] at timely
    have state := run.breaker.state_closedFailed run.now
    by_cases reached : run.breaker.maxFailures ≤ run.breaker.countWithFailure run.now
    · rw [if_pos reached] at state
      cases before : run.breaker.state with
      | closed =>
        have recent := sound.countWithFailure_le
        simp only [LawfulChange, before, settle, state, recentFailures,
          CircuitBreaker.slidingWindow_closedFailed]
        exact le_trans reached recent
      | «open» =>
        apply lawfulChange_of_same
        · exact state.trans before.symm
        · simp
      | halfOpen =>
        have few := timely before
        exact absurd reached (Nat.not_le_of_lt few)
    · rw [if_neg reached] at state
      exact lawfulChange_of_same state (by simp)
  · rw [Timely, found] at timely
    cases before : run.breaker.state with
    | closed =>
      have reached := timely.2 before
      have now : SlidingWindow.isWithin
          run.breaker.slidingWindow.durationMs run.now run.now = true := by
        simp [SlidingWindow.isWithin]
      simp only [LawfulChange, before, settle,
        CircuitBreaker.halfOpenFailed, CircuitBreaker.changeToState]
      simpa [now, CircuitBreaker.recordFailure, recentFailures] using reached
    | «open» =>
      apply lawfulChange_of_same
      · exact before.symm
      · simp
    | halfOpen =>
      have current := timely.1 before
      simp only [LawfulChange, before, settle,
        CircuitBreaker.halfOpenFailed, CircuitBreaker.changeToState]
      rw [StartedHalfOpen, found, current]

/-- A call of the half-open state that succeeds after another one has opened
the breaker again closes it. -/
private def lateSuccess : List BreakerEvent :=
  [.execute, .fails 0, .elapse 10, .execute, .execute, .fails 1, .succeeds 2]

/-- A call of the closed state that fails while the breaker is half open opens
it, and one that was started before that closes it in a later period. -/
private def earlierCalls : List BreakerEvent :=
  [.execute, .execute, .fails 0, .elapse 10, .execute, .fails 1, .elapse 10, .execute, .succeeds 2]

end BreakerRun

end N8n
