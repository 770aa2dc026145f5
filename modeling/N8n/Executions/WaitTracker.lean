import N8n.Library.Machine
import N8n.Library.OrderedMap

/-!
# The wait tracker

`WaitTracker` polls the database for waiting executions and keeps one entry
with a timer for each of them.  An entry keeps a poll from setting a second
timer.  `stopTracking` clears the timers and leaves the entries, so that a
leader that comes back does not set the cleared timers again.
-/

namespace N8n

open List OrderedMap

/-- A timer of `setTimeout` that is to call `startExecution`. -/
structure Timer where
  handle : Nat
  executionId : String
  delay : Int
deriving DecidableEq

structure WaitingEntry where
  executionId : String
  timer : Nat

/-- A row of the query for the executions that wait until the next poll. -/
structure WaitingExecution where
  id : String
  waitTill : Int

/-- The tracker and the timers that are set and neither cleared nor fired. -/
structure WaitTracker where
  waitingExecutions : OrderedMap String WaitingEntry := .empty
  mainTimer : Option Nat := none
  intervals : List Nat := []
  timers : List Timer := []
  nextHandle : Nat := 0

namespace WaitTracker

def has (tracker : WaitTracker) (executionId : String) : Bool :=
  tracker.waitingExecutions.has executionId

section

variable (tracker : WaitTracker)

def startTracking : WaitTracker :=
  { tracker with
    mainTimer := some tracker.nextHandle
    intervals := tracker.intervals ++ [tracker.nextHandle]
    nextHandle := tracker.nextHandle + 1 }

section

variable (executionId : String)

def setTimeout (delay : Int) : WaitTracker :=
  { tracker with
    timers := tracker.timers ++
      [{ handle := tracker.nextHandle
         executionId := executionId
         delay := delay }]
    nextHandle := tracker.nextHandle + 1 }

def clearTimeout (handle : Nat) : WaitTracker :=
  { tracker with
    timers := tracker.timers.filter fun timer => timer.handle ≠ handle }

/-- One turn of the loop of `getWaitingExecutions`. -/
def addTimer (now : Int) (tracker : WaitTracker) (execution : WaitingExecution) : WaitTracker :=
  match tracker.waitingExecutions.get? execution.id with
  | some _ => tracker
  | none =>
    { tracker.setTimeout execution.id (execution.waitTill - now) with
      waitingExecutions := tracker.waitingExecutions.set execution.id
        { executionId := execution.id
          timer := tracker.nextHandle } }

/-- What `getWaitingExecutions` does with the rows of its query. -/
def addTimers (now : Int) (executions : List WaitingExecution) : WaitTracker :=
  executions.foldl (addTimer now) tracker

def stopExecution : WaitTracker :=
  match tracker.waitingExecutions.get? executionId with
  | none => tracker
  | some entry =>
    { tracker.clearTimeout entry.timer with
      waitingExecutions := tracker.waitingExecutions.delete executionId }

/-- The part of `startExecution` before the execution is read. -/
def startExecution : WaitTracker :=
  { tracker with
    waitingExecutions := tracker.waitingExecutions.delete executionId }

def stopTracking : WaitTracker :=
  match tracker.mainTimer with
  | none => tracker
  | some interval =>
    { tracker with
      intervals := tracker.intervals.erase interval
      timers := tracker.timers.filter fun timer =>
        ∀ entry ∈ tracker.waitingExecutions.values, timer.handle ≠ entry.timer }

/-- A timer is set that will call `startExecution` for the execution. -/
def Timed : Prop :=
  ∃ timer ∈ tracker.timers, timer.executionId = executionId

end

end

instance (tracker : WaitTracker) (executionId : String) : Decidable (tracker.Timed executionId) :=
  inferInstanceAs (Decidable (∃ timer ∈ tracker.timers, _))

/-- The timer of an entry starts the execution of the entry, and only entries
that `stopTracking` left have no timer. -/
structure Sound (left : List String) (tracker : WaitTracker) : Prop where
  fresh : ∀ timer ∈ tracker.timers, timer.handle < tracker.nextHandle
  owned : ∀ executionId entry, tracker.waitingExecutions.get? executionId = some entry →
    entry.timer < tracker.nextHandle ∧
      ∀ timer ∈ tracker.timers, timer.handle = entry.timer → timer.executionId = executionId
  timed : ∀ executionId ∈ tracker.waitingExecutions.keys,
    executionId ∈ left ∨ tracker.Timed executionId
  known : ∀ executionId ∈ left, executionId ∈ tracker.waitingExecutions.keys

section Steps

variable {tracker : WaitTracker} {left : List String} {executionId : String}

theorem Sound.startTracking (sound : Sound left tracker) : Sound left tracker.startTracking := by
  constructor
  · intro timer mem
    exact Nat.lt_succ_of_lt (sound.fresh timer mem)
  · intro executionId entry found
    obtain ⟨bound, owned⟩ := sound.owned executionId entry found
    exact ⟨Nat.lt_succ_of_lt bound, owned⟩
  · exact sound.timed
  · exact sound.known

variable (now : Int) (execution : WaitingExecution)

theorem timed_addTimer_of_timed (timed : tracker.Timed executionId) :
    (tracker.addTimer now execution).Timed executionId := by
  obtain ⟨timer, mem, same⟩ := timed
  simp only [addTimer]
  split
  · exact ⟨timer, mem, same⟩
  · exact ⟨timer, mem_append_left _ mem, same⟩

theorem timed_of_timed_addTimer {now : Int} {execution : WaitingExecution}
    (known : executionId ∈ tracker.waitingExecutions.keys)
    (timed : (tracker.addTimer now execution).Timed executionId) :
    tracker.Timed executionId := by
  obtain ⟨timer, mem, same⟩ := timed
  simp only [addTimer] at mem
  split at mem
  · exact ⟨timer, mem, same⟩
  next absent =>
    rcases mem_append.mp mem with old | new
    · exact ⟨timer, old, same⟩
    · rw [mem_singleton.mp new] at same
      rw [get?_eq_none_iff] at absent
      subst same
      exact absurd known absent

theorem mem_keys_addTimer : executionId ∈ (tracker.addTimer now execution).waitingExecutions.keys ↔
      executionId = execution.id ∨ executionId ∈ tracker.waitingExecutions.keys := by
  simp only [addTimer]
  split
  next entry found =>
    have known : execution.id ∈ tracker.waitingExecutions.keys := by
      by_contra absent
      rw [← get?_eq_none_iff, found] at absent
      cases absent
    constructor
    · exact .inr
    · intro either
      rcases either with same | mem
      · exact same ▸ known
      · exact mem
  · exact mem_keys_set

theorem Sound.addTimer (sound : Sound left tracker) (now : Int) (execution : WaitingExecution) :
    Sound left (tracker.addTimer now execution) := by
  constructor
  · simp only [WaitTracker.addTimer]
    split
    · exact sound.fresh
    · intro timer mem
      rcases mem_append.mp mem with old | new
      · exact Nat.lt_succ_of_lt (sound.fresh timer old)
      · rw [mem_singleton.mp new]
        exact Nat.lt_succ_self _
  · intro executionId entry found
    simp only [WaitTracker.addTimer] at found ⊢
    split at found
    · exact sound.owned executionId entry found
    · rw [get?_set] at found
      split at found
      next same =>
        cases found
        subst same
        refine ⟨Nat.lt_succ_self _, ?_⟩
        intro timer mem handle
        rcases mem_append.mp mem with old | new
        · exact absurd handle (Nat.ne_of_lt (sound.fresh timer old))
        · simp [mem_singleton.mp new]
      · obtain ⟨bound, owned⟩ := sound.owned executionId entry found
        refine ⟨Nat.lt_succ_of_lt bound, ?_⟩
        intro timer mem handle
        rcases mem_append.mp mem with old | new
        · exact owned timer old handle
        · rw [mem_singleton.mp new] at handle
          exact absurd handle.symm (Nat.ne_of_lt bound)
  · intro known mem
    rcases (mem_keys_addTimer now execution).mp mem with same | old
    · subst same
      by_cases present : execution.id ∈ tracker.waitingExecutions.keys
      · exact (sound.timed _ present).imp_right (timed_addTimer_of_timed now execution)
      · right
        rw [← get?_eq_none_iff] at present
        simp [WaitTracker.addTimer, present, Timed, setTimeout]
    · exact (sound.timed _ old).imp_right (timed_addTimer_of_timed now execution)
  · intro known mem
    exact (mem_keys_addTimer now execution).mpr (.inr (sound.known known mem))

theorem Sound.addTimers (sound : Sound left tracker) (now : Int)
    (executions : List WaitingExecution) :
    Sound left (tracker.addTimers now executions) := by
  induction executions generalizing tracker with
  | nil => exact sound
  | cons execution executions ih => exact ih (sound.addTimer now execution)

variable (executions : List WaitingExecution)

theorem mem_keys_addTimers :
    executionId ∈ (tracker.addTimers now executions).waitingExecutions.keys ↔
      executionId ∈ executions.map WaitingExecution.id ∨
        executionId ∈ tracker.waitingExecutions.keys := by
  induction executions generalizing tracker with
  | nil => simp [WaitTracker.addTimers]
  | cons execution executions ih =>
    have rest := @ih (tracker.addTimer now execution)
    simp only [WaitTracker.addTimers, foldl_cons] at rest ⊢
    rw [rest, mem_keys_addTimer, map_cons, mem_cons]
    tauto

theorem timed_addTimers_of_timed (timed : tracker.Timed executionId) :
    (tracker.addTimers now executions).Timed executionId := by
  induction executions generalizing tracker with
  | nil => exact timed
  | cons execution executions ih =>
    exact ih (timed_addTimer_of_timed now execution timed)

theorem timed_of_timed_addTimers {now : Int} {executions : List WaitingExecution}
    (known : executionId ∈ tracker.waitingExecutions.keys)
    (timed : (tracker.addTimers now executions).Timed executionId) :
    tracker.Timed executionId := by
  induction executions generalizing tracker with
  | nil => exact timed
  | cons execution executions ih =>
    apply timed_of_timed_addTimer known
    apply ih
    · exact (mem_keys_addTimer now execution).mpr (.inr known)
    · exact timed

theorem mem_keys_delete {other : String} :
    other ∈ (tracker.waitingExecutions.delete executionId).keys ↔
      other ∈ tracker.waitingExecutions.keys ∧ other ≠ executionId := by
  simp only [OrderedMap.keys, mem_map, mem_entries_delete]
  constructor
  · intro kept
    obtain ⟨entry, ⟨mem, ne⟩, same⟩ := kept
    exact ⟨⟨entry, mem, same⟩, same ▸ ne⟩
  · intro kept
    obtain ⟨⟨entry, mem, same⟩, ne⟩ := kept
    exact ⟨entry, ⟨mem, same ▸ ne⟩, same⟩

theorem Sound.startExecution (sound : Sound left tracker) (executionId : String) :
    Sound (left.filter (· ≠ executionId)) (tracker.startExecution executionId) := by
  constructor
  · exact sound.fresh
  · intro other entry found
    simp only [WaitTracker.startExecution, get?_delete] at found
    split at found
    · cases found
    · exact sound.owned other entry found
  · intro other mem
    obtain ⟨old, ne⟩ := mem_keys_delete.mp mem
    refine (sound.timed other old).imp_left ?_
    intro known
    exact mem_filter.mpr ⟨known, by simpa using ne⟩
  · intro other mem
    obtain ⟨known, ne⟩ := mem_filter.mp mem
    exact mem_keys_delete.mpr ⟨sound.known other known, by simpa using ne⟩

theorem Sound.fire (sound : Sound left tracker) (timer : Timer) :
    Sound (left.filter (· ≠ timer.executionId)) ({ tracker with
        timers := tracker.timers.erase timer }.startExecution timer.executionId) := by
  have started := sound.startExecution timer.executionId
  constructor
  · intro other mem
    exact sound.fresh other (mem_of_mem_erase mem)
  · intro other entry found
    obtain ⟨bound, owned⟩ := started.owned other entry found
    exact ⟨bound, fun live mem =>
      owned live (mem_of_mem_erase mem)⟩
  · intro other mem
    refine (started.timed other mem).imp_right ?_
    intro ⟨live, liveMem, same⟩
    refine ⟨live, ?_, same⟩
    apply (mem_erase_of_ne ?_).mpr liveMem
    intro equal
    exact (mem_keys_delete.mp mem).2 (same ▸ equal ▸ rfl)
  · exact started.known

theorem Sound.timed_stopExecution (sound : Sound left tracker)
    {other : String} (ne : other ≠ executionId) (timed : tracker.Timed other) :
    (tracker.stopExecution executionId).Timed other := by
  obtain ⟨timer, mem, same⟩ := timed
  simp only [WaitTracker.stopExecution]
  split
  · exact ⟨timer, mem, same⟩
  next entry found =>
    refine ⟨timer, ?_, same⟩
    refine mem_filter.mpr ⟨mem, ?_⟩
    apply decide_eq_true
    intro handle
    have owner := (sound.owned executionId entry found).2 timer mem handle
    exact ne (same.symm.trans owner)

theorem Sound.stopExecution (sound : Sound left tracker) (executionId : String) :
    Sound (left.filter (· ≠ executionId)) (tracker.stopExecution executionId) := by
  have started := sound.startExecution executionId
  cases found : tracker.waitingExecutions.get? executionId with
  | none =>
    have unchanged : tracker.stopExecution executionId = tracker := by
      simp [WaitTracker.stopExecution, found]
    rw [get?_eq_none_iff] at found
    rw [unchanged, filter_eq_self.mpr]
    · exact sound
    · intro other mem
      apply decide_eq_true
      intro same
      exact found (same ▸ sound.known other mem)
  | some entry =>
    have cleared : tracker.stopExecution executionId = { tracker.clearTimeout entry.timer with
          waitingExecutions :=
            tracker.waitingExecutions.delete executionId } := by
      simp [WaitTracker.stopExecution, found]
    constructor
    · rw [cleared]
      intro timer mem
      exact sound.fresh timer (mem_filter.mp mem).1
    · rw [cleared]
      intro other kept keptFound
      obtain ⟨bound, owned⟩ := started.owned other kept keptFound
      exact ⟨bound, fun timer mem =>
        owned timer (mem_filter.mp mem).1⟩
    · intro other mem
      have kept : other ∈ (tracker.startExecution executionId).waitingExecutions.keys := by
        rw [cleared] at mem
        exact mem
      exact (started.timed other kept).imp_right
        (sound.timed_stopExecution (mem_keys_delete.mp kept).2)
    · rw [cleared]
      exact started.known

theorem Sound.stopTracking (sound : Sound left tracker) (started : tracker.mainTimer.isSome) :
    Sound tracker.waitingExecutions.keys tracker.stopTracking := by
  obtain ⟨interval, mainTimer⟩ := Option.isSome_iff_exists.mp started
  simp only [WaitTracker.stopTracking, mainTimer]
  constructor
  · intro timer mem
    exact sound.fresh timer (mem_filter.mp mem).1
  · intro executionId entry found
    obtain ⟨bound, owned⟩ := sound.owned executionId entry found
    exact ⟨bound, fun timer mem =>
      owned timer (mem_filter.mp mem).1⟩
  · exact fun _ mem => .inl mem
  · exact fun _ mem => mem

end Steps

end WaitTracker

/-- The tracker of an instance with what happened to it.  `awaited` are the
executions a poll returned while tracking that were neither started nor
cancelled since, and `left` those whose entries `stopTracking` left. -/
structure TrackerHistory where
  tracker : WaitTracker := {}
  polls : Nat := 0
  tracking : Bool := false
  awaited : List String := []
  left : List String := []

/-- The events around a tracker.  The instance gains or loses leadership, an
interval starts a poll, a poll gets its rows, a timer fires, and executions
are resumed or cancelled from outside. -/
inductive TrackerEvent where
  | startTracking
  | interval (handle : Nat)
  | getWaitingExecutions (now : Int) (executions : List WaitingExecution)
  | timeout (timer : Timer)
  | startExecution (executionId : String)
  | stopExecution (executionId : String)
  | stopTracking

namespace TrackerHistory

section

variable (history : TrackerHistory)

/-- An execution that was started or cancelled is no longer awaited. -/
def settle (executionId : String) (tracker : WaitTracker) : TrackerHistory :=
  { history with
    tracker := tracker
    awaited := history.awaited.filter (· ≠ executionId)
    left := history.left.filter (· ≠ executionId) }

def step : Machine TrackerHistory TrackerEvent
  | history, .startTracking =>
    some { history with
      tracker := history.tracker.startTracking
      polls := history.polls + 1
      tracking := true }
  | history, .interval handle =>
    if handle ∈ history.tracker.intervals then
      some { history with polls := history.polls + 1 }
    else none
  | history, .getWaitingExecutions now executions =>
    if history.polls = 0 then none
    else some { history with
      tracker := history.tracker.addTimers now executions
      polls := history.polls - 1
      awaited := if history.tracking then
          history.awaited ++ executions.map WaitingExecution.id
        else history.awaited }
  | history, .timeout timer =>
    if timer ∈ history.tracker.timers then
      some (history.settle timer.executionId ({ history.tracker with
          timers := history.tracker.timers.erase timer }.startExecution timer.executionId))
    else none
  | history, .startExecution executionId =>
    some (history.settle executionId (history.tracker.startExecution executionId))
  | history, .stopExecution executionId =>
    some (history.settle executionId (history.tracker.stopExecution executionId))
  | history, .stopTracking =>
    if history.tracker.mainTimer.isSome then
      some { history with
        tracker := history.tracker.stopTracking
        tracking := false
        awaited := []
        left := history.tracker.waitingExecutions.keys }
    else some { history with tracker := history.tracker.stopTracking }

/-- While tracking, each awaited execution has a timer that will start it. -/
def Watched : Prop :=
  history.tracking = true → ∀ executionId ∈ history.awaited, history.tracker.Timed executionId

/-- A poll while tracking returns no execution whose entry `stopTracking`
left, unless a timer of an earlier entry still starts it. -/
def ReturnsNoneLeft : TrackerEvent → Prop
  | .getWaitingExecutions _ executions => history.tracking = true →
      ∀ execution ∈ executions, execution.id ∈ history.left → history.tracker.Timed execution.id
  | _ => True

end

instance (history : TrackerHistory) (event : TrackerEvent) :
    Decidable (history.ReturnsNoneLeft event) :=
  match event with
  | .getWaitingExecutions _ executions =>
    inferInstanceAs (Decidable (_ → ∀ execution ∈ executions, _ → _))
  | .startTracking => isTrue True.intro
  | .interval _ => isTrue True.intro
  | .timeout _ => isTrue True.intro
  | .startExecution _ => isTrue True.intro
  | .stopExecution _ => isTrue True.intro
  | .stopTracking => isTrue True.intro

structure Invariant (history : TrackerHistory) : Prop where
  sound : history.tracker.Sound history.left
  watched : history.Watched
  idle : history.tracking = false → history.awaited = []

section Runs

variable {history next : TrackerHistory}

theorem invariant_start : Invariant {} := by
  constructor
  · constructor
    · intro timer mem
      cases mem
    · intro executionId entry found
      cases found
    · intro executionId mem
      cases mem
    · intro executionId mem
      cases mem
  · intro tracking
    cases tracking
  · intro _
    rfl

theorem mem_filter_ne {awaited : List String} {executionId other : String} :
    other ∈ awaited.filter (· ≠ executionId) ↔ other ∈ awaited ∧ other ≠ executionId := by
  simp

theorem Invariant.settle (inv : Invariant history) {executionId : String} {tracker : WaitTracker}
    (sound : tracker.Sound (history.left.filter (· ≠ executionId)))
    (timed : ∀ other, other ≠ executionId → history.tracker.Timed other → tracker.Timed other) :
    Invariant (history.settle executionId tracker) := by
  constructor
  · exact sound
  · intro tracking other mem
    obtain ⟨awaited, ne⟩ := mem_filter_ne.mp mem
    exact timed other ne (inv.watched tracking other awaited)
  · intro idle
    simp [TrackerHistory.settle, inv.idle idle]

variable (event : TrackerEvent)

theorem invariant_step (inv : Invariant history) (met : ReturnsNoneLeft history event)
    (moved : step history event = some next) : Invariant next := by
  cases event with
  | startTracking =>
    cases moved
    constructor
    · exact inv.sound.startTracking
    · intro _ executionId awaited
      cases tracking : history.tracking with
      | false =>
        rw [inv.idle tracking] at awaited
        cases awaited
      | true => exact inv.watched tracking executionId awaited
    · intro idle
      cases idle
  | interval handle =>
    obtain ⟨_, rfl⟩ := Machine.of_guarded moved
    exact ⟨inv.sound, inv.watched, inv.idle⟩
  | getWaitingExecutions now executions =>
    simp only [step] at moved
    split at moved
    · cases moved
    · cases moved
      have sound := inv.sound.addTimers now executions
      constructor
      · exact sound
      · intro tracking executionId awaited
        rw [if_pos tracking] at awaited
        rcases mem_append.mp awaited with old | returned
        · apply WaitTracker.timed_addTimers_of_timed
          exact inv.watched tracking executionId old
        · have known : executionId ∈ (history.tracker.addTimers now
              executions).waitingExecutions.keys :=
            (WaitTracker.mem_keys_addTimers now executions).mpr (.inl returned)
          rcases sound.timed executionId known with left | timed
          · obtain ⟨execution, mem, same⟩ := mem_map.mp returned
            apply WaitTracker.timed_addTimers_of_timed
            exact same ▸ met tracking execution mem (same ▸ left)
          · exact timed
      · intro idle
        simp only at idle ⊢
        simp [idle, inv.idle idle]
  | timeout timer =>
    obtain ⟨_, rfl⟩ := Machine.of_guarded moved
    apply inv.settle (inv.sound.fire timer)
    intro other ne ⟨live, mem, same⟩
    refine ⟨live, (mem_erase_of_ne ?_).mpr mem, same⟩
    intro equal
    exact ne (same.symm.trans (congrArg Timer.executionId equal))
  | startExecution executionId =>
    cases moved
    apply inv.settle (inv.sound.startExecution executionId)
    exact fun _ _ timed => timed
  | stopExecution executionId =>
    cases moved
    apply inv.settle (inv.sound.stopExecution executionId)
    exact fun _ ne => inv.sound.timed_stopExecution ne
  | stopTracking =>
    simp only [step] at moved
    split at moved
    next started =>
      cases moved
      constructor
      · exact inv.sound.stopTracking started
      · intro tracking
        cases tracking
      · exact fun _ => rfl
    next unstarted =>
      cases moved
      have unchanged : history.tracker.stopTracking = history.tracker := by
        rw [Option.not_isSome_iff_eq_none] at unstarted
        simp [WaitTracker.stopTracking, unstarted]
      rw [unchanged]
      exact inv

theorem returnsNoneLeft_of_watched (inv : Invariant history)
    (moved : step history event = some next) (watched : next.Watched) :
    ReturnsNoneLeft history event := by
  cases event with
  | getWaitingExecutions now executions =>
    intro tracking execution mem left
    simp only [step] at moved
    split at moved
    · cases moved
    · cases moved
      apply WaitTracker.timed_of_timed_addTimers
      · exact inv.sound.known execution.id left
      · apply watched tracking
        apply mem_append_right
        exact mem_map_of_mem mem
  | _ => exact True.intro

end Runs

/-- Throughout a run of the events each awaited execution has a timer exactly
when no poll while tracking returns an execution whose entry `stopTracking`
left behind with no timer that starts it. -/
theorem watched_iff {events : List TrackerEvent} {last : TrackerHistory}
    (run : step.run {} events = some last) :
    step.Always Watched {} events ↔ step.Meets ReturnsNoneLeft {} events :=
  Machine.always_iff_meets (fun _ event _ invariant met stepped =>
      invariant_step event invariant met stepped)
    (fun _ invariant => invariant.watched)
    (fun _ event _ invariant stepped watched =>
      returnsNoneLeft_of_watched event invariant stepped watched)
    invariant_start run

section Example

def leadershipRegained : List TrackerEvent :=
  [.startTracking, .getWaitingExecutions 0 [{ id := "7", waitTill := 50000 }], .stopTracking,
   .startTracking,
   .getWaitingExecutions 20000 [{ id := "7", waitTill := 50000 }]]

def startedInTime : List TrackerEvent :=
  [.startTracking, .getWaitingExecutions 0 [{ id := "7", waitTill := 50000 }],
   .timeout { handle := 1, executionId := "7", delay := 50000 },
   .stopTracking,
   .startTracking,
   .getWaitingExecutions 60000 [{ id := "7", waitTill := 90000 }]]

theorem watched_startedInTime : step.Always Watched {} startedInTime := by
  obtain ⟨last, run⟩ : ∃ last, step.run {} startedInTime = some last := ⟨_, rfl⟩
  apply (watched_iff run).mpr
  decide

theorem not_watched_leadershipRegained : ∃ last, step.run {} leadershipRegained = some last ∧
      last.awaited = ["7"] ∧ last.tracker.has "7" = true ∧
      last.tracker.timers = [] ∧ ¬ last.Watched := by
  refine ⟨_, rfl, rfl, rfl, rfl, ?_⟩
  intro watched
  obtain ⟨timer, mem, _⟩ := watched rfl "7" (by decide)
  cases mem

end Example

end TrackerHistory

end N8n
