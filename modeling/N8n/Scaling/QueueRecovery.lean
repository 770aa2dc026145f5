import N8n.Library.Machine

/-!
# The schedule of queue recovery

A timer starts a recovery cycle, and the cycle sets the next timer when it has
finished or failed.  Only the handle of the last timer is kept, and a cycle
that is running has none, so the schedule is single as long as nobody steps
down or starts a schedule while a cycle runs.
-/

namespace N8n

structure RecoveryTimer where
  id : Nat
  waitMs : Nat

/-- What `ScalingService` keeps of queue recovery, with the timers that are
pending and the number of recovery cycles that are running.  `steppedDown` says
that the last change of the role was a stepdown, `strayCycle` that a cycle has
been started in such a state. -/
structure QueueRecovery where
  isLeader : Bool
  isQueueSetUp : Bool := false
  waitMs : Nat
  timeout : Option Nat := none
  nextTimer : Nat := 0
  pending : List RecoveryTimer := []
  running : Nat := 0
  steppedDown : Bool := false
  strayCycle : Bool := false

/-- What happens to the service.  A cycle that finishes comes with the time
that `recoverFromQueue` returned, one that fails with none. -/
inductive RecoveryEvent where
  | setupQueue
  | leaderTakeover
  | leaderStepdown
  | timerFires (timer : Nat)
  | cycleEnds (nextWaitMs : Option Nat)

namespace QueueRecovery

section

variable (recovery : QueueRecovery)

/-- `setTimeout` sets a new timer, and its handle replaces the last one. -/
def scheduleQueueRecovery (waitMs : Option Nat) : QueueRecovery :=
  let timer :=
    { id := recovery.nextTimer
      waitMs := waitMs.getD recovery.waitMs }
  { recovery with
    timeout := some timer.id
    nextTimer := recovery.nextTimer + 1
    pending := recovery.pending ++ [timer] }

def stopQueueRecovery : QueueRecovery :=
  match recovery.timeout with
  | none => recovery
  | some handle =>
    { recovery with
      pending := recovery.pending.filter fun timer => timer.id ≠ handle }

def setupQueue : QueueRecovery :=
  if recovery.isQueueSetUp then recovery
  else
    let created := { recovery with isQueueSetUp := true }
    if created.isLeader then created.scheduleQueueRecovery (some 0)
    else created

def leaderTakeover : QueueRecovery :=
  { recovery with
    isLeader := true
    steppedDown := false }.scheduleQueueRecovery none

def leaderStepdown : QueueRecovery :=
  { recovery with
    isLeader := false
    steppedDown := true }.stopQueueRecovery

/-- The callback of the timer begins a recovery cycle. -/
def timerFires (timer : Nat) : Option QueueRecovery :=
  if recovery.pending.any fun found => found.id = timer then
    some { recovery with
      pending := recovery.pending.filter fun found => found.id ≠ timer
      running := recovery.running + 1
      strayCycle := recovery.strayCycle || recovery.steppedDown }
  else none

/-- The rest of the callback, with the default time after a failure. -/
def cycleEnds (nextWaitMs : Option Nat) : Option QueueRecovery :=
  if recovery.running = 0 then none
  else
    some ({ recovery with
      running := recovery.running - 1 }.scheduleQueueRecovery nextWaitMs)

def step : Machine QueueRecovery RecoveryEvent
  | recovery, .setupQueue => some recovery.setupQueue
  | recovery, .leaderTakeover => some recovery.leaderTakeover
  | recovery, .leaderStepdown => some recovery.leaderStepdown
  | recovery, .timerFires timer => recovery.timerFires timer
  | recovery, .cycleEnds nextWaitMs => recovery.cycleEnds nextWaitMs

/-- At most one timer is pending, and no cycle was started between a stepdown
and the next takeover. -/
structure RunsOnce (recovery : QueueRecovery) : Prop where
  single : recovery.pending.length ≤ 1
  noStray : recovery.strayCycle = false

/-- Timers fire and cycles end, and the role does not change. -/
def goesOn : RecoveryEvent → Bool
  | .timerFires _ => true
  | .cycleEnds _ => true
  | _ => false

/-- The schedule is right and remains so while timers fire and cycles end. -/
def RemainsRight : Prop :=
  ∀ later, (∀ event ∈ later, goesOn event = true) → step.Always RunsOnce recovery later

/-- Timers that are pending and cycles that are running. -/
def schedules : Nat :=
  recovery.pending.length + recovery.running

/-- Nobody steps down while a cycle is running, and nobody starts a schedule
while there is one. -/
def keepsSingle : RecoveryEvent → Bool
  | .setupQueue => recovery.isQueueSetUp || !recovery.isLeader || recovery.schedules = 0
  | .leaderTakeover => recovery.schedules = 0
  | .leaderStepdown => recovery.running = 0
  | .timerFires _ => true
  | .cycleEnds _ => true

def KeepsSingle (event : RecoveryEvent) : Prop :=
  keepsSingle recovery event = true

end

instance (recovery : QueueRecovery) (event : RecoveryEvent) :
    Decidable (KeepsSingle recovery event) :=
  inferInstanceAs (Decidable (_ = _))

variable {recovery next : QueueRecovery} {event : RecoveryEvent}

/-- There is one schedule at most, whose timer is the one of the handle, and
none after a stepdown. -/
structure Single (recovery : QueueRecovery) : Prop where
  schedules : recovery.schedules ≤ 1
  handle : ∀ timer ∈ recovery.pending, recovery.timeout = some timer.id
  stopped : recovery.steppedDown = true → recovery.schedules = 0 ∧ recovery.isLeader = false
  noStray : recovery.strayCycle = false

theorem Single.runsOnce (single : Single recovery) : RunsOnce recovery := by
  constructor
  · exact Nat.le_trans (Nat.le_add_right _ _) single.schedules
  · exact single.noStray

theorem Single.steppedDown_eq_false (single : Single recovery)
    (active : recovery.schedules ≠ 0 ∨ recovery.isLeader = true) :
    recovery.steppedDown = false := by
  cases moved : recovery.steppedDown with
  | false => rfl
  | true =>
    obtain ⟨none, notLeader⟩ := single.stopped moved
    rcases active with busy | isLeader
    · exact (busy none).elim
    · rw [notLeader] at isLeader
      cases isLeader

theorem single_scheduleQueueRecovery {waitMs : Option Nat}
    (none : recovery.schedules = 0) (running : recovery.steppedDown = false)
    (noStray : recovery.strayCycle = false) :
    Single (recovery.scheduleQueueRecovery waitMs) := by
  obtain ⟨noTimer, noCycle⟩ := Nat.add_eq_zero_iff.mp none
  have empty := List.eq_nil_of_length_eq_zero noTimer
  constructor
  · simp [QueueRecovery.schedules, scheduleQueueRecovery, empty, noCycle]
  · simp [scheduleQueueRecovery, empty]
  · simp [scheduleQueueRecovery, running]
  · exact noStray

theorem Single.setupQueue (single : Single recovery) (keeps : KeepsSingle recovery .setupQueue) :
    Single recovery.setupQueue := by
  rw [QueueRecovery.setupQueue]
  by_cases isSetUp : recovery.isQueueSetUp
  · rw [if_pos isSetUp]
    exact single
  · rw [if_neg isSetUp]
    by_cases isLeader : recovery.isLeader
    · simp only [isLeader, if_true]
      apply single_scheduleQueueRecovery
      · simpa [KeepsSingle, keepsSingle, isSetUp, isLeader, QueueRecovery.schedules] using keeps
      · exact single.steppedDown_eq_false (.inr isLeader)
      · exact single.noStray
    · rw [if_neg isLeader]
      exact ⟨single.schedules, single.handle, single.stopped, single.noStray⟩

theorem Single.pending_stopQueueRecovery (single : Single recovery) :
    recovery.stopQueueRecovery.pending = [] := by
  cases handle : recovery.timeout with
  | none =>
    rw [stopQueueRecovery, handle]
    apply List.eq_nil_iff_forall_not_mem.mpr
    intro timer mem
    have stored := single.handle timer mem
    rw [handle] at stored
    cases stored
  | some id =>
    simp only [stopQueueRecovery, handle, List.filter_eq_nil_iff]
    intro timer mem
    have stored := single.handle timer mem
    rw [handle] at stored
    simp [Option.some.inj stored]

theorem Single.leaderStepdown (single : Single recovery)
    (idle : recovery.running = 0) : Single recovery.leaderStepdown := by
  have frame : recovery.leaderStepdown.running = recovery.running ∧
      recovery.leaderStepdown.isLeader = false ∧
      recovery.leaderStepdown.strayCycle = recovery.strayCycle := by
    unfold QueueRecovery.leaderStepdown stopQueueRecovery
    cases recovery.timeout <;> exact ⟨rfl, rfl, rfl⟩
  have empty : recovery.leaderStepdown.pending = [] := by
    have cleared := single.pending_stopQueueRecovery
    unfold QueueRecovery.leaderStepdown
    unfold stopQueueRecovery at cleared ⊢
    cases handle : recovery.timeout <;> simpa [handle] using cleared
  have none : recovery.leaderStepdown.schedules = 0 := by
    rw [QueueRecovery.schedules, empty, frame.1, idle]
    rfl
  constructor
  · omega
  · simp [empty]
  · intro _
    exact ⟨none, frame.2.1⟩
  · exact frame.2.2.trans single.noStray

theorem Single.timerFires (single : Single recovery) {timer : Nat}
    (fired : recovery.timerFires timer = some next) : Single next := by
  obtain ⟨found, rfl⟩ := Machine.of_guarded fired
  obtain ⟨stored, mem, id⟩ := List.any_eq_true.mp found
  have count := single.schedules
  rw [QueueRecovery.schedules] at count
  have some := List.length_pos_of_mem mem
  obtain ⟨only, pending⟩ := List.length_eq_one_iff.mp (show recovery.pending.length = 1 by omega)
  have fires : recovery.pending.filter (fun found => found.id ≠ timer) = [] := by
    rw [pending] at mem ⊢
    obtain rfl := List.mem_singleton.mp mem
    simpa using id
  have notStopped : recovery.steppedDown = false := by
    apply single.steppedDown_eq_false
    rw [QueueRecovery.schedules]
    omega
  constructor
  · simp only [QueueRecovery.schedules, fires, List.length_nil]
    omega
  · intro other left
    change other ∈ recovery.pending.filter _ at left
    rw [fires] at left
    cases left
  · simp [notStopped]
  · simp [notStopped, single.noStray]

theorem Single.cycleEnds (single : Single recovery) {nextWaitMs : Option Nat}
    (ended : recovery.cycleEnds nextWaitMs = some next) : Single next := by
  unfold QueueRecovery.cycleEnds at ended
  split at ended
  · cases ended
  next runs =>
    cases ended
    have count := single.schedules
    rw [QueueRecovery.schedules] at count
    apply single_scheduleQueueRecovery
    · change recovery.pending.length + (recovery.running - 1) = 0
      omega
    · apply single.steppedDown_eq_false
      rw [QueueRecovery.schedules]
      omega
    · exact single.noStray

theorem Single.step (single : Single recovery) (keeps : KeepsSingle recovery event)
    (moved : step recovery event = some next) : Single next := by
  cases event with
  | setupQueue =>
    cases moved
    exact single.setupQueue keeps
  | leaderTakeover =>
    cases moved
    apply single_scheduleQueueRecovery
    · exact decide_eq_true_iff.mp keeps
    · rfl
    · exact single.noStray
  | leaderStepdown =>
    cases moved
    exact single.leaderStepdown (decide_eq_true_iff.mp keeps)
  | timerFires timer => exact single.timerFires moved
  | cycleEnds nextWaitMs => exact single.cycleEnds moved

theorem keepsSingle_of_goesOn (isGoingOn : goesOn event = true) : KeepsSingle recovery event := by
  cases event with
  | timerFires timer => rfl
  | cycleEnds nextWaitMs => rfl
  | _ => cases isGoingOn

theorem meets_of_goesOn {later : List RecoveryEvent}
    (isGoingOn : ∀ event ∈ later, goesOn event = true) (recovery : QueueRecovery) :
    QueueRecovery.step.Meets KeepsSingle recovery later := by
  induction later generalizing recovery with
  | nil => exact True.intro
  | cons event later ih =>
    obtain ⟨first, rest⟩ := List.forall_mem_cons.mp isGoingOn
    exact ⟨keepsSingle_of_goesOn first, fun next _ => ih rest next⟩

theorem Single.remainsRight (single : Single recovery) : RemainsRight recovery := by
  intro later isGoingOn
  refine Machine.always_of_meets ?_ ?_ single (meets_of_goesOn isGoingOn recovery)
  · intro recovery event next single keeps moved
    exact single.step keeps moved
  · intro recovery single
    exact single.runsOnce

theorem RemainsRight.runsOnce (right : RemainsRight recovery) : RunsOnce recovery :=
  right [] (by simp) [] (List.prefix_refl _) recovery rfl

theorem RemainsRight.step (right : RemainsRight recovery) (isGoingOn : goesOn event = true)
    (moved : QueueRecovery.step recovery event = some next) :
    RemainsRight next := by
  intro later laterGoesOn
  have always := right (event :: later) (List.forall_mem_cons.mpr ⟨isGoingOn, laterGoesOn⟩)
  exact always.tail moved

theorem RemainsRight.cycleEnds (right : RemainsRight recovery) (runs : recovery.running ≠ 0) :
    RemainsRight ({ recovery with
      running := recovery.running - 1 }.scheduleQueueRecovery none) := by
  have moved : QueueRecovery.step recovery (.cycleEnds none) = some ({ recovery with
        running := recovery.running - 1 }.scheduleQueueRecovery none) := by
    rw [QueueRecovery.step, QueueRecovery.cycleEnds, if_neg runs]
  exact right.step rfl moved

theorem not_remainsRight_of_two (two : 2 ≤ recovery.schedules) : ¬ RemainsRight recovery := by
  intro right
  induction cycles : recovery.running generalizing recovery with
  | zero =>
    have single := right.runsOnce.single
    rw [QueueRecovery.schedules] at two
    omega
  | succ count ih =>
    apply ih _ (right.cycleEnds (by omega))
    · simp [scheduleQueueRecovery, cycles]
    · simp only [QueueRecovery.schedules, scheduleQueueRecovery,
        List.length_append, List.length_singleton] at two ⊢
      omega

theorem not_remainsRight_of_stepdown (steppedDown : recovery.steppedDown = true)
    (runs : recovery.running ≠ 0) : ¬ RemainsRight recovery := by
  intro right
  have ended := right.cycleEnds runs
  have found : ∃ next, QueueRecovery.step ({ recovery with
        running := recovery.running - 1 }.scheduleQueueRecovery none)
      (.timerFires recovery.nextTimer) = some next ∧
        next.strayCycle = true := by
    simp [QueueRecovery.step, timerFires, scheduleQueueRecovery, steppedDown]
  obtain ⟨next, fired, stray⟩ := found
  have noStray := (ended.step rfl fired).runsOnce.noStray
  rw [stray] at noStray
  cases noStray

theorem running_leaderStepdown (recovery : QueueRecovery) :
    recovery.leaderStepdown.running = recovery.running ∧
      recovery.leaderStepdown.steppedDown = true := by
  unfold QueueRecovery.leaderStepdown stopQueueRecovery
  cases recovery.timeout <;> exact ⟨rfl, rfl⟩

theorem keepsSingle_of_remainsRight (moved : step recovery event = some next)
    (right : RemainsRight next) : KeepsSingle recovery event := by
  by_contra spoils
  cases event with
  | setupQueue =>
    cases moved
    simp only [KeepsSingle, keepsSingle, Bool.or_eq_true, not_or,
      Bool.not_eq_true, Bool.not_eq_false', decide_eq_false_iff_not]
      at spoils
    obtain ⟨⟨notSetUp, isLeader⟩, busy⟩ := spoils
    apply not_remainsRight_of_two _ right
    simp only [setupQueue, notSetUp, isLeader, QueueRecovery.schedules,
      scheduleQueueRecovery] at busy ⊢
    simp
    omega
  | leaderTakeover =>
    cases moved
    apply not_remainsRight_of_two _ right
    have busy : recovery.schedules ≠ 0 := by
      simpa [KeepsSingle, keepsSingle] using spoils
    rw [QueueRecovery.schedules] at busy
    simp only [leaderTakeover, QueueRecovery.schedules,
      scheduleQueueRecovery, List.length_append, List.length_singleton]
    omega
  | leaderStepdown =>
    cases moved
    obtain ⟨running, steppedDown⟩ := running_leaderStepdown recovery
    apply not_remainsRight_of_stepdown steppedDown _ right
    rw [running]
    simpa [KeepsSingle, keepsSingle] using spoils
  | timerFires timer | cycleEnds nextWaitMs => exact spoils rfl

variable (isLeader : Bool) (waitMs : Nat)

/-- The service as it is created, with the role that the instance has then. -/
def create : QueueRecovery :=
  { isLeader
    waitMs }

theorem create_single : Single (create isLeader waitMs) := by
  constructor
  · simp [QueueRecovery.schedules, create]
  · simp [create]
  · simp [create]
  · rfl

/-- Throughout a run, and however the timers and cycles of its states go on,
one timer at most is pending and no cycle is started behind a stepdown, exactly
if nobody steps down during a cycle and nobody starts a second schedule. -/
theorem remainsRight_iff_keepsSingle (events : List RecoveryEvent) (last : QueueRecovery)
    (reached : step.run (create isLeader waitMs) events = some last) :
    step.Always RemainsRight (create isLeader waitMs) events ↔
      step.Meets KeepsSingle (create isLeader waitMs) events := by
  refine Machine.always_iff_meets ?_ ?_ ?_ (create_single isLeader waitMs) reached
  · intro recovery event next single keeps stepped
    exact single.step keeps stepped
  · intro recovery single
    exact single.remainsRight
  · intro recovery event next _ stepped right
    exact keepsSingle_of_remainsRight stepped right

/-- A leader sets the queue up, its cycles go on, and it steps down between two
of them. -/
private def soundSchedule : List RecoveryEvent :=
  [.setupQueue, .timerFires 0, .cycleEnds (some 60), .timerFires 1,
    .cycleEnds none, .leaderStepdown, .leaderTakeover]

theorem remainsRight_soundSchedule : ∃ last, step.run (create true 60) soundSchedule = some last ∧
      step.Always RemainsRight (create true 60) soundSchedule :=
  ⟨_, rfl, (remainsRight_iff_keepsSingle true 60 soundSchedule _ rfl).mpr (by decide +kernel)⟩

private def stepdownInCycle : List RecoveryEvent :=
  [.setupQueue, .timerFires 0, .leaderStepdown, .cycleEnds none, .timerFires 1]

private def takeoverBeforeSetup : List RecoveryEvent :=
  [.leaderTakeover, .setupQueue]

theorem not_runsOnce_stepdownInCycle : ¬ step.Always RunsOnce (create true 60) stepdownInCycle ∧
      ¬ step.Always RunsOnce (create false 60) takeoverBeforeSetup := by
  constructor
  · intro always
    have noStray := (always _ (List.prefix_refl _) _ rfl).noStray
    revert noStray
    decide +kernel
  · intro always
    have single := (always _ (List.prefix_refl _) _ rfl).single
    revert single
    decide +kernel

end QueueRecovery

end N8n
