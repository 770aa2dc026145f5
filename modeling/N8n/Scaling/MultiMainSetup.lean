import Mathlib.Data.List.Basic
import Mathlib.Logic.Function.Basic
import N8n.Library.Machine

/-!
# The leader of a multi-main setup

The mains share a leader key in Redis.  A check reads the key, and when it is
vacant steps down and sets it to the instance's own id; each command takes
effect at some moment between the call and the reply, and checks of one
instance may overlap.
-/

namespace N8n

inductive InstanceRole where
  | unset
  | leader
  | follower
deriving DecidableEq

/-- Where a check or a start-up is: a command has been sent to Redis, or its
reply is on the way back. -/
inductive LeaderPhase where
  | getSent
  | getReplied (leaderId : Option String)
  | expireSent
  | expireReplied
  | setSent
  | setReplied (keySetSuccessfully : Bool)
deriving DecidableEq

/-- A call of `checkLeader`, or of `init`, which sets the interval behind its
attempt. -/
structure LeaderCheck where
  phase : LeaderPhase
  isStartUp : Bool := false

structure MainInstance where
  role : InstanceRole := .unset
  isRunning : Bool := false
  hasInterval : Bool := false
  checks : List LeaderCheck := []
  isClearing : Bool := false

/-- The mains by their host ids.  `removedOther` says that a shutdown has
deleted the key of another instance. -/
structure MultiMain where
  leaderKey : Option String := none
  instances : String → MainInstance := fun _ => {}
  removedOther : Bool := false

inductive MultiMainEvent where
  | startUp (hostId : String)
  | beginCheck (hostId : String)
  | shutdown (hostId : String)
  | redisExecutes (hostId : String) (check : Nat)
  | resume (hostId : String) (check : Nat)
  | redisClears (hostId : String)
  | keyExpires

namespace MainInstance

section

variable (main : MainInstance)

def markAsLeader : MainInstance :=
  { main with role := .leader }

def markAsFollower : MainInstance :=
  { main with role := .follower }

/-- The rest of `checkLeader` or `tryBecomeLeader` behind a reply, and the
command that it sends next; a check without one is over. -/
def handleReply (hostId : String) : LeaderPhase → MainInstance × Option LeaderPhase
  | .getReplied (some leaderId) =>
    if leaderId = hostId then (main, some .expireSent)
    else if main.role = .leader then (main.markAsFollower, none)
    else (main, none)
  | .getReplied none => (main.markAsFollower, some .setSent)
  | .setReplied true => (main.markAsLeader, none)
  | .setReplied false => (main.markAsFollower, none)
  | _ => (main, none)

/-- A start-up that is over has set the interval. -/
def continueCheck (hostId : String) (index : Nat) (check : LeaderCheck) : MainInstance :=
  let (handled, command) := main.handleReply hostId check.phase
  match command with
  | some phase =>
    { handled with
      checks := handled.checks.set index { check with phase } }
  | none =>
    { handled with
      checks := handled.checks.eraseIdx index
      hasInterval := handled.hasInterval || check.isStartUp }

end

end MainInstance

namespace LeaderPhase

/-- Behind the phase comes a reply. -/
def isReply : LeaderPhase → Bool
  | .getReplied _ => true
  | .expireReplied => true
  | .setReplied _ => true
  | _ => false

/-- Redis executes the command that was sent.  `setIfNotExists` sets the key
only if there is none. -/
def execute (hostId : String) (leaderKey : Option String) :
    LeaderPhase → Option (Option String × LeaderPhase)
  | .getSent => some (leaderKey, .getReplied leaderKey)
  | .expireSent => some (leaderKey, .expireReplied)
  | .setSent =>
    match leaderKey with
    | none => some (some hostId, .setReplied true)
    | some _ => some (leaderKey, .setReplied false)
  | _ => none

end LeaderPhase

namespace MultiMain

def update (mains : MultiMain) (hostId : String) (main : MainInstance) : MultiMain :=
  { mains with instances := Function.update mains.instances hostId main }

section

variable (mains : MultiMain)

section

variable (hostId : String)

def startUp : Option MultiMain :=
  let main := mains.instances hostId
  if main.isRunning || main.checks ≠ [] || main.isClearing then none
  else some (mains.update hostId
    { isRunning := true
      checks := [{ phase := .setSent, isStartUp := true }] })

def beginCheck : Option MultiMain :=
  let main := mains.instances hostId
  if main.hasInterval then
    some (mains.update hostId { main with checks := main.checks ++ [{ phase := .getSent }] })
  else none

/-- Checks that are in progress go on behind the shutdown. -/
def shutdown : Option MultiMain :=
  let main := mains.instances hostId
  if main.isRunning then
    some (mains.update hostId { main with
        isRunning := false
        hasInterval := false
        isClearing := main.role = .leader })
  else none

def redisExecutes (index : Nat) : Option MultiMain := do
  let main := mains.instances hostId
  let check ← main.checks[index]?
  let (leaderKey, phase) ← check.phase.execute hostId mains.leaderKey
  some { mains.update hostId { main with checks := main.checks.set index { check with phase } } with
    leaderKey }

def resume (index : Nat) : Option MultiMain := do
  let main := mains.instances hostId
  let check ← main.checks[index]?
  if check.phase.isReply then
    some (mains.update hostId (main.continueCheck hostId index check))
  else none

/-- Redis deletes the key, whoever holds it. -/
def redisClears : Option MultiMain :=
  let main := mains.instances hostId
  if main.isClearing then
    some { mains.update hostId { main with isClearing := false } with
      leaderKey := none
      removedOther := mains.removedOther ||
        (mains.leaderKey.isSome && mains.leaderKey ≠ some hostId) }
  else none

def step : Machine MultiMain MultiMainEvent
  | mains, .startUp hostId => mains.startUp hostId
  | mains, .beginCheck hostId => mains.beginCheck hostId
  | mains, .shutdown hostId => mains.shutdown hostId
  | mains, .redisExecutes hostId check => mains.redisExecutes hostId check
  | mains, .resume hostId check => mains.resume hostId check
  | mains, .redisClears hostId => mains.redisClears hostId
  | mains, .keyExpires => some { mains with leaderKey := none }

/-- An instance whose id is in the key and which has no check or start-up in
progress is the leader for itself, and no shutdown has removed the key of
another one. -/
structure HolderKnows (mains : MultiMain) : Prop where
  holder : ∀ hostId, mains.leaderKey = some hostId → (mains.instances hostId).checks = [] →
    (mains.instances hostId).role = .leader
  kept : mains.removedOther = false

/-- The reply of this phase makes the instance a follower and ends its
check. -/
def dismisses : LeaderPhase → Bool
  | .getReplied (some leaderId) => leaderId ≠ hostId
  | .setReplied keySetSuccessfully => !keySetSuccessfully
  | _ => false

end

/-- No attempt to set the key meets the instance's own id, no reply that is out
of date makes the holder a follower, and no key of another instance is
deleted. -/
def keepsLeader : MultiMainEvent → Bool
  | .redisExecutes hostId index =>
    (mains.instances hostId).checks[index]?.all fun check =>
      check.phase ≠ .setSent || mains.leaderKey ≠ some hostId
  | .resume hostId index =>
    (mains.instances hostId).checks[index]?.all fun check =>
      !dismisses hostId check.phase || mains.leaderKey ≠ some hostId ||
        (mains.instances hostId).role ≠ .leader
  | .redisClears hostId =>
    mains.leaderKey = none || mains.leaderKey = some hostId
  | _ => true

def KeepsLeader (event : MultiMainEvent) : Prop :=
  keepsLeader mains event = true

end

instance (mains : MultiMain) (event : MultiMainEvent) : Decidable (KeepsLeader mains event) :=
  inferInstanceAs (Decidable (_ = _))

/-- The check will set the key, or has set it and will hear so. -/
def becomesLeader (check : LeaderCheck) : Bool :=
  check.phase = .setSent || check.phase = .setReplied true

/-- The instance is the leader for itself or on the way to that. -/
def Knows (main : MainInstance) : Prop :=
  main.role = .leader ∨ ∃ check ∈ main.checks, becomesLeader check = true

/-- Every holder of the key is the leader for itself or on the way to that. -/
structure Led (mains : MultiMain) : Prop where
  knows : ∀ hostId, mains.leaderKey = some hostId → Knows (mains.instances hostId)
  kept : mains.removedOther = false

variable {mains next : MultiMain} {event : MultiMainEvent} {hostId : String}

theorem Led.holderKnows (led : Led mains) : HolderKnows mains := by
  constructor
  · intro hostId held idle
    rcases led.knows hostId held with leads | ⟨check, mem, _⟩
    · exact leads
    · rw [idle] at mem
      cases mem
  · exact led.kept

variable {main : MainInstance}

theorem Led.change (led : Led mains)
    {leaderKey : Option String} (knows : leaderKey = some hostId → Knows main)
    (others : ∀ other, other ≠ hostId → leaderKey = some other → mains.leaderKey = some other) :
    Led { mains.update hostId main with leaderKey } := by
  constructor
  · intro other held
    by_cases same : other = hostId
    · subst same
      simpa [MultiMain.update] using knows held
    · have before := led.knows other (others other same held)
      simpa [MultiMain.update, same] using before
  · exact led.kept

theorem Led.update (led : Led mains) (knows : mains.leaderKey = some hostId → Knows main) :
    Led (mains.update hostId main) :=
  led.change knows fun _ _ held => held

variable {index : Nat}

theorem redisExecutes_cases (moved : mains.redisExecutes hostId index = some next) :
    ∃ check leaderKey phase, (mains.instances hostId).checks[index]? = some check ∧
      check.phase.execute hostId mains.leaderKey = some (leaderKey, phase) ∧
      next = { mains.update hostId { mains.instances hostId with
          checks := (mains.instances hostId).checks.set index { check with phase } } with
        leaderKey } := by
  obtain ⟨check, stored, moved⟩ := Option.bind_eq_some_iff.mp moved
  obtain ⟨⟨leaderKey, phase⟩, executed, moved⟩ := Option.bind_eq_some_iff.mp moved
  exact ⟨check, leaderKey, phase, stored, executed, (Option.some.inj moved).symm⟩

theorem resume_cases (moved : mains.resume hostId index = some next) :
    ∃ check, (mains.instances hostId).checks[index]? = some check ∧ check.phase.isReply = true ∧
      next = mains.update hostId ((mains.instances hostId).continueCheck hostId index check) := by
  obtain ⟨check, stored, moved⟩ := Option.bind_eq_some_iff.mp moved
  split at moved
  next replied =>
    exact ⟨check, stored, replied, (Option.some.inj moved).symm⟩
  · cases moved

variable {checks : List LeaderCheck} {found : LeaderCheck}

/-- A check that is neither about to set the key nor has done so is not the
one by which the instance becomes the leader. -/
theorem exists_other_check
    (stored : checks[index]? = some found) (other : becomesLeader found = false)
    (becomes : ∃ check ∈ checks, becomesLeader check = true) :
    ∃ position check, position ≠ index ∧ checks[position]? = some check ∧
      becomesLeader check = true := by
  obtain ⟨check, mem, becomes⟩ := becomes
  obtain ⟨position, atPosition⟩ := List.mem_iff_getElem?.mp mem
  refine ⟨position, check, ?_, atPosition, becomes⟩
  rintro rfl
  cases stored.symm.trans atPosition
  rw [becomes] at other
  cases other

variable {main changed : MainInstance}

theorem Knows.replace (knows : Knows main) (replaced : LeaderCheck)
    (stored : main.checks[index]? = some found)
    (other : becomesLeader found = false)
    (role : main.role = .leader → changed.role = .leader)
    (checks : changed.checks = main.checks.set index replaced) :
    Knows changed := by
  rcases knows with leads | becomes
  · exact .inl (role leads)
  · obtain ⟨position, check, ne, atPosition, becomes⟩ := exists_other_check stored other becomes
    refine .inr ⟨check, ?_, becomes⟩
    rw [checks]
    apply List.mem_iff_getElem?.mpr
    exact ⟨position, by rw [List.getElem?_set_ne ne.symm, atPosition]⟩

theorem Knows.erase (knows : Knows main) (stored : main.checks[index]? = some found)
    (other : becomesLeader found = false)
    (role : main.role = .leader → changed.role = .leader)
    (checks : changed.checks = main.checks.eraseIdx index) :
    Knows changed := by
  rcases knows with leads | becomes
  · exact .inl (role leads)
  · obtain ⟨position, check, ne, atPosition, becomes⟩ := exists_other_check stored other becomes
    refine .inr ⟨check, ?_, becomes⟩
    rw [checks]
    exact List.mem_eraseIdx_iff_getElem?.mpr ⟨position, ne, atPosition⟩

theorem knows_of_set (replaced : LeaderCheck) (stored : checks[index]? = some found)
    (becomes : becomesLeader replaced = true)
    (set : main.checks = checks.set index replaced) : Knows main := by
  refine .inr ⟨replaced, ?_, becomes⟩
  rw [set]
  have inside := (List.getElem?_eq_some_iff.mp stored).1
  exact List.mem_iff_getElem?.mpr ⟨index, List.getElem?_set_self inside⟩

theorem Led.startUp (led : Led mains) (moved : mains.startUp hostId = some next) : Led next := by
  unfold MultiMain.startUp at moved
  dsimp only at moved
  split at moved
  · cases moved
  · cases moved
    apply led.update
    intro _
    right
    exact ⟨_, List.mem_singleton_self _, rfl⟩

theorem Led.beginCheck (led : Led mains)
    (moved : mains.beginCheck hostId = some next) : Led next := by
  obtain ⟨_, rfl⟩ := Machine.of_guarded moved
  apply led.update
  intro held
  rcases led.knows hostId held with leads | ⟨check, mem, becomes⟩
  · exact .inl leads
  · exact .inr ⟨check, List.mem_append_left _ mem, becomes⟩

theorem Led.shutdown (led : Led mains) (moved : mains.shutdown hostId = some next) : Led next := by
  obtain ⟨_, rfl⟩ := Machine.of_guarded moved
  apply led.update
  intro held
  exact led.knows hostId held

theorem Led.redisExecutes (led : Led mains)
    (keeps : KeepsLeader mains (.redisExecutes hostId index))
    (moved : mains.redisExecutes hostId index = some next) : Led next := by
  obtain ⟨check, leaderKey, phase, stored, executed, rfl⟩ := redisExecutes_cases moved
  cases sent : check.phase with
  | getSent | expireSent =>
    rw [sent] at executed
    cases executed
    apply led.update
    intro held
    exact (led.knows hostId held).replace _ stored (by simp [becomesLeader, sent]) id rfl
  | setSent =>
    have notOwn : mains.leaderKey ≠ some hostId := by
      simpa [KeepsLeader, keepsLeader, stored, sent] using keeps
    cases held : mains.leaderKey with
    | none =>
      rw [sent, held] at executed
      cases executed
      apply led.change
      · intro _
        exact knows_of_set { check with phase := .setReplied true } stored rfl rfl
      · intro other ne own
        exact absurd (Option.some.inj own).symm ne
    | some holder =>
      rw [sent, held] at executed
      cases executed
      rw [← held]
      apply led.update
      intro own
      exact absurd own notOwn
  | getReplied leaderId | expireReplied => simp [sent, LeaderPhase.execute] at executed
  | setReplied keySetSuccessfully =>
    simp [sent, LeaderPhase.execute] at executed

theorem Led.resume (led : Led mains) (keeps : KeepsLeader mains (.resume hostId index))
    (moved : mains.resume hostId index = some next) : Led next := by
  obtain ⟨check, stored, replied, rfl⟩ := resume_cases moved
  apply led.update
  intro held
  have knows := led.knows hostId held
  have current : dismisses hostId check.phase = false ∨
      (mains.instances hostId).role ≠ .leader := by
    simpa [KeepsLeader, keepsLeader, stored, held] using keeps
  cases sent : check.phase with
  | getSent | expireSent | setSent => simp [sent, LeaderPhase.isReply] at replied
  | expireReplied =>
    apply knows.erase stored (by simp [becomesLeader, sent])
    · intro leads
      simpa [MainInstance.continueCheck, MainInstance.handleReply, sent] using leads
    · simp [MainInstance.continueCheck, MainInstance.handleReply, sent]
  | getReplied leaderId =>
    cases leaderId with
    | none =>
      apply knows_of_set { check with phase := .setSent } stored rfl
      simp [MainInstance.continueCheck, MainInstance.handleReply, sent, MainInstance.markAsFollower]
    | some leaderId =>
      by_cases own : leaderId = hostId
      · apply knows.replace { check with phase := .expireSent } stored
          (by simp [becomesLeader, sent])
        · intro leads
          simpa [MainInstance.continueCheck, MainInstance.handleReply, sent, own] using leads
        · simp [MainInstance.continueCheck, MainInstance.handleReply, sent, own]
      · have notLeader : (mains.instances hostId).role ≠ .leader := by
          simpa [dismisses, sent, own] using current
        apply knows.erase stored (by simp [becomesLeader, sent])
        · intro leads
          exact absurd leads notLeader
        · simp [MainInstance.continueCheck, MainInstance.handleReply, sent, own, notLeader]
  | setReplied keySetSuccessfully =>
    cases keySetSuccessfully with
    | true =>
      left
      simp [MainInstance.continueCheck, MainInstance.handleReply, sent, MainInstance.markAsLeader]
    | false =>
      have notLeader : (mains.instances hostId).role ≠ .leader := by
        simpa [dismisses, sent] using current
      apply knows.erase stored (by simp [becomesLeader, sent])
      · intro leads
        exact absurd leads notLeader
      · simp [MainInstance.continueCheck, MainInstance.handleReply, sent,
          MainInstance.markAsFollower]

theorem Led.redisClears (led : Led mains) (keeps : KeepsLeader mains (.redisClears hostId))
    (moved : mains.redisClears hostId = some next) : Led next := by
  obtain ⟨_, rfl⟩ := Machine.of_guarded moved
  constructor
  · intro other held
    cases held
  · have own := keeps
    simp only [KeepsLeader, keepsLeader, Bool.or_eq_true, decide_eq_true_eq] at own
    rcases own with none | own
    · simp [none, led.kept]
    · simp [own, led.kept]

theorem Led.step (led : Led mains) (keeps : KeepsLeader mains event)
    (moved : step mains event = some next) : Led next := by
  cases event with
  | startUp hostId => exact led.startUp moved
  | beginCheck hostId => exact led.beginCheck moved
  | shutdown hostId => exact led.shutdown moved
  | redisExecutes hostId check => exact led.redisExecutes keeps moved
  | resume hostId check => exact led.resume keeps moved
  | redisClears hostId => exact led.redisClears keeps moved
  | keyExpires =>
    cases moved
    constructor
    · intro hostId held
      cases held
    · exact led.kept

theorem start_led : Led {} := by
  constructor
  · intro hostId held
    cases held
  · rfl

/-- Two mains start; when the key has expired, the second one takes it over,
and the first one steps down at its next check. -/
private def changeOfLeader : List MultiMainEvent :=
  [.startUp "main-a", .redisExecutes "main-a" 0, .startUp "main-b",
    .resume "main-a" 0, .redisExecutes "main-b" 0, .resume "main-b" 0,
    .keyExpires, .beginCheck "main-b", .redisExecutes "main-b" 0,
    .beginCheck "main-a", .resume "main-b" 0, .redisExecutes "main-b" 0,
    .resume "main-b" 0, .redisExecutes "main-a" 0, .resume "main-a" 0,
    .shutdown "main-a", .shutdown "main-b", .redisClears "main-b"]

private def overlappingChecks : List MultiMainEvent :=
  [.startUp "main-a", .redisExecutes "main-a" 0, .resume "main-a" 0,
    .keyExpires, .beginCheck "main-a", .beginCheck "main-a",
    .redisExecutes "main-a" 0, .redisExecutes "main-a" 1, .resume "main-a" 0,
    .redisExecutes "main-a" 0, .resume "main-a" 0, .resume "main-a" 0,
    .redisExecutes "main-a" 0, .resume "main-a" 0]

private def lateShutdown : List MultiMainEvent :=
  [.startUp "main-a", .redisExecutes "main-a" 0, .resume "main-a" 0,
    .keyExpires, .startUp "main-b", .redisExecutes "main-b" 0,
    .resume "main-b" 0, .shutdown "main-a", .redisClears "main-a"]

end MultiMain

end N8n
