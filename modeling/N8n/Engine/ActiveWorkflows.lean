import N8n.Library.Machine
import N8n.Library.OrderedMap
import N8n.Library.StateExcept

/-!
# Active workflows

Activation starts the triggers one by one, marks the workflow as active, and
then registers the crons of its polling nodes; each of these steps can throw.
What was started and registered before stays, so an activation that fails is
clean only if nothing was, and one that succeeds forgets the triggers of an
earlier activation.
-/

namespace N8n

open List OrderedMap

/-- A cron is registered once for each context. -/
structure CronContext where
  workflowId : String
  nodeId : String
  expression : String
  timezone : String
  recurrence : Option String := none
deriving DecidableEq

/-- What a trigger node returned: a close function belongs to a trigger that
has been started. -/
structure TriggerResponse where
  closeFunction : Option Nat

structure RunningTrigger where
  workflowId : String
  id : Nat
deriving DecidableEq

/-- What happens when a trigger node is run: it registers crons, and then
throws, or returns a response with or without a close function, or none. -/
inductive TriggerOutcome where
  | throws (message : String)
  | returns (response : Option Bool)

structure TriggerNode where
  crons : List CronContext := []
  outcome : TriggerOutcome

/-- The test poll, and the expressions of the poll times. -/
structure PollNode where
  id : String
  testPoll : Except String Unit
  cronExpressions : List String

/-- The workflow of an activation, with what its nodes do then. -/
structure WorkflowToActivate where
  id : String
  timezone : String
  triggerNodes : List TriggerNode
  pollNodes : List PollNode

inductive CloseOutcome where
  | closes
  | throwsTriggerCloseError
  | throws (message : String)

/-- `running` lists the triggers that were started and not closed, and `threw`
the workflows whose last activation threw. -/
structure ActiveWorkflows where
  activeWorkflows : OrderedMap String (List TriggerResponse) := .empty
  cronsByWorkflow : OrderedMap String (List CronContext) := .empty
  running : List RunningTrigger := []
  nextTrigger : Nat := 0
  threw : List String := []

abbrev Activation := StateExcept ActiveWorkflows String

namespace ActiveWorkflows

def isActive (active : ActiveWorkflows) (workflowId : String) : Bool :=
  active.activeWorkflows.has workflowId

def crons (active : ActiveWorkflows) (workflowId : String) : List CronContext :=
  (active.cronsByWorkflow.get? workflowId).getD []

section

variable (accepts : CronContext → Bool)

/-- `accepts` says for which contexts the cron job can be created. -/
def registerCron (ctx : CronContext) : Activation PUnit := do
  let active ← get
  if ctx ∈ active.crons ctx.workflowId then pure ⟨⟩
  else if accepts ctx then
    modify fun active => { active with
      cronsByWorkflow := active.cronsByWorkflow.set ctx.workflowId
        (active.crons ctx.workflowId ++ [ctx]) }
  else throw "Unknown cron expression"

def deregisterCrons (active : ActiveWorkflows) (workflowId : String) : ActiveWorkflows :=
  if active.crons workflowId = [] then active
  else { active with
    cronsByWorkflow := active.cronsByWorkflow.delete workflowId }

/-- The node's trigger function starts a trigger if it returns a function to
close it. -/
def runTrigger (workflowId : String)
    (node : TriggerNode) : Activation (Option TriggerResponse) := do
  node.crons.forM fun ctx => registerCron accepts { ctx with workflowId }
  match node.outcome with
  | .throws message => throw message
  | .returns none => pure none
  | .returns (some false) => pure (some { closeFunction := none })
  | .returns (some true) =>
    let active ← get
    modify fun active => { active with
      running := active.running ++ [{ workflowId, id := active.nextTrigger }]
      nextTrigger := active.nextTrigger + 1 }
    pure (some { closeFunction := some active.nextTrigger })

def activationError (message : String) : String :=
  "There was a problem activating the workflow: \"" ++ message ++ "\""

/-- The first field of the expression has an asterisk. -/
def isTooShort (expression : String) : Bool :=
  (expression.toList.takeWhile (· ≠ ' ')).contains '*'

def activatePolling (workflow : WorkflowToActivate) (node : PollNode) : Activation PUnit := do
  StateExcept.ofExcept (node.testPoll.map fun _ => ⟨⟩)
  node.cronExpressions.forM fun expression => do
    if isTooShort expression then
      throw "The polling interval is too short. It has to be at least a minute."
    else
      registerCron accepts
        { workflowId := workflow.id
          nodeId := node.id
          expression
          timezone := workflow.timezone }

def startTriggers (accepts : CronContext → Bool) (workflowId : String) :
    List TriggerNode → Activation (List TriggerResponse)
  | [] => pure []
  | node :: nodes => do
    let response ← tryCatch (runTrigger accepts workflowId node)
      fun message => throw (activationError message)
    let responses ← startTriggers accepts workflowId nodes
    pure (response.toList ++ responses)

/-- A workflow without triggers is not left active when polling fails. -/
def pollingFailed (workflowId : String) (responses : List TriggerResponse) : Activation PUnit :=
  if responses = [] then
    modify fun active => { active with
      activeWorkflows := active.activeWorkflows.delete workflowId }
  else pure ⟨⟩

def startPolling (accepts : CronContext → Bool)
    (workflow : WorkflowToActivate) (responses : List TriggerResponse) :
    List PollNode → Activation PUnit
  | [] => pure ⟨⟩
  | node :: nodes => do
    tryCatch (activatePolling accepts workflow node) fun message => do
      pollingFailed workflow.id responses
      throw (activationError message)
    startPolling accepts workflow responses nodes

def add (workflow : WorkflowToActivate) : Activation PUnit := do
  let responses ← startTriggers accepts workflow.id workflow.triggerNodes
  modify fun active => { active with
    activeWorkflows := active.activeWorkflows.set workflow.id responses }
  startPolling accepts workflow responses workflow.pollNodes

end

variable (closes : Nat → CloseOutcome)

/-- A `TriggerCloseError` is reported and counts as closed. -/
def closeTrigger (workflowId : String) (response : TriggerResponse) : Activation PUnit :=
  match response.closeFunction with
  | none => pure ⟨⟩
  | some id =>
    match closes id with
    | .throws message => throw
        ("Failed to deactivate trigger of workflow ID \"" ++ workflowId ++
          "\": \"" ++ message ++ "\"")
    | _ => modify fun active => { active with
        running := active.running.filter fun trigger => trigger.id ≠ id }

def remove (workflowId : String) : Activation Bool := do
  let active ← get
  match active.activeWorkflows.get? workflowId with
  | none => pure false
  | some responses =>
    set (active.deregisterCrons workflowId)
    responses.forM (closeTrigger closes workflowId)
    modify fun active => { active with
      activeWorkflows := active.activeWorkflows.delete workflowId }
    pure true

end ActiveWorkflows

inductive ActivationCall where
  | add (workflow : WorkflowToActivate)
  | remove (workflowId : String) (closes : Nat → CloseOutcome)

namespace ActiveWorkflows

/-- The state behind a call of `add`, and whether it threw. -/
def afterAdd (accepts : CronContext → Bool) (active : ActiveWorkflows)
    (workflow : WorkflowToActivate) : ActiveWorkflows :=
  match StateExcept.exec (add accepts workflow) active with
  | (.ok _, next) => { next with
      threw := next.threw.filter fun other => other ≠ workflow.id }
  | (.error _, next) => { next with threw := workflow.id :: next.threw }

def afterRemove (active : ActiveWorkflows) (workflowId : String)
    (closes : Nat → CloseOutcome) : ActiveWorkflows :=
  (StateExcept.exec (remove closes workflowId) active).2

def step (accepts : CronContext → Bool) : Machine ActiveWorkflows ActivationCall
  | active, .add workflow => some (active.afterAdd accepts workflow)
  | active, .remove workflowId closes =>
    some (active.afterRemove workflowId closes)

/-- No trigger and no cron is left that belongs to a workflow which is not
active or whose last activation threw. -/
structure NothingOutlives (active : ActiveWorkflows) : Prop where
  triggers : ∀ trigger ∈ active.running, active.isActive trigger.workflowId = true
  crons : ∀ workflowId, active.crons workflowId ≠ [] → active.isActive workflowId = true
  failed : ∀ workflowId ∈ active.threw, active.crons workflowId = [] ∧
      ∀ trigger ∈ active.running, trigger.workflowId ≠ workflowId

/-- The workflows are right, and so they are behind a removal in which all
triggers close. -/
structure RemainsClean (active : ActiveWorkflows) : Prop where
  now : NothingOutlives active
  removed : ∀ workflowId, NothingOutlives (active.afterRemove workflowId fun _ => .closes)

/-- What an activation attempts to do: it starts a trigger or registers a cron,
or it throws. -/
inductive Attempt where
  | acts
  | throws
deriving DecidableEq

section

variable (accepts : CronContext → Bool)

def cronAttempt (ctx : CronContext) : Attempt :=
  if accepts ctx then .acts else .throws

def triggerAttempts (workflowId : String) (node : TriggerNode) : List Attempt :=
  node.crons.map (fun ctx => cronAttempt accepts { ctx with workflowId }) ++
    match node.outcome with
    | .throws _ => [.throws]
    | .returns (some true) => [.acts]
    | .returns _ => []

def pollAttempts (workflow : WorkflowToActivate) (node : PollNode) : List Attempt :=
  (match node.testPoll with
    | .error _ => [.throws]
    | .ok _ => []) ++
    node.cronExpressions.map fun expression =>
      if isTooShort expression then .throws
      else cronAttempt accepts
        { workflowId := workflow.id
          nodeId := node.id
          expression
          timezone := workflow.timezone }

/-- The attempts of an activation that does not fail before. -/
def attempts (workflow : WorkflowToActivate) : List Attempt :=
  workflow.triggerNodes.flatMap (triggerAttempts accepts workflow.id) ++
    workflow.pollNodes.flatMap (pollAttempts accepts workflow)

/-- A workflow is only activated when none of its triggers is running, and if
the activation throws, it does so at its first attempt and no cron of the
workflow is registered. -/
def keepsClean (active : ActiveWorkflows) : ActivationCall → Bool
  | .add workflow =>
    (active.running.all fun trigger => trigger.workflowId ≠ workflow.id) &&
      (.throws ∉ attempts accepts workflow || active.crons workflow.id = [] &&
          (attempts accepts workflow).head? = some .throws)
  | .remove _ _ => true

def KeepsClean (active : ActiveWorkflows) (call : ActivationCall) : Prop :=
  keepsClean accepts active call = true

end

instance (accepts : CronContext → Bool) (active : ActiveWorkflows)
    (call : ActivationCall) : Decidable (KeepsClean accepts active call) :=
  inferInstanceAs (Decidable (_ = _))

open StateExcept

variable {accepts : CronContext → Bool} {workflowId : String}
  {active before after : ActiveWorkflows} {α β : Type}

/-- Only crons that can be created are registered. -/
def AllAccepted (accepts : CronContext → Bool) (active : ActiveWorkflows) : Prop :=
  ∀ workflowId, ∀ ctx ∈ active.crons workflowId, accepts ctx = true

/-- What an activation of a workflow changes at most. -/
structure Touches (accepts : CronContext → Bool) (workflowId : String)
    (before after : ActiveWorkflows) : Prop where
  others : ∀ other, other ≠ workflowId →
    after.activeWorkflows.get? other = before.activeWorkflows.get? other ∧
      after.crons other = before.crons other
  crons : before.crons workflowId ⊆ after.crons workflowId
  running : before.running ⊆ after.running
  added : ∀ trigger ∈ after.running, trigger ∈ before.running ∨
    trigger.workflowId = workflowId ∧ before.nextTrigger ≤ trigger.id ∧
      trigger.id < after.nextTrigger
  nextTrigger : before.nextTrigger ≤ after.nextTrigger
  threw : after.threw = before.threw
  accepted : AllAccepted accepts before → AllAccepted accepts after

instance : Std.Refl (Touches accepts workflowId) where
  refl active := by
    constructor
    · intro other _
      exact ⟨rfl, rfl⟩
    · exact List.Subset.refl _
    · exact List.Subset.refl _
    · intro trigger mem
      exact .inl mem
    · exact Nat.le_refl _
    · rfl
    · exact id

instance : IsTrans ActiveWorkflows (Touches accepts workflowId) where
  trans first middle last toMiddle toLast := by
    constructor
    · intro other ne
      have one := toMiddle.others other ne
      have two := toLast.others other ne
      exact ⟨two.1.trans one.1, two.2.trans one.2⟩
    · exact List.Subset.trans toMiddle.crons toLast.crons
    · exact List.Subset.trans toMiddle.running toLast.running
    · intro trigger mem
      rcases toLast.added trigger mem with inMiddle | ⟨own, above, below⟩
      · rcases toMiddle.added trigger inMiddle with inFirst | ⟨own, above, below⟩
        · exact .inl inFirst
        · exact .inr ⟨own, above, below.trans_le toLast.nextTrigger⟩
      · exact .inr ⟨own, toMiddle.nextTrigger.trans above, below⟩
    · exact toMiddle.nextTrigger.trans toLast.nextTrigger
    · exact toLast.threw.trans toMiddle.threw
    · exact toLast.accepted ∘ toMiddle.accepted

/-- Something of the workflow has been started or registered. -/
def Busy (active : ActiveWorkflows) (workflowId : String) : Prop :=
  active.crons workflowId ≠ [] ∨ ∃ trigger ∈ active.running, trigger.workflowId = workflowId

theorem Busy.touches (busy : Busy before workflowId)
    (touches : Touches accepts workflowId before after) :
    Busy after workflowId := by
  rcases busy with crons | ⟨trigger, mem, own⟩
  · left
    intro none
    have inside := touches.crons
    rw [none] at inside
    exact crons (subset_nil.mp inside)
  · exact .inr ⟨trigger, touches.running mem, own⟩

/-- Nothing has been started or registered in between. -/
def SameWork (before after : ActiveWorkflows) : Prop :=
  after.running = before.running ∧ after.cronsByWorkflow = before.cronsByWorkflow

def Throws (outcome : Except String α) : Prop := ∃ message, outcome = .error message

/-- How a computation goes follows from the first of its attempts and from
whether one of them throws. -/
structure Attempted (accepts : CronContext → Bool) (workflowId : String)
    (attempts : List Attempt) (computation : Activation α) : Prop where
  touches : Always (Touches accepts workflowId) computation
  throws : ∀ active, AllAccepted accepts active →
    (Throws (exec computation active).1 ↔ .throws ∈ attempts)
  idle : attempts.head? ≠ some .acts → ∀ active,
    AllAccepted accepts active → SameWork active (exec computation active).2
  busy : attempts.head? = some .acts → ∀ active,
    AllAccepted accepts active → Busy (exec computation active).2 workflowId

theorem SameWork.trans {middle : ActiveWorkflows}
    (first : SameWork before middle) (second : SameWork middle after) :
    SameWork before after :=
  ⟨second.1.trans first.1, second.2.trans first.2⟩

theorem Attempted.bind {first : Activation α} {second : α → Activation β}
    {attempts later : List Attempt}
    (attempted : Attempted accepts workflowId attempts first)
    (rest : ∀ value, Attempted accepts workflowId later (second value)) :
    Attempted accepts workflowId (attempts ++ later) (first >>= second) := by
  constructor
  · exact Always.bind attempted.touches fun value => (rest value).touches
  · intro active accepted
    have throws := attempted.throws active accepted
    have touches := attempted.touches active
    rw [exec_bind]
    cases result : exec first active with
    | mk outcome middle =>
      rw [result] at throws touches
      cases outcome with
      | error message =>
        have thrown := throws.mp ⟨message, rfl⟩
        exact iff_of_true ⟨message, rfl⟩ (mem_append_left _ thrown)
      | ok value =>
        have silent : .throws ∉ attempts := by
          intro thrown
          obtain ⟨message, failed⟩ := throws.mpr thrown
          cases failed
        rw [mem_append]
        simp only [silent, false_or]
        exact (rest value).throws middle (touches.accepted accepted)
  · intro head active accepted
    have same (idle : attempts.head? ≠ some .acts) := attempted.idle idle active accepted
    have throws := attempted.throws active accepted
    have touches := attempted.touches active
    rw [exec_bind]
    cases result : exec first active with
    | mk outcome middle =>
      rw [result] at same throws touches
      cases attempts with
      | nil =>
        have sameFirst := same (by simp)
        cases outcome with
        | error message => exact sameFirst
        | ok value =>
          exact sameFirst.trans ((rest value).idle head middle (touches.accepted accepted))
      | cons attempt attempts =>
        cases attempt with
        | acts => exact absurd rfl head
        | throws =>
          obtain ⟨message, failed⟩ := throws.mpr mem_cons_self
          cases failed
          exact same (by simp)
  · intro head active accepted
    have busy (acts : attempts.head? = some .acts) := attempted.busy acts active accepted
    have throws := attempted.throws active accepted
    have touches := attempted.touches active
    rw [exec_bind]
    cases result : exec first active with
    | mk outcome middle =>
      rw [result] at busy throws touches
      cases attempts with
      | nil =>
        cases outcome with
        | error message => exact absurd (throws.mp ⟨message, rfl⟩) (by simp)
        | ok value =>
          exact (rest value).busy head middle (touches.accepted accepted)
      | cons attempt attempts =>
        have busyFirst := busy head
        cases outcome with
        | error message => exact busyFirst
        | ok value => exact busyFirst.touches ((rest value).touches middle)

theorem Attempted.pure (value : α) :
    Attempted accepts workflowId [] (Pure.pure value : Activation α) := by
  constructor
  · exact Always.pure value
  · intro active _
    simp [Throws]
  · intro _ active _
    exact ⟨rfl, rfl⟩
  · intro head
    cases head

theorem Attempted.throw (message : String) : Attempted accepts workflowId [.throws]
      (MonadExcept.throw message : Activation α) := by
  constructor
  · exact Always.throw message
  · intro active _
    simp [Throws]
  · intro _ active _
    exact ⟨rfl, rfl⟩
  · intro head
    cases head

variable {body : Activation α} {handler : String → Activation α}

theorem Attempted.rethrow {attempts : List Attempt}
    (attempted : Attempted accepts workflowId attempts body) (rethrows : ∀ message,
      Attempted accepts workflowId [.throws] (handler message)) :
    Attempted accepts workflowId attempts (tryCatch body handler) := by
  constructor
  · exact Always.tryCatch attempted.touches fun message =>
      (rethrows message).touches
  · intro active accepted
    have touches := attempted.touches active
    rw [← attempted.throws active accepted, exec_tryCatch]
    cases result : exec body active with
    | mk outcome middle =>
      rw [result] at touches
      cases outcome with
      | ok value => rfl
      | error message =>
        have thrown := ((rethrows message).throws middle
          (touches.accepted accepted)).mpr (mem_singleton_self _)
        exact iff_of_true thrown ⟨message, rfl⟩
  · intro head active accepted
    have idle := attempted.idle head active accepted
    have touches := attempted.touches active
    rw [exec_tryCatch]
    cases result : exec body active with
    | mk outcome middle =>
      rw [result] at idle touches
      cases outcome with
      | ok value => exact idle
      | error message =>
        exact idle.trans ((rethrows message).idle (by simp) middle (touches.accepted accepted))
  · intro head active accepted
    have busy := attempted.busy head active accepted
    rw [exec_tryCatch]
    cases result : exec body active with
    | mk outcome middle =>
      rw [result] at busy
      cases outcome with
      | ok value => exact busy
      | error message =>
        exact busy.touches ((rethrows message).touches middle)

theorem Attempted.forM {items : List α} {body : α → Activation PUnit} {attempts : α → List Attempt}
    (each : ∀ item, Attempted accepts workflowId (attempts item) (body item)) :
    Attempted accepts workflowId (items.flatMap attempts) (items.forM body) := by
  induction items with
  | nil => exact Attempted.pure _
  | cons item items ih =>
    exact (each item).bind fun _ => ih

theorem attempted_modify {change : ActiveWorkflows → ActiveWorkflows}
    (touches : ∀ active, Touches accepts workflowId active (change active))
    (same : ∀ active, SameWork active (change active)) :
    Attempted accepts workflowId [] (modify change : Activation PUnit) := by
  constructor
  · exact Always.modify touches
  · intro active _
    simp [Throws]
  · intro _ active _
    exact same active
  · intro head
    cases head

theorem touches_activeWorkflows {activeWorkflows : OrderedMap String (List TriggerResponse)}
    (others : ∀ other, other ≠ workflowId →
      activeWorkflows.get? other = active.activeWorkflows.get? other) :
    Touches accepts workflowId active { active with activeWorkflows } := by
  constructor
  · intro other ne
    exact ⟨others other ne, rfl⟩
  · exact List.Subset.refl _
  · exact List.Subset.refl _
  · intro trigger mem
    exact .inl mem
  · exact Nat.le_refl _
  · rfl
  · exact id

theorem attempted_startTrigger : Attempted accepts workflowId [.acts] (modify fun active =>
      { active with
        running := active.running ++ [{ workflowId, id := active.nextTrigger }]
        nextTrigger := active.nextTrigger + 1 }) := by
  constructor
  · apply Always.modify
    intro active
    constructor
    · intro other _
      exact ⟨rfl, rfl⟩
    · exact List.Subset.refl _
    · exact subset_append_left _ _
    · intro trigger mem
      rcases mem_append.mp mem with old | new
      · exact .inl old
      · obtain rfl := mem_singleton.mp new
        exact .inr ⟨rfl, Nat.le_refl _, Nat.lt_succ_self _⟩
    · exact Nat.le_succ _
    · rfl
    · exact id
  · intro active _
    simp [Throws]
  · intro head
    exact absurd rfl head
  · intro _ active _
    right
    exact ⟨_, mem_append_right _ (mem_singleton_self _), rfl⟩

def addCron (active : ActiveWorkflows) (ctx : CronContext) : ActiveWorkflows :=
  { active with
    cronsByWorkflow := active.cronsByWorkflow.set ctx.workflowId
      (active.crons ctx.workflowId ++ [ctx]) }

theorem crons_addCron (active : ActiveWorkflows) (ctx : CronContext)
    (other : String) : (active.addCron ctx).crons other =
      if ctx.workflowId = other then active.crons other ++ [ctx]
      else active.crons other := by
  rw [crons, addCron, get?_set]
  by_cases same : ctx.workflowId = other
  · subst same
    simp
  · simp [same, crons]

theorem exec_registerCron (ctx : CronContext) (active : ActiveWorkflows) :
    exec (registerCron accepts ctx) active =
      if ctx ∈ active.crons ctx.workflowId then (.ok ⟨⟩, active)
      else if accepts ctx then (.ok ⟨⟩, active.addCron ctx)
      else (.error "Unknown cron expression", active) := by
  rw [registerCron, exec_get_bind]
  split
  · rfl
  · split
    · rfl
    · rfl

variable {ctx : CronContext}

theorem touches_addCron (own : ctx.workflowId = workflowId) (isAccepted : accepts ctx = true) :
    Touches accepts workflowId active (active.addCron ctx) := by
  constructor
  · intro other ne
    refine ⟨rfl, ?_⟩
    rw [crons_addCron, own, if_neg (Ne.symm ne)]
  · rw [crons_addCron, if_pos own]
    exact subset_append_left _ _
  · exact List.Subset.refl _
  · intro trigger mem
    exact .inl mem
  · exact Nat.le_refl _
  · rfl
  · intro accepted other registered mem
    rw [crons_addCron] at mem
    split at mem
    · rcases mem_append.mp mem with old | new
      · exact accepted other registered old
      · obtain rfl := mem_singleton.mp new
        exact isAccepted
    · exact accepted other registered mem

theorem attempted_registerCron (own : ctx.workflowId = workflowId) :
    Attempted accepts workflowId [cronAttempt accepts ctx] (registerCron accepts ctx) := by
  cases isAccepted : accepts ctx with
  | true =>
    have attempt : cronAttempt accepts ctx = .acts := by
      simp [cronAttempt, isAccepted]
    have executed (active : ActiveWorkflows) : exec (registerCron accepts ctx) active = (.ok ⟨⟩,
          if ctx ∈ active.crons ctx.workflowId then active
          else active.addCron ctx) := by
      rw [exec_registerCron]
      split
      · rfl
      · simp
    rw [attempt]
    constructor
    · intro active
      rw [executed]
      by_cases registered : ctx ∈ active.crons ctx.workflowId
      · simp only [if_pos registered]
        exact Std.Refl.refl _
      · simp only [if_neg registered]
        exact touches_addCron own isAccepted
    · intro active _
      rw [executed]
      simp [Throws]
    · intro head
      exact absurd rfl head
    · intro _ active _
      left
      rw [executed, ← own]
      by_cases registered : ctx ∈ active.crons ctx.workflowId
      · simp only [if_pos registered]
        exact ne_nil_of_mem registered
      · simp [registered, crons_addCron]
  | false =>
    have attempt : cronAttempt accepts ctx = .throws := by
      simp [cronAttempt, isAccepted]
    have executed (active : ActiveWorkflows) (accepted : AllAccepted accepts active) :
        exec (registerCron accepts ctx) active = (.error "Unknown cron expression", active) := by
      have unregistered : ctx ∉ active.crons ctx.workflowId := by
        intro registered
        rw [accepted _ ctx registered] at isAccepted
        cases isAccepted
      rw [exec_registerCron, if_neg unregistered]
      simp [isAccepted]
    rw [attempt]
    constructor
    · intro active
      rw [exec_registerCron]
      split
      · exact Std.Refl.refl _
      · simp only [isAccepted]
        exact Std.Refl.refl _
    · intro active accepted
      rw [executed active accepted]
      simp [Throws]
    · intro _ active accepted
      rw [executed active accepted]
      exact ⟨rfl, rfl⟩
    · intro head
      cases head

theorem Attempted.get : Attempted accepts workflowId [] (MonadState.get : Activation _) := by
  constructor
  · exact Always.get
  · intro active _
    simp [Throws]
  · intro _ active _
    exact ⟨rfl, rfl⟩
  · intro head
    cases head

theorem attempted_runTrigger (accepts : CronContext → Bool)
    (workflowId : String) (node : TriggerNode) :
    Attempted accepts workflowId (triggerAttempts accepts workflowId node)
      (runTrigger accepts workflowId node) := by
  rw [triggerAttempts, map_eq_flatMap]
  refine Attempted.bind ?_ fun _ => ?_
  · apply Attempted.forM
    intro ctx
    exact attempted_registerCron rfl
  · cases node.outcome with
    | throws message => exact Attempted.throw message
    | returns response =>
      cases response with
      | none => exact Attempted.pure _
      | some hasCloseFunction =>
        cases hasCloseFunction with
        | false => exact Attempted.pure _
        | true =>
          exact Attempted.get.bind fun _ =>
            attempted_startTrigger.bind fun _ => Attempted.pure _

theorem attempted_startTriggers (nodes : List TriggerNode) :
    Attempted accepts workflowId (nodes.flatMap (triggerAttempts accepts workflowId))
      (startTriggers accepts workflowId nodes) := by
  induction nodes with
  | nil => exact Attempted.pure _
  | cons node nodes ih =>
    rw [flatMap_cons]
    refine Attempted.bind ?_ fun response => ?_
    · exact (attempted_runTrigger accepts workflowId node).rethrow fun _ =>
        Attempted.throw _
    · rw [← append_nil (nodes.flatMap _)]
      exact ih.bind fun _ => Attempted.pure _

theorem attempted_activatePolling (workflow : WorkflowToActivate) (node : PollNode) :
    Attempted accepts workflow.id (pollAttempts accepts workflow node)
      (activatePolling accepts workflow node) := by
  rw [pollAttempts, map_eq_flatMap]
  refine Attempted.bind ?_ fun _ => ?_
  · cases node.testPoll with
    | error message => exact Attempted.throw message
    | ok value => exact Attempted.pure _
  · apply Attempted.forM
    intro expression
    by_cases short : isTooShort expression
    · rw [if_pos short, if_pos short]
      exact Attempted.throw _
    · rw [if_neg short, if_neg short]
      exact attempted_registerCron rfl

section

variable (responses : List TriggerResponse)

theorem attempted_pollingFailed :
    Attempted accepts workflowId [] (pollingFailed workflowId responses) := by
  rw [pollingFailed]
  split
  · apply attempted_modify
    · intro active
      apply touches_activeWorkflows
      intro other ne
      rw [get?_delete, if_neg (Ne.symm ne)]
    · intro active
      exact ⟨rfl, rfl⟩
  · exact Attempted.pure _

theorem attempted_startPolling (workflow : WorkflowToActivate)
    (responses : List TriggerResponse) (nodes : List PollNode) :
    Attempted accepts workflow.id (nodes.flatMap (pollAttempts accepts workflow))
      (startPolling accepts workflow responses nodes) := by
  induction nodes with
  | nil => exact Attempted.pure _
  | cons node nodes ih =>
    refine Attempted.bind ?_ fun _ => ih
    exact (attempted_activatePolling workflow node).rethrow fun message =>
      (attempted_pollingFailed responses).bind fun _ =>
        Attempted.throw _

theorem attempted_add (accepts : CronContext → Bool) (workflow : WorkflowToActivate) :
    Attempted accepts workflow.id (attempts accepts workflow) (add accepts workflow) := by
  refine (attempted_startTriggers workflow.triggerNodes).bind fun responses => ?_
  rw [← nil_append (List.flatMap _ _)]
  refine Attempted.bind ?_ fun _ => attempted_startPolling _ _ _
  apply attempted_modify
  · intro active
    apply touches_activeWorkflows
    intro other ne
    exact get?_set_ne _ _ (Ne.symm ne)
  · intro active
    exact ⟨rfl, rfl⟩

/-- The triggers that a successful activation has started are those of its
responses. -/
def Tracked (before after : ActiveWorkflows) : Prop :=
  ∀ trigger ∈ after.running, trigger ∈ before.running ∨
    { closeFunction := some trigger.id } ∈ responses

/-- Registering crons leaves the rest alone. -/
def OnlyCrons (before after : ActiveWorkflows) : Prop :=
  after.running = before.running ∧ after.activeWorkflows = before.activeWorkflows ∧
    after.nextTrigger = before.nextTrigger

instance : Std.Refl OnlyCrons where
  refl _ := ⟨rfl, rfl, rfl⟩

instance : IsTrans ActiveWorkflows OnlyCrons where
  trans _ _ _ first second :=
    ⟨second.1.trans first.1, second.2.1.trans first.2.1, second.2.2.trans first.2.2⟩

theorem onlyCrons_registerCron (ctx : CronContext) :
    Always OnlyCrons (registerCron accepts ctx) := by
  intro active
  rw [exec_registerCron]
  split
  · exact Std.Refl.refl _
  · split
    · exact ⟨rfl, rfl, rfl⟩
    · exact Std.Refl.refl _

theorem onlyCrons_activatePolling (accepts : CronContext → Bool)
    (workflow : WorkflowToActivate) (node : PollNode) :
    Always OnlyCrons (activatePolling accepts workflow node) := by
  refine Always.bind (Always.ofExcept _) fun _ => Always.forM ?_
  intro expression _
  exact Always.ite (Always.throw _) (onlyCrons_registerCron _)

theorem exec_rethrow_eq_ok {value : α} (throws : ∀ message active,
      Throws (exec (handler message) active).1)
    (success : exec (tryCatch body handler) before = (.ok value, after)) :
    exec body before = (.ok value, after) := by
  rw [exec_tryCatch] at success
  cases result : exec body before with
  | mk outcome middle =>
    rw [result] at success
    cases outcome with
    | ok value => exact success
    | error message =>
      obtain ⟨other, thrown⟩ := throws message middle
      have caught : exec (handler message) middle = (.ok value, after) := success
      rw [caught] at thrown
      cases thrown

theorem throws_pollingFailed (message : String) (active : ActiveWorkflows) :
    Throws (exec (pollingFailed workflowId responses >>= fun _ =>
      (throw message : Activation PUnit)) active).1 := by
  rw [pollingFailed]
  split <;> exact ⟨message, rfl⟩

end

variable {responses : List TriggerResponse} {workflow : WorkflowToActivate}

theorem onlyCrons_startPolling {nodes : List PollNode}
    (ok : exec (startPolling accepts workflow responses nodes) before =
      (.ok ⟨⟩, after)) : OnlyCrons before after := by
  induction nodes generalizing before with
  | nil =>
    cases ok
    exact Std.Refl.refl _
  | cons node nodes ih =>
    obtain ⟨_, middle, first, rest⟩ := exec_bind_eq_ok.mp ok
    have polled := onlyCrons_activatePolling accepts workflow node before
    rw [exec_rethrow_eq_ok (fun _ active =>
      throws_pollingFailed responses _ active) first] at polled
    exact trans_of OnlyCrons polled (ih rest)

theorem tracked_runTrigger {node : TriggerNode} {response : Option TriggerResponse}
    (ok : exec (runTrigger accepts workflowId node) before = (.ok response, after)) :
    Tracked response.toList before after ∧
      ∀ id, { closeFunction := some id } ∈ response.toList → before.nextTrigger ≤ id := by
  obtain ⟨_, middle, registered, rest⟩ := exec_bind_eq_ok.mp ok
  have always : Always OnlyCrons (node.crons.forM fun ctx =>
      registerCron accepts { ctx with workflowId }) :=
    Always.forM fun ctx _ => onlyCrons_registerCron _
  have crons := always before
  rw [registered] at crons
  obtain ⟨sameRunning, _, sameNext⟩ := crons
  cases outcome : node.outcome with
  | throws message =>
    simp only [outcome] at rest
    cases rest
  | returns returned =>
    simp only [outcome] at rest
    cases returned with
    | none =>
      cases rest
      refine ⟨fun trigger mem => .inl (sameRunning ▸ mem), ?_⟩
      intro id mem
      cases mem
    | some hasCloseFunction =>
      cases hasCloseFunction with
      | false =>
        cases rest
        refine ⟨fun trigger mem => .inl (sameRunning ▸ mem), ?_⟩
        intro id mem
        cases mem_singleton.mp mem
      | true =>
        cases rest
        constructor
        · intro trigger mem
          rcases mem_append.mp mem with old | new
          · exact .inl (sameRunning ▸ old)
          · obtain rfl := mem_singleton.mp new
            exact .inr (mem_singleton_self _)
        · intro id mem
          cases mem_singleton.mp mem
          exact sameNext.ge

theorem tracked_startTriggers {nodes : List TriggerNode}
    (ok : exec (startTriggers accepts workflowId nodes) before = (.ok responses, after)) :
    Tracked responses before after ∧ ∀ id, { closeFunction := some id } ∈ responses →
        before.nextTrigger ≤ id := by
  induction nodes generalizing before responses with
  | nil =>
    cases ok
    refine ⟨fun trigger mem => .inl mem, ?_⟩
    intro id mem
    cases mem
  | cons node nodes ih =>
    obtain ⟨response, middle, first, rest⟩ := exec_bind_eq_ok.mp ok
    obtain ⟨later, last, started, final⟩ := exec_bind_eq_ok.mp rest
    cases final
    have ran := exec_rethrow_eq_ok (fun _ _ => ⟨_, rfl⟩) first
    obtain ⟨trackedFirst, newFirst⟩ := tracked_runTrigger ran
    obtain ⟨trackedLater, newLater⟩ := ih started
    have grows := (attempted_runTrigger accepts workflowId node).touches before
    rw [ran] at grows
    constructor
    · intro trigger mem
      rcases trackedLater trigger mem with inMiddle | inLater
      · rcases trackedFirst trigger inMiddle with inBefore | inFirst
        · exact .inl inBefore
        · exact .inr (mem_append_left _ inFirst)
      · exact .inr (mem_append_right _ inLater)
    · intro id mem
      rcases mem_append.mp mem with inFirst | inLater
      · exact newFirst id inFirst
      · exact grows.nextTrigger.trans (newLater id inLater)

theorem add_ok (ok : exec (add accepts workflow) active = (.ok ⟨⟩, after)) :
    ∃ responses, after.activeWorkflows.get? workflow.id = some responses ∧
      Tracked responses active after ∧
      ∀ id, { closeFunction := some id } ∈ responses → active.nextTrigger ≤ id := by
  obtain ⟨responses, middle, started, rest⟩ := exec_bind_eq_ok.mp ok
  obtain ⟨tracked, new⟩ := tracked_startTriggers started
  obtain ⟨sameRunning, sameActive, _⟩ := onlyCrons_startPolling rest
  refine ⟨responses, ?_, ?_, new⟩
  · rw [sameActive]
    exact get?_set_self _ _ _
  · intro trigger mem
    exact tracked trigger (sameRunning ▸ mem)

/-- Closing triggers takes some of them out and leaves the rest alone. -/
def OnlyCloses (before after : ActiveWorkflows) : Prop :=
  after = { before with running := after.running } ∧ after.running ⊆ before.running

instance : Std.Refl OnlyCloses where
  refl _ := ⟨rfl, List.Subset.refl _⟩

instance : IsTrans ActiveWorkflows OnlyCloses where
  trans first middle last toMiddle toLast := by
    constructor
    · rw [toLast.1, toMiddle.1]
    · exact List.Subset.trans toLast.2 toMiddle.2

theorem onlyCloses_closeTrigger (closes : Nat → CloseOutcome) (response : TriggerResponse) :
    Always OnlyCloses (closeTrigger closes workflowId response) := by
  rw [closeTrigger]
  cases response.closeFunction with
  | none => exact Always.pure _
  | some id =>
    dsimp only
    split
    · exact Always.throw _
    · apply Always.modify
      intro active
      exact ⟨rfl, filter_subset_self _⟩

theorem onlyCloses_closeTriggers (workflowId : String)
    (closes : Nat → CloseOutcome) (responses : List TriggerResponse) :
    Always OnlyCloses (responses.forM (closeTrigger closes workflowId)) :=
  Always.forM fun response _ => onlyCloses_closeTrigger closes response

theorem closed_of_ok {closes : Nat → CloseOutcome}
    (ok : exec (responses.forM (closeTrigger closes workflowId)) before = (.ok ⟨⟩, after)) :
    ∀ trigger ∈ after.running, { closeFunction := some trigger.id } ∉ responses := by
  induction responses generalizing before with
  | nil => simp
  | cons response responses ih =>
    obtain ⟨_, middle, first, rest⟩ := exec_bind_eq_ok.mp ok
    intro trigger mem named
    rcases mem_cons.mp named with rfl | later
    · have inMiddle := (onlyCloses_closeTriggers workflowId closes responses middle).2
      rw [show exec _ middle = _ from rest] at inMiddle
      rw [closeTrigger] at first
      dsimp only at first
      split at first
      · cases first
      · cases first
        have left := (mem_filter.mp (inMiddle mem)).2
        simp at left
    · exact ih rest trigger mem later

theorem closeTriggers_closes (workflowId : String)
    (responses : List TriggerResponse) (before : ActiveWorkflows) :
    ∃ after, exec (responses.forM (closeTrigger (fun _ => .closes)
        workflowId)) before = (.ok ⟨⟩, after) ∧
      ∀ trigger ∈ before.running, { closeFunction := some trigger.id } ∉ responses →
          trigger ∈ after.running := by
  induction responses generalizing before with
  | nil => exact ⟨before, rfl, fun trigger mem _ => mem⟩
  | cons response responses ih =>
    cases found : response.closeFunction with
    | none =>
      have closed : exec (closeTrigger (fun _ => .closes) workflowId
          response) before = (.ok ⟨⟩, before) := by
        rw [closeTrigger, found]
        rfl
      obtain ⟨after, rest, kept⟩ := ih before
      refine ⟨after, exec_bind_eq_ok.mpr ⟨_, _, closed, rest⟩, ?_⟩
      intro trigger mem unnamed
      exact kept trigger mem fun named =>
        unnamed (mem_cons_of_mem _ named)
    | some id =>
      have closed : exec (closeTrigger (fun _ => .closes) workflowId
          response) before = (.ok ⟨⟩, { before with
            running := before.running.filter fun trigger =>
              trigger.id ≠ id }) := by
        rw [closeTrigger, found]
        rfl
      obtain ⟨after, rest, kept⟩ := ih { before with
        running := before.running.filter fun trigger => trigger.id ≠ id }
      refine ⟨after, exec_bind_eq_ok.mpr ⟨_, _, closed, rest⟩, ?_⟩
      intro trigger mem unnamed
      have ne : trigger.id ≠ id := by
        rintro rfl
        apply unnamed
        rw [← found]
        exact mem_cons_self
      apply kept trigger
      · exact mem_filter.mpr ⟨mem, by simpa using ne⟩
      · exact fun named => unnamed (mem_cons_of_mem _ named)

section

variable (active : ActiveWorkflows)

theorem crons_deregisterCrons (workflowId other : String) :
    (active.deregisterCrons workflowId).crons other =
      if workflowId = other then [] else active.crons other := by
  rw [deregisterCrons]
  by_cases none : active.crons workflowId = []
  · rw [if_pos none]
    split
    next same =>
      exact same ▸ none
    · rfl
  · rw [if_neg none, crons, get?_delete]
    split
    · rfl
    · rfl

theorem running_deregisterCrons (workflowId : String) :
    active.deregisterCrons workflowId = { active with
      cronsByWorkflow := (active.deregisterCrons workflowId).cronsByWorkflow }
    := by
  rw [deregisterCrons]
  split <;> rfl

/-- A removal does nothing, or it stops the crons and closes triggers, and
forgets the workflow when all of its triggers have been closed. -/
theorem afterRemove_cases (workflowId : String) (closes : Nat → CloseOutcome) :
    active.isActive workflowId = false ∧ active.afterRemove workflowId closes = active ∨
      ∃ responses running, active.activeWorkflows.get? workflowId = some responses ∧
        running ⊆ active.running ∧
        (active.afterRemove workflowId closes = { active.deregisterCrons workflowId with running } ∨
          (∀ trigger ∈ running, { closeFunction := some trigger.id } ∉ responses) ∧
            active.afterRemove workflowId closes = { active.deregisterCrons workflowId with
                running
                activeWorkflows :=
                  active.activeWorkflows.delete workflowId }) := by
  rw [afterRemove, remove, exec_get_bind]
  cases found : active.activeWorkflows.get? workflowId with
  | none =>
    left
    exact ⟨by simp [isActive, OrderedMap.has, found], rfl⟩
  | some responses =>
    right
    rw [exec_bind_ok (exec_set (active.deregisterCrons workflowId) active), exec_bind]
    have closed := onlyCloses_closeTriggers workflowId closes responses
      (active.deregisterCrons workflowId)
    have sameRunning : (active.deregisterCrons workflowId).running =
        active.running := by rw [running_deregisterCrons]
    have sameActive : (active.deregisterCrons workflowId).activeWorkflows =
        active.activeWorkflows := by rw [running_deregisterCrons]
    cases result : exec (responses.forM (closeTrigger closes workflowId))
        (active.deregisterCrons workflowId) with
    | mk outcome middle =>
      rw [result] at closed
      obtain ⟨same, subset⟩ := closed
      rw [sameRunning] at subset
      refine ⟨responses, middle.running, rfl, subset, ?_⟩
      cases outcome with
      | error message =>
        left
        exact same
      | ok value =>
        right
        refine ⟨closed_of_ok result, ?_⟩
        dsimp only at same ⊢
        rw [exec_modify_bind, exec_pure, ← sameActive]
        rw [same]

end

/-- What holds while no trigger is forgotten and no activation fails after its
first attempt. -/
structure Sound (accepts : CronContext → Bool) (active : ActiveWorkflows) :
    Prop where
  tracked : ∀ trigger ∈ active.running, ∃ responses,
    active.activeWorkflows.get? trigger.workflowId = some responses ∧
      { closeFunction := some trigger.id } ∈ responses
  crons : ∀ workflowId, active.crons workflowId ≠ [] → active.isActive workflowId = true
  failed : ∀ workflowId ∈ active.threw, active.crons workflowId = [] ∧
      ∀ trigger ∈ active.running, trigger.workflowId ≠ workflowId
  fresh : ∀ trigger ∈ active.running, trigger.id < active.nextTrigger
  accepted : AllAccepted accepts active

theorem start_sound (accepts : CronContext → Bool) : Sound accepts {} := by
  constructor
  · simp
  · simp [ActiveWorkflows.crons]
  · simp
  · simp
  · simp [AllAccepted, ActiveWorkflows.crons]

theorem isActive_of_get? (found : active.activeWorkflows.get? workflowId = some responses) :
    active.isActive workflowId = true := by
  simp [isActive, OrderedMap.has, found]

theorem Sound.nothingOutlives (sound : Sound accepts active) : NothingOutlives active := by
  constructor
  · intro trigger mem
    obtain ⟨responses, found, _⟩ := sound.tracked trigger mem
    exact isActive_of_get? found
  · exact sound.crons
  · exact sound.failed

theorem Sound.afterRemove (sound : Sound accepts active) (workflowId : String)
    (closes : Nat → CloseOutcome) :
    Sound accepts (active.afterRemove workflowId closes) := by
  rcases afterRemove_cases active workflowId closes with
    ⟨_, same⟩ | ⟨responses, running, found, subset, changed⟩
  · rw [same]
    exact sound
  · have cronsLeft (other : String) (some : (active.deregisterCrons workflowId).crons other ≠ []) :
        other ≠ workflowId ∧ active.crons other ≠ [] := by
      rw [crons_deregisterCrons] at some
      split at some
      · exact absurd rfl some
      next ne =>
        exact ⟨Ne.symm ne, some⟩
    have failedLeft (other : String) (threw : other ∈ active.threw) :
        (active.deregisterCrons workflowId).crons other = [] ∧
          ∀ trigger ∈ running, trigger.workflowId ≠ other := by
      obtain ⟨none, idle⟩ := sound.failed other threw
      refine ⟨?_, fun trigger mem => idle trigger (subset mem)⟩
      rw [crons_deregisterCrons, none, ite_self]
    have acceptedLeft : AllAccepted accepts (active.deregisterCrons workflowId) := by
      intro other ctx mem
      exact sound.accepted other ctx (by
        have left := (cronsLeft other (ne_nil_of_mem mem)).1
        rwa [crons_deregisterCrons, if_neg (Ne.symm left)] at mem)
    rcases changed with same | ⟨closed, same⟩
    · rw [same, running_deregisterCrons]
      constructor
      · intro trigger mem
        exact sound.tracked trigger (subset mem)
      · intro other some
        exact sound.crons other (cronsLeft other some).2
      · exact failedLeft
      · intro trigger mem
        exact sound.fresh trigger (subset mem)
      · exact acceptedLeft
    · rw [same, running_deregisterCrons]
      constructor
      · intro trigger mem
        obtain ⟨others, stored, named⟩ := sound.tracked trigger (subset mem)
        have ne : workflowId ≠ trigger.workflowId := by
          intro own
          rw [← own, found] at stored
          cases stored
          exact closed trigger mem named
        refine ⟨others, ?_, named⟩
        rw [get?_delete, if_neg ne]
        exact stored
      · intro other some
        obtain ⟨ne, before⟩ := cronsLeft other some
        have isActive := sound.crons other before
        simp only [ActiveWorkflows.isActive, OrderedMap.has, get?_delete, if_neg (Ne.symm ne)]
        exact isActive
      · exact failedLeft
      · intro trigger mem
        exact sound.fresh trigger (subset mem)
      · exact acceptedLeft

theorem afterAdd_cases (workflow : WorkflowToActivate) (active : ActiveWorkflows) :
    (∃ next, exec (add accepts workflow) active = (.ok ⟨⟩, next) ∧
        active.afterAdd accepts workflow = { next with
          threw := next.threw.filter fun other => other ≠ workflow.id }) ∨
      ∃ message next, exec (add accepts workflow) active = (.error message, next) ∧
        active.afterAdd accepts workflow = { next with
          threw := workflow.id :: next.threw } := by
  rw [afterAdd]
  cases result : exec (add accepts workflow) active with
  | mk outcome next =>
    cases outcome with
    | ok value => exact .inl ⟨next, rfl, rfl⟩
    | error message => exact .inr ⟨message, next, rfl, rfl⟩

theorem Sound.afterAdd (sound : Sound accepts active)
    (keeps : KeepsClean accepts active (.add workflow)) :
    Sound accepts (active.afterAdd accepts workflow) := by
  have attempted := attempted_add accepts workflow
  have touches := attempted.touches active
  have throws := attempted.throws active sound.accepted
  simp only [KeepsClean, keepsClean, Bool.and_eq_true, all_eq_true,
    decide_eq_true_eq, Bool.or_eq_true] at keeps
  obtain ⟨notRunning, noThrow⟩ := keeps
  rcases afterAdd_cases workflow active with
    ⟨next, ok, same⟩ | ⟨message, next, failure, same⟩
  · rw [ok] at touches
    rw [same]
    obtain ⟨responses, stored, tracked, _⟩ := add_ok ok
    constructor
    · intro trigger mem
      rcases tracked trigger mem with old | named
      · obtain ⟨others, found, namedOther⟩ := sound.tracked trigger old
        have ne := notRunning trigger old
        exact ⟨others, (touches.others _ ne).1.trans found, namedOther⟩
      · rcases touches.added trigger mem with old | ⟨own, _, _⟩
        · obtain ⟨others, found, namedOther⟩ := sound.tracked trigger old
          have ne := notRunning trigger old
          exact ⟨others, (touches.others _ ne).1.trans found, namedOther⟩
        · exact ⟨responses, own ▸ stored, named⟩
    · intro other some
      by_cases own : other = workflow.id
      · subst own
        exact isActive_of_get? stored
      · obtain ⟨sameActive, sameCrons⟩ := touches.others other own
        have before := sound.crons other (sameCrons ▸ some)
        rw [isActive, OrderedMap.has] at before ⊢
        rw [sameActive]
        exact before
    · intro other threw
      obtain ⟨before, ne⟩ := mem_filter.mp threw
      have ne : other ≠ workflow.id := by simpa using ne
      obtain ⟨none, notStarted⟩ := sound.failed other (touches.threw ▸ before)
      refine ⟨(touches.others other ne).2.trans none, ?_⟩
      intro trigger mem
      rcases touches.added trigger mem with old | ⟨own, _, _⟩
      · exact notStarted trigger old
      · rw [own]
        exact Ne.symm ne
    · intro trigger mem
      rcases touches.added trigger mem with old | ⟨_, _, below⟩
      · exact (sound.fresh trigger old).trans_le touches.nextTrigger
      · exact below
    · exact touches.accepted sound.accepted
  · rw [failure] at touches throws
    rw [same]
    have thrown := throws.mp ⟨message, rfl⟩
    obtain ⟨noCrons, first⟩ := noThrow.resolve_left (by simpa using thrown)
    have unchanged := attempted.idle (by simp [first]) active sound.accepted
    rw [failure] at unchanged
    obtain ⟨sameRunning, sameCrons⟩ := unchanged
    have cronsSame (other : String) : next.crons other = active.crons other :=
      congrArg (fun map => (OrderedMap.get? map other).getD []) sameCrons
    constructor
    · intro trigger mem
      have old := sameRunning ▸ mem
      obtain ⟨others, found, named⟩ := sound.tracked trigger old
      have ne := notRunning trigger old
      exact ⟨others, (touches.others _ ne).1.trans found, named⟩
    · intro other some
      have before : active.crons other ≠ [] := cronsSame other ▸ some
      have ne : other ≠ workflow.id := by
        rintro rfl
        exact before noCrons
      have isActiveBefore := sound.crons other before
      rw [isActive, OrderedMap.has] at isActiveBefore ⊢
      rw [(touches.others other ne).1]
      exact isActiveBefore
    · intro other threw
      rcases mem_cons.mp threw with rfl | before
      · refine ⟨(cronsSame _).trans noCrons, ?_⟩
        intro trigger mem
        exact notRunning trigger (sameRunning ▸ mem)
      · obtain ⟨none, notStarted⟩ := sound.failed other (touches.threw ▸ before)
        refine ⟨(cronsSame _).trans none, ?_⟩
        intro trigger mem
        exact notStarted trigger (sameRunning ▸ mem)
    · intro trigger mem
      exact (sound.fresh trigger (sameRunning ▸ mem)).trans_le touches.nextTrigger
    · exact touches.accepted sound.accepted

theorem Sound.step (sound : Sound accepts active) {call : ActivationCall}
    (keeps : KeepsClean accepts active call)
    (moved : step accepts active call = some after) :
    Sound accepts after := by
  cases call with
  | add workflow =>
    cases moved
    exact sound.afterAdd keeps
  | remove workflowId closes =>
    cases moved
    exact sound.afterRemove workflowId closes

theorem Sound.remainsClean (sound : Sound accepts active) : RemainsClean active := by
  constructor
  · exact sound.nothingOutlives
  · intro workflowId
    exact (sound.afterRemove workflowId _).nothingOutlives

theorem afterRemove_closes (found : active.activeWorkflows.get? workflowId = some responses) :
    ∃ running, active.afterRemove workflowId (fun _ => .closes) =
        { active.deregisterCrons workflowId with
          running
          activeWorkflows := active.activeWorkflows.delete workflowId } ∧
      ∀ trigger ∈ active.running, { closeFunction := some trigger.id } ∉ responses →
          trigger ∈ running := by
  obtain ⟨middle, closed, kept⟩ := closeTriggers_closes workflowId responses
    (active.deregisterCrons workflowId)
  have same := (onlyCloses_closeTriggers workflowId (fun _ => .closes)
    responses (active.deregisterCrons workflowId)).1
  rw [closed] at same
  have sameRunning : (active.deregisterCrons workflowId).running =
      active.running := by rw [running_deregisterCrons]
  have sameActive : (active.deregisterCrons workflowId).activeWorkflows =
      active.activeWorkflows := by rw [running_deregisterCrons]
  rw [sameRunning] at kept
  refine ⟨middle.running, ?_, kept⟩
  rw [afterRemove, remove, exec_get_bind, found]
  dsimp only at same ⊢
  rw [exec_bind_ok (exec_set (active.deregisterCrons workflowId) active),
    exec_bind_ok closed, exec_modify_bind, exec_pure, ← sameActive]
  rw [same]

theorem not_remainsClean_of_forgotten {trigger : RunningTrigger} (mem : trigger ∈ active.running)
    (found : active.activeWorkflows.get? trigger.workflowId = some responses)
    (forgotten : { closeFunction := some trigger.id } ∉ responses) :
    ¬ RemainsClean active := by
  intro clean
  obtain ⟨running, removed, kept⟩ := afterRemove_closes found
  have outlives := (clean.removed trigger.workflowId).triggers
  rw [removed] at outlives
  have isActive := outlives trigger (kept trigger mem forgotten)
  simp [ActiveWorkflows.isActive, OrderedMap.has, get?_delete] at isActive

/-- An activation while a trigger of the workflow is running leaves that
trigger behind. -/
theorem not_running_of_remainsClean (sound : Sound accepts active)
    (clean : RemainsClean (active.afterAdd accepts workflow)) :
    ∀ trigger ∈ active.running, trigger.workflowId ≠ workflow.id := by
  intro trigger mem own
  have touches := (attempted_add accepts workflow).touches active
  rcases afterAdd_cases workflow active with
    ⟨next, ok, same⟩ | ⟨message, next, failure, same⟩
  · rw [ok] at touches
    rw [same] at clean
    obtain ⟨responses, stored, _, new⟩ := add_ok ok
    have found : next.activeWorkflows.get? trigger.workflowId = some responses := own ▸ stored
    have forgotten : { closeFunction := some trigger.id } ∉ responses := by
      intro named
      exact absurd (new trigger.id named) (Nat.not_le_of_lt (sound.fresh trigger mem))
    refine absurd clean (not_remainsClean_of_forgotten ?_ ?_ forgotten)
    · exact touches.running mem
    · exact found
  · rw [failure] at touches
    rw [same] at clean
    have failed := clean.now.failed workflow.id mem_cons_self
    exact failed.2 trigger (touches.running mem) own

/-- An activation that throws is clean only if it has nothing to undo. -/
theorem idle_of_remainsClean (sound : Sound accepts active)
    (clean : RemainsClean (active.afterAdd accepts workflow))
    (thrown : .throws ∈ attempts accepts workflow) :
    active.crons workflow.id = [] ∧ (attempts accepts workflow).head? = some .throws := by
  have attempted := attempted_add accepts workflow
  have touches := attempted.touches active
  have busy (acts : (attempts accepts workflow).head? = some .acts) :=
    attempted.busy acts active sound.accepted
  obtain ⟨message, failure⟩ := (attempted.throws active sound.accepted).mpr thrown
  rcases afterAdd_cases workflow active with
    ⟨next, ok, _⟩ | ⟨_, next, result, same⟩
  · rw [ok] at failure
    cases failure
  · rw [result] at touches busy
    rw [same] at clean
    obtain ⟨noCrons, notRunning⟩ := clean.now.failed workflow.id mem_cons_self
    have notBusy : ¬ Busy next workflow.id := by
      rintro (crons | ⟨trigger, mem, own⟩)
      · exact crons noCrons
      · exact notRunning trigger mem own
    constructor
    · by_contra crons
      exact notBusy (Busy.touches (.inl crons) touches)
    · cases found : attempts accepts workflow with
      | nil =>
        rw [found] at thrown
        cases thrown
      | cons attempt rest =>
        cases attempt with
        | throws => rfl
        | acts => exact absurd (busy (by rw [found]; rfl)) notBusy

theorem keepsClean_of_remainsClean (sound : Sound accepts active)
    {call : ActivationCall} (moved : step accepts active call = some after)
    (clean : RemainsClean after) : KeepsClean accepts active call := by
  cases call with
  | remove workflowId closes => rfl
  | add workflow =>
    cases moved
    simp only [KeepsClean, keepsClean, Bool.and_eq_true, all_eq_true,
      decide_eq_true_eq, Bool.or_eq_true]
    refine ⟨not_running_of_remainsClean sound clean, ?_⟩
    by_cases thrown : .throws ∈ attempts accepts workflow
    · exact .inr (idle_of_remainsClean sound clean thrown)
    · exact .inl thrown

end ActiveWorkflows

end N8n
