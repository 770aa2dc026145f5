import N8n.Concurrency.ConcurrencyQueue

/-!
# Concurrency control

`ConcurrencyControlService` keeps one queue for production executions and one
for evaluations.  Executions of other modes, and of a type without a limit,
pass without a slot.
-/

namespace N8n

inductive ExecutionMode where
  | cli
  | error
  | integrated
  | internal
  | manual
  | retry
  | trigger
  | webhook
  | evaluation
  | chat

inductive ConcurrencyQueueType where
  | production
  | evaluation
deriving DecidableEq

def ExecutionMode.queueType : ExecutionMode → Option ConcurrencyQueueType
  | .error | .integrated | .cli | .internal | .manual | .retry => none
  | .webhook | .trigger | .chat => some .production
  | .evaluation => some .evaluation

structure ConcurrencyControl where
  isEnabled : Bool
  production : Option ConcurrencyQueue := none
  evaluation : Option ConcurrencyQueue := none

namespace ConcurrencyControl

/-- A limit below zero is no limit. -/
def queueOfLimit (limit : Int) : Option ConcurrencyQueue :=
  if 0 < limit then some { capacity := limit } else none

/-- The constructor rejects a limit of zero. -/
def create (regular : Bool) (productionLimit evaluationLimit : Int) : Option ConcurrencyControl :=
  if productionLimit = 0 ∨ evaluationLimit = 0 then none
  else if regular = false ∨ productionLimit < 0 ∧ evaluationLimit < 0 then
    some { isEnabled := false }
  else
    some
      { isEnabled := true
        production := queueOfLimit productionLimit
        evaluation := queueOfLimit evaluationLimit }

section

variable (control : ConcurrencyControl)

def queue : ConcurrencyQueueType → Option ConcurrencyQueue
  | .production => control.production
  | .evaluation => control.evaluation

def setQueue (type : ConcurrencyQueueType) (queue : ConcurrencyQueue) : ConcurrencyControl :=
  match type with
  | .production => { control with production := some queue }
  | .evaluation => { control with evaluation := some queue }

variable (mode : ExecutionMode)

def getQueue : Option ConcurrencyQueue :=
  mode.queueType.bind control.queue

/-- Executions of the mode need a slot. -/
def limits : Bool :=
  control.isEnabled && (control.getQueue mode).isSome

/-- `throttle`, `release` and `remove` call the queue of the mode, if there is
one. -/
def onQueue (call : ConcurrencyQueue → ConcurrencyQueue × Option String) :
    ConcurrencyControl × Option String :=
  match mode.queueType, control.getQueue mode with
  | some type, some queue =>
    if control.isEnabled then
      (control.setQueue type (call queue).1, (call queue).2)
    else (control, none)
  | _, _ => (control, none)

def throttle (executionId : String) : ConcurrencyControl × Option String :=
  control.onQueue mode (·.enqueue executionId)

def release : ConcurrencyControl × Option String :=
  control.onQueue mode (·.dequeue)

def remove (control : ConcurrencyControl) (mode : ExecutionMode)
    (executionId : String) : ConcurrencyControl × Option String :=
  control.onQueue mode (·.remove executionId)

def has (control : ConcurrencyControl) (executionId : String) : Bool :=
  control.isEnabled && (control.production.any (·.has executionId) ||
      control.evaluation.any (·.has executionId))

def disable : ConcurrencyControl :=
  { control with isEnabled := false }

end

section OnQueue

variable {control : ConcurrencyControl}

theorem queue_setQueue (type other : ConcurrencyQueueType) (queue : ConcurrencyQueue) :
    (control.setQueue type queue).queue other =
      if type = other then some queue else control.queue other := by
  cases type <;> cases other <;> rfl

theorem isEnabled_setQueue (type : ConcurrencyQueueType) (queue : ConcurrencyQueue) :
    (control.setQueue type queue).isEnabled = control.isEnabled := by
  cases type <;> rfl

theorem limits_onQueue (mode other : ExecutionMode)
    (call : ConcurrencyQueue → ConcurrencyQueue × Option String) :
    (control.onQueue mode call).1.isEnabled = control.isEnabled ∧
      (control.onQueue mode call).1.limits other = control.limits other := by
  simp only [onQueue]
  split
  next type queue typed found =>
    split
    · refine ⟨isEnabled_setQueue type _, ?_⟩
      simp only [getQueue, typed, Option.bind_some] at found
      simp only [limits, getQueue, isEnabled_setQueue]
      cases otherTyped : other.queueType with
      | none => rfl
      | some otherType =>
        simp only [Option.bind_some, queue_setQueue]
        split
        next same =>
          rw [← same, found]
          rfl
        · rfl
    · exact ⟨rfl, rfl⟩
  · exact ⟨rfl, rfl⟩

theorem regular_of_create {regular : Bool} {productionLimit evaluationLimit : Int}
    (created : create regular productionLimit evaluationLimit = some control)
    (enabled : control.isEnabled = true) : regular = true := by
  simp only [create] at created
  split at created
  · cases created
  · split at created
    · cases created
      cases enabled
    next limited =>
      rw [← Bool.not_eq_false]
      exact fun scaling => limited (.inl scaling)

end OnQueue

end ConcurrencyControl

end N8n
