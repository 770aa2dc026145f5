import Mathlib.Data.List.Basic
import Mathlib.Data.List.Count

/-!
# The life of a task on a runner

A task waits for its settings, runs, and may be aborted by a cancellation or
by its timeout.  `Task.Moves` lists what can happen to one task, whichever
part of the runner does it, and every move keeps `Task.Ordered`.
-/

namespace N8n

open List

inductive TaskStatus where
  | waitingForSettings
  | running
  | abortingCancelled
  | abortingTimeout

/-- A value of the executed code, and whether `JSON.stringify` takes it. -/
structure Payload where
  content : String
  serializable : Bool

inductive TaskError where
  | timeout (taskTimeout : Nat)
  | stringify
  | unexpectedTaskStatus
  | thrown (error : Payload)

def TaskError.serializable : TaskError → Bool
  | .thrown error => error.serializable
  | _ => true

/-- What is left to do of `receivedSettings`.  `executing` awaits the
execution of the task, `rejected` is about to call `taskExecutionFailed`, and
`replied` has called `caseOf` and is about to call `finishTask`. -/
inductive Continuation where
  | executing
  | rejected (error : TaskError)
  | replied (thrown : Option TaskError)

inductive Mark where
  | answered
  | cancelled
  | left
deriving DecidableEq

/-- One task of a runner with its history.  It is `running` as long as it is
among the running tasks, also while it waits for settings or is aborted. -/
structure Task where
  status : Option TaskStatus
  running : Bool
  call : Option Continuation
  marks : List Mark

namespace Task

def Waits (task : Task) : Prop :=
  task.running = true ∧ task.status = some .waitingForSettings

/-- The task has been executed, or an earlier reply to it was rejected. -/
def Asked (task : Task) : Prop :=
  task.call = some .executing ∨ ∃ error, task.call = some (.rejected error)

inductive Moves (task : Task) : Task → Prop where
  | accept (unknown : task.status = none) : Moves task { task with
        status := some .waitingForSettings
        running := true }
  | drop (waits : task.Waits) : Moves task { task with
        running := false
        marks := task.marks ++ [.cancelled, .left] }
  | expire (waits : task.Waits) : Moves task { task with
        running := false
        marks := task.marks ++ [.answered, .left] }
  | begin (waits : task.Waits) : Moves task { task with
        status := some .running
        call := some .executing }
  | cancel (runs : task.status = some .running) : Moves task { task with
        status := some .abortingCancelled
        marks := task.marks ++ [.cancelled] }
  | timeout (runs : task.status = some .running) :
      Moves task { task with status := some .abortingTimeout }
  | reject (error : TaskError) (asked : task.call = some .executing) :
      Moves task { task with call := some (.rejected error) }
  | answer (asked : task.Asked)
      (sends : task.status = some .running ∨ task.status = some .abortingTimeout) :
      Moves task { task with
        call := some (.replied none)
        marks := task.marks ++ [.answered] }
  | fail (thrown : Option TaskError) (asked : task.Asked) :
      Moves task { task with call := some (.replied thrown) }
  | finish {thrown : Option TaskError} (replied : task.call = some (.replied thrown)) :
      Moves task { task with
        running := false
        call := thrown.map .rejected
        marks := task.marks ++ (if task.running then [.left] else []) }

def Open (task : Task) : Prop :=
  task.Waits ∨ task.Asked ∨ ∃ error, task.call = some (.replied (some error))

/-- A task leaves the runner once and is answered once, and not after it was
cancelled. -/
structure Orderly (marks : List Mark) : Prop where
  leftOnce : marks.count .left ≤ 1
  answeredOnce : marks.count .answered ≤ 1
  quiet : marks.Pairwise fun earlier later =>
    earlier = .cancelled → later ≠ .answered

structure Ordered (task : Task) : Prop where
  unknown : task.status = none → task.running = false ∧ task.call = none ∧ task.marks = []
  waiting : task.status = some .waitingForSettings → task.call = none
  orderly : Orderly task.marks
  unanswered : task.Open → .answered ∉ task.marks
  inside : task.running = true → .left ∉ task.marks
  aborted : .cancelled ∈ task.marks → task.status = some .abortingCancelled ∨
      (task.status = some .waitingForSettings ∧ task.running = false)

variable {marks : List Mark}

theorem Orderly.left (orderly : Orderly marks)
    (inside : .left ∉ marks) : Orderly (marks ++ [.left]) := by
  constructor
  · simp [count_eq_zero.mpr inside]
  · simpa using orderly.answeredOnce
  · apply pairwise_append.mpr
    exact ⟨orderly.quiet, by simp, by simp⟩

theorem Orderly.cancel (orderly : Orderly marks) : Orderly (marks ++ [.cancelled]) := by
  constructor
  · simpa using orderly.leftOnce
  · simpa using orderly.answeredOnce
  · apply pairwise_append.mpr
    exact ⟨orderly.quiet, by simp, by simp⟩

theorem Orderly.answer (orderly : Orderly marks)
    (unanswered : .answered ∉ marks) (uncancelled : .cancelled ∉ marks) :
    Orderly (marks ++ [.answered]) := by
  constructor
  · simpa using orderly.leftOnce
  · simp [count_eq_zero.mpr unanswered]
  · apply pairwise_append.mpr
    refine ⟨orderly.quiet, by simp, ?_⟩
    intro earlier mem later _ cancelled
    exact absurd (cancelled ▸ mem) uncancelled

section Moves

variable {task next : Task}

theorem Ordered.uncancelled (ordered : Ordered task)
    (active : task.Waits ∨ task.status = some .running ∨
      task.status = some .abortingTimeout) : .cancelled ∉ task.marks := by
  intro cancelled
  rcases ordered.aborted cancelled with status | ⟨status, outside⟩
  · simp [Waits, status] at active
  · simp [Waits, status, outside] at active

theorem Ordered.moves (ordered : Ordered task) (moves : Moves task next) : Ordered next := by
  cases moves with
  | accept unknown =>
    obtain ⟨outside, call, marks⟩ := ordered.unknown unknown
    constructor
    · simp
    · exact fun _ => call
    · exact ordered.orderly
    · simp [marks]
    · simp [marks]
    · simp [marks]
  | drop waits =>
    have unanswered := ordered.unanswered (.inl waits)
    obtain ⟨running, status⟩ := waits
    have orderly := ordered.orderly.cancel.left (by simpa using ordered.inside running)
    constructor
    · simp [status]
    · exact ordered.waiting
    · simpa using orderly
    · simpa using fun _ => unanswered
    · simp
    · exact fun _ => .inr ⟨status, rfl⟩
  | expire waits =>
    have unanswered := ordered.unanswered (.inl waits)
    have uncancelled := ordered.uncancelled (.inl waits)
    obtain ⟨running, status⟩ := waits
    have call := ordered.waiting status
    have orderly := (ordered.orderly.answer unanswered uncancelled).left
      (by simpa using ordered.inside running)
    constructor
    · simp [status]
    · exact ordered.waiting
    · simpa using orderly
    · simp [Open, Waits, Asked, call]
    · simp
    · simp [uncancelled]
  | begin waits =>
    have unanswered := ordered.unanswered (.inl waits)
    have uncancelled := ordered.uncancelled (.inl waits)
    constructor
    · simp
    · simp
    · exact ordered.orderly
    · exact fun _ => unanswered
    · exact ordered.inside
    · exact fun cancelled => absurd cancelled uncancelled
  | cancel runs =>
    constructor
    · simp
    · simp
    · exact ordered.orderly.cancel
    · intro isOpen
      rcases isOpen with ⟨_, waits⟩ | asked
      · cases waits
      · simpa using ordered.unanswered (.inr asked)
    · simpa using ordered.inside
    · simp
  | timeout runs =>
    have uncancelled := ordered.uncancelled (.inr (.inl runs))
    constructor
    · simp
    · simp
    · exact ordered.orderly
    · intro isOpen
      rcases isOpen with ⟨_, waits⟩ | asked
      · cases waits
      · exact ordered.unanswered (.inr asked)
    · exact ordered.inside
    · exact fun cancelled => absurd cancelled uncancelled
  | reject error asked =>
    have unanswered := ordered.unanswered (.inr (.inl (.inl asked)))
    constructor
    · intro unknown
      simp [(ordered.unknown unknown).2.1] at asked
    · intro waits
      simp [ordered.waiting waits] at asked
    · exact ordered.orderly
    · exact fun _ => unanswered
    · exact ordered.inside
    · exact ordered.aborted
  | answer asked sends =>
    have unanswered := ordered.unanswered (.inr (.inl asked))
    have uncancelled := ordered.uncancelled (.inr sends)
    have started : task.status ≠ none ∧ task.status ≠ some .waitingForSettings := by
      rcases sends with status | status <;> simp [status]
    constructor
    · exact fun unknown => absurd unknown started.1
    · exact fun waits => absurd waits started.2
    · exact ordered.orderly.answer unanswered uncancelled
    · simp [Open, Waits, Asked, started.2]
    · simpa using ordered.inside
    · simp [uncancelled]
  | fail thrown asked =>
    have unanswered := ordered.unanswered (.inr (.inl asked))
    constructor
    · intro unknown
      simp [Asked, (ordered.unknown unknown).2.1] at asked
    · intro waits
      simp [Asked, ordered.waiting waits] at asked
    · exact ordered.orderly
    · exact fun _ => unanswered
    · exact ordered.inside
    · exact ordered.aborted
  | @finish thrown replied =>
    have started : task.status ≠ none ∧ task.status ≠ some .waitingForSettings := by
      constructor
      · intro unknown
        simp [(ordered.unknown unknown).2.1] at replied
      · intro waits
        simp [ordered.waiting waits] at replied
    constructor
    · exact fun unknown => absurd unknown started.1
    · exact fun waits => absurd waits started.2
    · split
      next running =>
        exact ordered.orderly.left (ordered.inside running)
      · simpa using ordered.orderly
    · intro isOpen
      have unanswered : .answered ∉ task.marks := by
        apply ordered.unanswered
        cases thrown with
        | none => simp [Open, Waits, Asked] at isOpen
        | some error => exact .inr (.inr ⟨error, replied⟩)
      simp only [mem_append, unanswered, false_or]
      split <;> simp
    · simp
    · intro cancelled
      have aborted : .cancelled ∈ task.marks := by
        simp only [mem_append] at cancelled
        rcases cancelled with old | new
        · exact old
        · split at new <;> simp at new
      rcases ordered.aborted aborted with status | ⟨status, _⟩
      · exact .inl status
      · exact absurd status started.2

end Moves

end Task

end N8n
