import Mathlib.Data.List.ReduceOption
import N8n.Library.Machine

/-!
# The event queue

`processNext` runs until its handler is called; what comes behind the `await` is
a step of its own, and events may come in before it.  An event `none` is
undefined.
-/

namespace N8n

open List

namespace EventQueue

inductive Outcome where
  | fulfilled
  | rejected
deriving DecidableEq

/-- The promise of a handler that was called and is awaited. -/
inductive Handler where
  | pending
  | settled (outcome : Outcome)
deriving DecidableEq

structure State (Event : Type) where
  queue : List (Option Event) := []
  processing : Bool := false
  /-- The handlers that are awaited. -/
  handlers : List Handler := []
  /-- The events that handlers were called with. -/
  handled : List Event := []
  /-- How many errors were reported. -/
  errors : Nat := 0

inductive Action (Event : Type) where
  | enqueue (event : Option Event)
  | settle (handler : Nat) (outcome : Outcome)
  /-- The lines behind the `await`. -/
  | goOn (handler : Nat)

variable {Event : Type}

/-- The recursion of `processNext` where nothing is processed. -/
def shift (state : State Event) : List (Option Event) → State Event
  | [] => { state with queue := [], processing := false }
  | none :: queue => shift state queue
  | some event :: queue =>
    { state with
      queue
      processing := true
      handlers := state.handlers ++ [.pending]
      handled := state.handled ++ [event] }

def processNext (state : State Event) : State Event :=
  if state.processing then state else shift state state.queue

def eventQueue : Machine (State Event) (Action Event)
  | state, .enqueue event =>
    some (processNext { state with queue := state.queue ++ [event] })
  | state, .settle handler outcome =>
    if state.handlers[handler]? = some .pending then
      some { state with
        handlers := state.handlers.set handler (.settled outcome) }
    else none
  | state, .goOn handler =>
    match state.handlers[handler]? with
    | some (.settled outcome) =>
      some (processNext { state with
          handlers := state.handlers.eraseIdx handler
          processing := false
          errors := if outcome = .rejected then state.errors + 1 else state.errors })
    | _ => none

variable (actions : List (Action Event))

def enqueuedEvents : List (Option Event) :=
  actions.filterMap fun
    | .enqueue event => some event
    | _ => none

/-- The events that a run enqueues, except for undefined ones. -/
def enqueued : List Event :=
  (enqueuedEvents actions).reduceOption

/-- One handler is awaited, or nothing is left to do. -/
def InTurn (state : State Event) : Prop :=
  if state.processing then state.handlers.length = 1
  else state.handlers = [] ∧ state.queue = []

/-- What the queue does with the events that came in. -/
structure Handles (state : State Event) (events : List Event) : Prop where
  oneAtATime : state.handlers.length ≤ 1
  /-- Each event was handled once in the order of the events, or waits. -/
  inOrder : state.handled ++ state.queue.reduceOption = events
  nothingWaits : state.handlers = [] → state.queue = []
  /-- Whatever becomes of a handler, it is the turn of the next event. -/
  goesOn : ∀ outcome, state.handlers = [.settled outcome] →
    ∃ next, eventQueue state (.goOn 0) = some next ∧
      next.handled = state.handled ++ state.queue.reduceOption.head?.toList

theorem shift_queue (state : State Event) (queue : List (Option Event)) :
    (shift state queue).handled = state.handled ++ queue.reduceOption.head?.toList ∧
    (shift state queue).queue.reduceOption = queue.reduceOption.tail := by
  induction queue with
  | nil => simp [shift]
  | cons event queue ih =>
    cases event with
    | none => exact ih
    | some event => simp [shift]

variable {state : State Event}

theorem shift_inTurn (idle : state.handlers = [])
    (queue : List (Option Event)) : InTurn (shift state queue) := by
  induction queue with
  | nil => simp [shift, InTurn, idle]
  | cons event queue ih =>
    cases event with
    | none => exact ih
    | some event => simp [shift, InTurn, idle]

theorem processNext_keeps (busy : state.processing = true → state.handlers.length = 1)
    (idle : state.processing = false → state.handlers = []) :
    InTurn (processNext state) ∧
      (processNext state).handled ++ (processNext state).queue.reduceOption =
        state.handled ++ state.queue.reduceOption := by
  cases processing : state.processing with
  | true => simp [processNext, InTurn, processing, busy processing]
  | false =>
    simp only [processNext, processing, Bool.false_eq_true, if_false]
    refine ⟨shift_inTurn (idle processing) _, ?_⟩
    rw [(shift_queue _ _).1, (shift_queue _ _).2, append_assoc]
    cases state.queue.reduceOption <;> rfl

theorem InTurn.idle (inTurn : InTurn state)
    (idle : state.processing = false) : state.handlers = [] ∧ state.queue = [] := by
  simpa [InTurn, idle] using inTurn

theorem InTurn.busy (inTurn : InTurn state)
    (busy : state.processing = true) : state.handlers.length = 1 := by
  simpa [InTurn, busy] using inTurn

theorem eventQueue_keeps {state next : State Event} {action : Action Event}
    (inTurn : InTurn state) (moved : eventQueue state action = some next) :
    InTurn next ∧ next.handled ++ next.queue.reduceOption =
      state.handled ++ state.queue.reduceOption ++ enqueued [action] := by
  cases action with
  | enqueue event =>
    cases moved
    have added : enqueued [Action.enqueue event] = [event].reduceOption := rfl
    rw [added, append_assoc, ← reduceOption_append]
    exact processNext_keeps (fun busy => inTurn.busy busy) (fun idle => (inTurn.idle idle).1)
  | settle handler outcome =>
    obtain ⟨-, rfl⟩ := Machine.of_guarded moved
    refine ⟨?_, (append_nil _).symm⟩
    unfold InTurn at inTurn ⊢
    simpa using inTurn
  | goOn handler =>
    simp only [eventQueue] at moved
    split at moved
    next outcome settled =>
      cases moved
      -- the handler is the only one
      have none : state.handlers.eraseIdx handler = [] := by
        cases processing : state.processing with
        | false => simp [(inTurn.idle processing).1]
        | true =>
          obtain ⟨only, isOnly⟩ := length_eq_one_iff.mp (inTurn.busy processing)
          cases handler with
          | zero => simp [isOnly]
          | succ handler => simp [isOnly] at settled
      rw [show enqueued [Action.goOn handler] = ([] : List Event) from rfl, append_nil]
      exact processNext_keeps (fun busy => by cases busy) (fun _ => none)
    · cases moved

theorem eventQueue_run {state last : State Event} {actions : List (Action Event)}
    (inTurn : InTurn state) (reached : eventQueue.run state actions = some last) :
    InTurn last ∧ last.handled ++ last.queue.reduceOption =
      state.handled ++ state.queue.reduceOption ++ enqueued actions := by
  induction actions generalizing state with
  | nil =>
    cases reached
    exact ⟨inTurn, (append_nil _).symm⟩
  | cons action actions ih =>
    obtain ⟨next, moved, rest⟩ := Machine.run_cons_eq_some.mp reached
    obtain ⟨inTurn', kept⟩ := eventQueue_keeps inTurn moved
    obtain ⟨inTurnLast, keptLast⟩ := ih inTurn' rest
    refine ⟨inTurnLast, ?_⟩
    have added : enqueued (action :: actions) = enqueued [action] ++ enqueued actions := by
      rw [enqueued, enqueued, enqueued, ← reduceOption_append, enqueuedEvents,
        enqueuedEvents, enqueuedEvents, ← filterMap_append]
      rfl
    rw [keptLast, kept, added, append_assoc]

/-- In every interleaving the events that are not undefined are handled one by
one in their order. -/
theorem createEventQueue_handles {actions : List (Action Event)} {state : State Event}
    (reached : eventQueue.run {} actions = some state) :
    Handles state (enqueued actions) := by
  obtain ⟨inTurn, kept⟩ := eventQueue_run (by simp [InTurn]) reached
  refine ⟨?_, by simpa using kept, fun none => ?_, fun outcome settled => ?_⟩
  · cases processing : state.processing with
    | false => simp [(inTurn.idle processing).1]
    | true => exact (inTurn.busy processing).le
  · cases processing : state.processing with
    | false => exact (inTurn.idle processing).2
    | true => simpa [none] using inTurn.busy processing
  · simp [eventQueue, settled, processNext, shift_queue]

theorem createEventQueue_handles_two : let state : State Nat :=
      { processing := true, handlers := [.pending], handled := [4, 5], errors := 1 }
    Handles state [4, 5] := by
  intro state
  have reached : eventQueue.run {} [.enqueue (some 4), .enqueue none,
      .enqueue (some 5), .settle 0 .rejected, .goOn 0] = some state := rfl
  exact createEventQueue_handles reached

/-- An undefined event is not handled. -/
theorem not_handles_undefined : ¬ ∀ (actions : List (Action Nat)) (state : State Nat),
      eventQueue.run {} actions = some state → state.handlers = [] →
        state.handled.map some = enqueuedEvents actions := fun all =>
  absurd (all [.enqueue none] {} rfl rfl) (by decide)

end EventQueue

end N8n
