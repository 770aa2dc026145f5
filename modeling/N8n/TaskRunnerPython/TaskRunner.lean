import Mathlib.Algebra.GroupWithZero.Nat
import N8n.Library.Machine
import N8n.Library.OrderedMap

/-!
# The Python task runner

`_send_offers` counts the free places once and then awaits one send after the
other.  The handler of a cancellation can enter it while the offers loop still
has offers to send, and then both fill the same places.
-/

namespace N8n

open Machine

namespace PythonTaskRunner

structure TaskOffer where
  offerId : String
  validUntil : Nat

inductive TaskStatus where
  | waitingForSettings
  | running
  | aborting
deriving DecidableEq

inductive RunnerMessage where
  | info
  | taskOffer (offerId : String) (validFor : Nat)
  | taskAccepted (taskId : String)
  | taskRejected (taskId : String) (reason : String)

/-- A run of `_send_offers_loop`.  While it sends, it has `left` more offers to
send after the one it awaits. -/
inductive OffersLoop where
  | between
  | sending (left : Nat)
  | ended

def OffersLoop.left : OffersLoop → Nat
  | .sending left => left
  | _ => 0

/-- What the handler of the current message awaits. -/
inductive Handler where
  | idle
  | replying
  | sendingOffers (left : Nat)
  | stoppingProcess
deriving DecidableEq

def Handler.left : Handler → Nat
  | .sendingOffers left => left
  | _ => 0

/-- The identifier and the jitter of a new offer, at most 500 ms. -/
structure OfferDraw where
  offerId : String
  jitter : Fin 501

def offerValidity : Nat := 5000

def offerValidityLatencyBuffer : Nat := 100

def reasonOfferExpired : String :=
  "Offer expired - not accepted within validity window"

def reasonAtCapacity : String := "No open task slots - runner already at capacity"

end PythonTaskRunner

/-- A runner and its coroutines: the message handler, the offers loops, and the
tasks that execute.  Times are in milliseconds. -/
structure PythonTaskRunner where
  maxConcurrency : Nat
  canSendOffers : Bool := false
  openOffers : OrderedMap String PythonTaskRunner.TaskOffer := .empty
  runningTasks : OrderedMap String PythonTaskRunner.TaskStatus := .empty
  offersCoroutine : Option Nat := none
  loops : List PythonTaskRunner.OffersLoop := []
  handler : PythonTaskRunner.Handler := .idle
  executing : List String := []
  time : Nat := 0
  sent : List PythonTaskRunner.RunnerMessage := []

namespace PythonTaskRunner

def TaskOffer.hasExpired (offer : TaskOffer) (time : Nat) : Bool :=
  time > offer.validUntil

section

variable (runner : PythonTaskRunner)

def sendMessage (message : RunnerMessage) : PythonTaskRunner :=
  { runner with sent := runner.sent ++ [message] }

def popExpired : PythonTaskRunner :=
  { runner with
    openOffers := runner.openOffers.filter fun entry =>
      !entry.2.hasExpired runner.time }

def offersToSend : Nat :=
  runner.maxConcurrency - (runner.openOffers.size + runner.runningTasks.size)

variable (draw : OfferDraw)

def sendOffer : PythonTaskRunner :=
  let validForMs := offerValidity + draw.jitter
  { runner with
    openOffers := runner.openOffers.set draw.offerId
      { offerId := draw.offerId
        validUntil := runner.time + validForMs + offerValidityLatencyBuffer } }.sendMessage
    (.taskOffer draw.offerId validForMs)

/-- Go on with `_send_offers` when that many offers are left to send.  It
returns, or awaits a send with some offers left. -/
def sendRemaining : Nat → PythonTaskRunner × Option Nat
  | 0 => (runner, none)
  | left + 1 => (runner.sendOffer draw, some left)

/-- `_send_offers` up to its first send. -/
def sendOffers : PythonTaskRunner × Option Nat :=
  if runner.canSendOffers then
    runner.popExpired.sendRemaining draw runner.popExpired.offersToSend
  else (runner, none)

section

variable (outcome : PythonTaskRunner × Option Nat)

def setLoop (index : Nat) : PythonTaskRunner :=
  { outcome.1 with
    loops := outcome.1.loops.set index (match outcome.2 with
        | none => .between
        | some left => .sending left) }

def setHandler : PythonTaskRunner :=
  { outcome.1 with
    handler := match outcome.2 with
      | none => .idle
      | some left => .sendingOffers left }

end

def reply (message : RunnerMessage) : PythonTaskRunner :=
  { runner.sendMessage message with handler := .replying }

def handleRunnerRegistered : PythonTaskRunner :=
  { runner with
    canSendOffers := true
    offersCoroutine := some runner.loops.length
    loops := runner.loops ++ [.between] }

def handleTaskOfferAccept (offerId taskId : String) : PythonTaskRunner :=
  match runner.openOffers.get? offerId with
  | none => runner.reply (.taskRejected taskId reasonOfferExpired)
  | some offer =>
    if offer.hasExpired runner.time then
      runner.reply (.taskRejected taskId reasonOfferExpired)
    else if runner.runningTasks.size ≥ runner.maxConcurrency then
      runner.reply (.taskRejected taskId reasonAtCapacity)
    else
      { runner with
        openOffers := runner.openOffers.delete offerId
        runningTasks := runner.runningTasks.set taskId
          .waitingForSettings }.reply (.taskAccepted taskId)

variable (taskId : String)

/-- A task that is missing is an error that is only logged. -/
def handleTaskSettings : PythonTaskRunner :=
  match runner.runningTasks.get? taskId with
  | some .waitingForSettings =>
    { runner with
      runningTasks := runner.runningTasks.set taskId .running
      executing := runner.executing ++ [taskId] }
  | _ => runner

def popTask : PythonTaskRunner :=
  { runner with runningTasks := runner.runningTasks.delete taskId }

def handleTaskCancel : PythonTaskRunner :=
  match runner.runningTasks.get? taskId with
  | none => runner
  | some .waitingForSettings =>
    setHandler ((runner.popTask taskId).sendOffers draw)
  | some .running =>
    { runner with
      runningTasks := runner.runningTasks.set taskId .aborting
      handler := .stoppingProcess }
  | some .aborting => runner

def cancelOffersCoroutine : PythonTaskRunner :=
  match runner.offersCoroutine with
  | none => runner
  | some index => { runner with loops := runner.loops.set index .ended }

end

end PythonTaskRunner

/-- What can happen next to a runner.  The message handler takes one message
after the other. -/
inductive PythonRunnerEvent where
  | infoRequest
  | runnerRegistered
  | taskOfferAccept (offerId taskId : String)
  | taskSettings (taskId : String)
  | taskCancel (draw : PythonTaskRunner.OfferDraw) (taskId : String)
  | handlerResumes (draw : PythonTaskRunner.OfferDraw)
  | handlerFails
  | loopTurns (draw : PythonTaskRunner.OfferDraw) (index : Nat)
  | loopResumes (draw : PythonTaskRunner.OfferDraw) (index : Nat)
  | loopFails (index : Nat)
  | executed (taskId : String)
  | disconnected
  | stop
  | terminateTasks
  | elapse (milliseconds : Nat)

namespace PythonTaskRunner

def step : Machine PythonTaskRunner PythonRunnerEvent
  | runner, .infoRequest =>
    if runner.handler = .idle then some (runner.reply .info) else none
  | runner, .runnerRegistered =>
    if runner.handler = .idle then some runner.handleRunnerRegistered
    else none
  | runner, .taskOfferAccept offerId taskId =>
    if runner.handler = .idle then
      some (runner.handleTaskOfferAccept offerId taskId)
    else none
  | runner, .taskSettings taskId =>
    if runner.handler = .idle then some (runner.handleTaskSettings taskId)
    else none
  | runner, .taskCancel draw taskId =>
    if runner.handler = .idle then
      some (runner.handleTaskCancel draw taskId)
    else none
  | runner, .handlerResumes draw =>
    match runner.handler with
    | .idle => none
    | .sendingOffers left => some (setHandler (runner.sendRemaining draw left))
    | _ => some { runner with handler := .idle }
  | runner, .handlerFails =>
    if runner.handler = .idle then none
    else some { runner with handler := .idle }
  | runner, .loopTurns draw index =>
    match runner.loops[index]? with
    | some .between =>
      if runner.canSendOffers then
        some (setLoop (runner.sendOffers draw) index)
      else some { runner with loops := runner.loops.set index .ended }
    | _ => none
  | runner, .loopResumes draw index =>
    match runner.loops[index]? with
    | some (.sending left) =>
      some (setLoop (runner.sendRemaining draw left) index)
    | _ => none
  | runner, .loopFails index =>
    match runner.loops[index]? with
    | some (.sending _) =>
      some { runner with loops := runner.loops.set index .between }
    | _ => none
  | runner, .executed taskId =>
    if taskId ∈ runner.executing then
      some { runner.popTask taskId with
        executing := runner.executing.erase taskId }
    else none
  | runner, .disconnected =>
    if runner.handler = .idle then
      some { runner with canSendOffers := false }.cancelOffersCoroutine
    else none
  | runner, .stop =>
    some { runner with canSendOffers := false }.cancelOffersCoroutine
  | runner, .terminateTasks =>
    some { runner with runningTasks := .empty }
  | runner, .elapse milliseconds =>
    some { runner with time := runner.time + milliseconds }

section

variable (runner : PythonTaskRunner)

/-- The unexpired open offers and the running tasks keep within the
concurrency of the runner. -/
def WithinCapacity : Prop :=
  runner.popExpired.openOffers.size + runner.runningTasks.size ≤ runner.maxConcurrency

/-- The offers that calls of `_send_offers` still have to send. -/
def leftToSend : Nat :=
  (runner.loops.map OffersLoop.left).sum + runner.handler.left

/-- A call of `_send_offers` sends offers only if no other one has some left
to send. -/
def SendsAlone : Prop :=
  runner.canSendOffers = true → 0 < runner.popExpired.offersToSend → runner.leftToSend = 0

/-- The calls of `_send_offers` in an event send alone. -/
def EntersAlone : PythonRunnerEvent → Prop
  | .taskCancel _ taskId =>
    runner.runningTasks.get? taskId = some .waitingForSettings → (runner.popTask taskId).SendsAlone
  | .loopTurns _ _ => runner.SendsAlone
  | _ => True

/-- A task is accepted for an open offer, which is used up. -/
def AnswersOpenOffer : PythonRunnerEvent → Prop
  | .taskOfferAccept offerId taskId => ∀ next,
      step runner (.taskOfferAccept offerId taskId) = some next →
      next.sent = runner.sent ++ [.taskAccepted taskId] →
      (∃ offer, runner.openOffers.get? offerId = some offer ∧
        offer.hasExpired runner.time = false) ∧
      next.openOffers.get? offerId = none
  | _ => True

/-- The places are enough for the offers that are still to be sent. -/
def Invariant : Prop :=
  runner.openOffers.size + runner.runningTasks.size + runner.leftToSend ≤ runner.maxConcurrency

end

theorem sum_map_set {α : Type} (measure : α → Nat) {items : List α}
    {index : Nat} {old : α} (found : items[index]? = some old) (new : α) :
    ((items.set index new).map measure).sum + measure old =
      (items.map measure).sum + measure new := by
  induction items generalizing index with
  | nil => simp at found
  | cons item items ih =>
    cases index with
    | zero =>
      simp only [List.getElem?_cons_zero, Option.some.injEq] at found
      subst found
      simp only [List.set_cons_zero, List.map_cons, List.sum_cons]
      omega
    | succ index =>
      have rest := ih found
      simp only [List.set_cons_succ, List.map_cons, List.sum_cons]
      omega

section Steps

variable {runner next : PythonTaskRunner}

theorem Invariant.withinCapacity (inv : runner.Invariant) : runner.WithinCapacity := by
  have fewer := runner.openOffers.size_filter_le fun entry => !entry.2.hasExpired runner.time
  simp only [Invariant, WithinCapacity, popExpired] at inv fewer ⊢
  omega

/-- The offers that are left after the next one fit the places, where `own`
is what the call had left before. -/
theorem sendRemaining_fits {left : Nat} (own : Nat) (draw : OfferDraw)
    (room : runner.openOffers.size + runner.runningTasks.size + left +
      runner.leftToSend ≤ runner.maxConcurrency + own) :
    let outcome := runner.sendRemaining draw left
    outcome.1.openOffers.size + outcome.1.runningTasks.size +
        outcome.2.getD 0 + outcome.1.leftToSend ≤
      outcome.1.maxConcurrency + own := by
  cases left with
  | zero => simpa [sendRemaining] using room
  | succ left =>
    have grown := runner.openOffers.size_set_le draw.offerId
      { offerId := draw.offerId
        validUntil := runner.time + (offerValidity + draw.jitter) + offerValidityLatencyBuffer }
    simp only [sendRemaining, sendOffer, sendMessage, leftToSend, Option.getD_some] at room grown ⊢
    omega

section

variable (draw : OfferDraw)

theorem loops_sendRemaining (left : Nat) :
    (runner.sendRemaining draw left).1.loops = runner.loops := by
  cases left <;> rfl

theorem handler_sendRemaining (left : Nat) :
    (runner.sendRemaining draw left).1.handler = runner.handler := by
  cases left <;> rfl

theorem sendOffers_fits (inv : runner.Invariant) (alone : runner.SendsAlone) :
    let outcome := runner.sendOffers draw
    outcome.1.openOffers.size + outcome.1.runningTasks.size +
        outcome.2.getD 0 + outcome.1.leftToSend ≤
      outcome.1.maxConcurrency := by
  have fewer := runner.openOffers.size_filter_le fun entry => !entry.2.hasExpired runner.time
  simp only [sendOffers]
  split
  next canSend =>
    apply sendRemaining_fits 0
    have alone := alone canSend
    simp only [Invariant, popExpired, offersToSend, leftToSend] at inv fewer alone ⊢
    omega
  · simpa [Invariant] using inv

theorem loops_sendOffers : (runner.sendOffers draw).1.loops = runner.loops := by
  simp only [sendOffers]
  split
  · exact loops_sendRemaining draw _
  · rfl

end

variable {outcome : PythonTaskRunner × Option Nat}

theorem invariant_setLoop
    {index : Nat} {old : OffersLoop} (found : outcome.1.loops[index]? = some old)
    (fits : outcome.1.openOffers.size + outcome.1.runningTasks.size +
        outcome.2.getD 0 + outcome.1.leftToSend ≤
      outcome.1.maxConcurrency + old.left) :
    (setLoop outcome index).Invariant := by
  obtain ⟨runner, left⟩ := outcome
  cases left with
  | none =>
    have sum := sum_map_set OffersLoop.left found .between
    simp only [Invariant, setLoop, leftToSend, Option.getD_none] at fits sum ⊢
    simp only [OffersLoop.left] at sum fits ⊢
    omega
  | some left =>
    have sum := sum_map_set OffersLoop.left found (.sending left)
    simp only [Invariant, setLoop, leftToSend, Option.getD_some] at fits sum ⊢
    simp only [OffersLoop.left] at sum fits ⊢
    omega

theorem invariant_setHandler (fits : outcome.1.openOffers.size + outcome.1.runningTasks.size +
        outcome.2.getD 0 + outcome.1.leftToSend ≤
      outcome.1.maxConcurrency + outcome.1.handler.left) :
    (setHandler outcome).Invariant := by
  obtain ⟨runner, left⟩ := outcome
  cases left <;> simp only [Invariant, setHandler, leftToSend, Option.getD_none,
      Option.getD_some, Handler.left] at fits ⊢ <;> omega

theorem Invariant.handleTaskOfferAccept (inv : runner.Invariant)
    (idle : runner.handler = .idle) (offerId taskId : String) :
    (runner.handleTaskOfferAccept offerId taskId).Invariant := by
  have rejected : ∀ message, (runner.reply message).Invariant := by
    intro message
    simp only [Invariant, leftToSend, idle] at inv ⊢
    exact inv
  simp only [PythonTaskRunner.handleTaskOfferAccept]
  split
  · exact rejected _
  next offer found =>
    split
    · exact rejected _
    · split
      · exact rejected _
      · have freed := OrderedMap.size_delete_of_get? found
        have grown := runner.runningTasks.size_set_le taskId .waitingForSettings
        simp only [Invariant, leftToSend, idle, reply, sendMessage, Handler.left] at inv ⊢
        omega

theorem Invariant.popTask (inv : runner.Invariant) (taskId : String) :
    (runner.popTask taskId).Invariant := by
  have fewer := runner.runningTasks.size_delete_le taskId
  simp only [Invariant, PythonTaskRunner.popTask, leftToSend] at inv fewer ⊢
  omega

theorem Invariant.handleTaskCancel (inv : runner.Invariant)
    (idle : runner.handler = .idle) (draw : OfferDraw) (taskId : String)
    (alone : runner.runningTasks.get? taskId = some .waitingForSettings →
      (runner.popTask taskId).SendsAlone) :
    (runner.handleTaskCancel draw taskId).Invariant := by
  simp only [PythonTaskRunner.handleTaskCancel]
  split
  · exact inv
  next waits =>
    apply invariant_setHandler
    apply Nat.le_add_right_of_le
    exact sendOffers_fits draw (inv.popTask taskId) (alone waits)
  next runs =>
    have size := OrderedMap.size_set_of_get? runs TaskStatus.aborting
    simp only [Invariant, leftToSend, idle, Handler.left] at inv ⊢
    omega
  · exact inv

theorem Invariant.handleTaskSettings (inv : runner.Invariant)
    (taskId : String) : (runner.handleTaskSettings taskId).Invariant := by
  simp only [PythonTaskRunner.handleTaskSettings]
  split
  next waits =>
    have size := OrderedMap.size_set_of_get? waits TaskStatus.running
    simp only [Invariant, leftToSend] at inv ⊢
    omega
  · exact inv

theorem Invariant.setLoop_idle (inv : runner.Invariant) {index : Nat}
    {old new : OffersLoop} (found : runner.loops[index]? = some old)
    (idle : new.left = 0) :
    { runner with loops := runner.loops.set index new }.Invariant := by
  have sum := sum_map_set OffersLoop.left found new
  simp only [Invariant, leftToSend] at inv ⊢
  omega

theorem Invariant.cancelOffersCoroutine (inv : runner.Invariant) :
    runner.cancelOffersCoroutine.Invariant := by
  simp only [PythonTaskRunner.cancelOffersCoroutine]
  split
  · exact inv
  next index _ =>
    cases found : runner.loops[index]? with
    | none =>
      rw [List.getElem?_eq_none_iff] at found
      rw [List.set_eq_of_length_le found]
      exact inv
    | some old => exact inv.setLoop_idle found rfl

theorem invariant_step (event : PythonRunnerEvent)
    (inv : runner.Invariant) (alone : runner.EntersAlone event)
    (moved : step runner event = some next) : next.Invariant := by
  cases event with
  | infoRequest =>
    obtain ⟨idle, rfl⟩ := of_guarded moved
    simp only [Invariant, leftToSend, idle] at inv ⊢
    exact inv
  | runnerRegistered =>
    obtain ⟨idle, rfl⟩ := of_guarded moved
    simpa [Invariant, leftToSend, handleRunnerRegistered, OffersLoop.left] using inv
  | taskOfferAccept offerId taskId =>
    obtain ⟨idle, rfl⟩ := of_guarded moved
    exact inv.handleTaskOfferAccept idle offerId taskId
  | taskSettings taskId =>
    obtain ⟨_, rfl⟩ := of_guarded moved
    exact inv.handleTaskSettings taskId
  | taskCancel draw taskId =>
    obtain ⟨idle, rfl⟩ := of_guarded moved
    exact inv.handleTaskCancel idle draw taskId alone
  | handlerResumes draw =>
    simp only [step] at moved
    split at moved
    · cases moved
    next left sending =>
      cases moved
      apply invariant_setHandler
      apply sendRemaining_fits
      rw [handler_sendRemaining, sending]
      simp only [Invariant, Handler.left] at inv ⊢
      omega
    · cases moved
      simp only [Invariant, leftToSend, Handler.left] at inv ⊢
      omega
  | handlerFails =>
    simp only [step, Option.ite_none_left_eq_some, Option.some.injEq] at moved
    obtain ⟨_, rfl⟩ := moved
    simp only [Invariant, leftToSend, Handler.left] at inv ⊢
    omega
  | loopTurns draw index =>
    simp only [step] at moved
    split at moved
    next between =>
      split at moved
      · cases moved
        apply invariant_setLoop
        · rw [loops_sendOffers]
          exact between
        · apply Nat.le_add_right_of_le
          exact sendOffers_fits draw inv alone
      · cases moved
        exact inv.setLoop_idle between rfl
    · cases moved
  | loopResumes draw index =>
    simp only [step] at moved
    split at moved
    next left sending =>
      cases moved
      apply invariant_setLoop
      · rw [loops_sendRemaining]
        exact sending
      · apply sendRemaining_fits
        simp only [Invariant, OffersLoop.left] at inv ⊢
        omega
    · cases moved
  | loopFails index =>
    simp only [step] at moved
    split at moved
    next left sending =>
      cases moved
      exact inv.setLoop_idle sending rfl
    · cases moved
  | executed taskId =>
    obtain ⟨_, rfl⟩ := of_guarded moved
    exact inv.popTask taskId
  | disconnected =>
    obtain ⟨_, rfl⟩ := of_guarded moved
    exact Invariant.cancelOffersCoroutine inv
  | stop =>
    cases moved
    exact Invariant.cancelOffersCoroutine inv
  | terminateTasks =>
    cases moved
    simp only [Invariant, leftToSend, OrderedMap.size, OrderedMap.empty, List.length_nil] at inv ⊢
    omega
  | elapse milliseconds =>
    cases moved
    exact inv

theorem answersOpenOffer (runner : PythonTaskRunner)
    (event : PythonRunnerEvent) : runner.AnswersOpenOffer event := by
  cases event with
  | taskOfferAccept offerId taskId =>
    intro next moved answered
    obtain ⟨_, rfl⟩ := of_guarded moved
    simp only [handleTaskOfferAccept] at answered ⊢
    split at answered
    · simp [reply, sendMessage] at answered
    next offer found =>
      split at answered
      · simp [reply, sendMessage] at answered
      next unexpired =>
        split at answered
        · simp [reply, sendMessage] at answered
        next free =>
          rw [if_neg unexpired, if_neg free]
          constructor
          · exact ⟨offer, found, by simpa using unexpired⟩
          · simp [reply, sendMessage, OrderedMap.get?_delete]
  | _ => exact True.intro

theorem invariant_start (maxConcurrency : Nat) : Invariant { maxConcurrency := maxConcurrency } :=
  Nat.zero_le _

end Steps

/-- In a run whose calls of `_send_offers` send alone, the runner keeps within
its concurrency.  In every run tasks are accepted for open offers only. -/
theorem withinCapacity_of_entersAlone {maxConcurrency : Nat} {events : List PythonRunnerEvent}
    (alone : step.Meets EntersAlone { maxConcurrency := maxConcurrency } events) :
    step.Always WithinCapacity { maxConcurrency := maxConcurrency } events ∧
      step.Meets AnswersOpenOffer { maxConcurrency := maxConcurrency }
        events := by
  constructor
  · exact always_of_meets (fun _ event _ invariant alone stepped =>
        invariant_step event invariant alone stepped)
      (fun _ invariant => Invariant.withinCapacity invariant)
      (invariant_start maxConcurrency) alone
  · exact meets_of_forall answersOpenOffer _ events

section Example

instance (runner : PythonTaskRunner) : Decidable runner.WithinCapacity :=
  inferInstanceAs (Decidable (_ ≤ _))

instance (runner : PythonTaskRunner) : Decidable runner.SendsAlone :=
  inferInstanceAs (Decidable (_ → _ → _))

instance (runner : PythonTaskRunner) (event : PythonRunnerEvent) :
    Decidable (runner.EntersAlone event) :=
  match event with
  | .taskCancel _ _ => inferInstanceAs (Decidable (_ → _))
  | .loopTurns _ _ => inferInstanceAs (Decidable (SendsAlone _))
  | .infoRequest | .runnerRegistered | .taskOfferAccept _ _
  | .taskSettings _ | .handlerResumes _ | .handlerFails
  | .loopResumes _ _ | .loopFails _ | .executed _ | .disconnected | .stop
  | .terminateTasks | .elapse _ => isTrue True.intro

def draw (offerId : String) : OfferDraw :=
  { offerId := offerId
    jitter := 0 }

/-- Two of three offers expire, and the loop sends two new ones.  Between its
two sends the accepted task is cancelled. -/
def cancelledBetweenSends : List PythonRunnerEvent :=
  [.runnerRegistered, .loopTurns (draw "1") 0, .loopResumes (draw "2") 0,
   .loopResumes (draw "3") 0, .loopResumes (draw "") 0,
   .taskOfferAccept "1" "task", .handlerResumes (draw ""), .elapse 5200,
   .loopTurns (draw "4") 0, .taskCancel (draw "5") "task",
   .loopResumes (draw "6") 0, .handlerResumes (draw "7")]

theorem withinCapacity_cancelledAfterSends : step.Always WithinCapacity { maxConcurrency := 2 }
        [.runnerRegistered, .loopTurns (draw "1") 0,
         .loopResumes (draw "2") 0, .loopResumes (draw "") 0,
         .taskOfferAccept "1" "task", .handlerResumes (draw ""),
         .taskCancel (draw "3") "task"] ∧
      step.Meets AnswersOpenOffer { maxConcurrency := 2 }
        [.runnerRegistered, .loopTurns (draw "1") 0,
         .loopResumes (draw "2") 0, .loopResumes (draw "") 0,
         .taskOfferAccept "1" "task", .handlerResumes (draw ""),
         .taskCancel (draw "3") "task"] := by
  apply withinCapacity_of_entersAlone
  decide

/-- Four offers are open on a runner with three places. -/
theorem not_withinCapacity_cancelledBetweenSends :
    ∃ last, step.run { maxConcurrency := 3 } cancelledBetweenSends = some last ∧
      last.popExpired.openOffers.keys = ["4", "5", "6", "7"] ∧
      ¬ last.WithinCapacity := by
  refine ⟨_, rfl, ?_⟩
  decide

end Example

end PythonTaskRunner

end N8n
