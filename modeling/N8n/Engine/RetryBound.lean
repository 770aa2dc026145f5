import N8n.Engine.FilledStack
import N8n.Engine.ProcessRunExecutionData

/-!
# The tries of a node

A node that is retried is called in two loops, which share the index of the
try: the outer one tries again after an error, the inner one after an output
whose first item carries an error.  A call of the inner loop that throws does
not advance the index before the outer loop does, so one more call than
allowed can follow.  Without such a call, and as long as the output of a
successful call can be processed, the calls stay within the bound.
-/

namespace N8n

open WorkflowExecute Iteration RunPhase RunEvent

/-- `Math.min(5, Math.max(2, executionData.node.maxTries || 3))` -/
def INode.mostTries (node : INode) : Nat :=
  min 5 (max 2 ((node.maxTries.filter (· ≠ 0)).getD 3))

theorem Iteration.maxTries_of_retryOnFail {iteration : Iteration}
    (retries : iteration.executionNode.retryOnFail = some true) :
    iteration.maxTries = iteration.executionNode.mostTries := by
  rw [maxTries, if_pos retries, INode.mostTries]

theorem Iteration.maxTries_pos (iteration : Iteration) : 0 < iteration.maxTries := by
  rw [maxTries]
  split <;> omega

/-! ## The calls of an iteration -/

def RunPhase.callsNode : RunPhase → Bool
  | .runningNode _ | .runningNodeAgain _ => true
  | _ => false

def RunEvent.returnsData : RunEvent → Bool
  | .nodeEnds { outcome := .returned data _, .. } =>
    !WorkflowExecute.nodeFailed data
  | _ => false

/-- A run with the history of the stack entry that was taken last: its node,
the calls of `runNode` for it, whether one of them returned data without an
error item, and the calls after that one. -/
structure CountedRun where
  run : WorkflowExecute
  node : Option INode := none
  calls : Nat := 0
  hasReturned : Bool := false
  callsAfterReturn : Nat := 0

namespace CountedRun

variable (workflow : Workflow) (additionalData : WorkflowExecuteAdditionalData)

section

variable (state : CountedRun)

/-- The history after an event of the iteration. -/
def advance (next : WorkflowExecute) (returns : Bool) : CountedRun :=
  { state with
    run := next
    calls := state.calls + next.phase.callsNode.toNat
    hasReturned := state.hasReturned || returns
    callsAfterReturn := state.callsAfterReturn + (state.hasReturned && next.phase.callsNode).toNat }

/-- The head of the loop begins the history of the next entry. -/
def takesEntry : CountedRun :=
  { run := state.run
    node := state.run.runExecutionData.executionData.nodeExecutionStack.head?.map (·.node) }

/-- The history after an event with the run behind it. -/
def record (next : WorkflowExecute) : RunEvent → CountedRun
  | .cancel => { state with run := next }
  | .loops _ => state.takesEntry.advance next false
  | event => state.advance next event.returnsData

def step : Machine CountedRun RunEvent := fun state event =>
  (WorkflowExecute.step workflow additionalData state.run event).map (state.record · event)

/-- The calls for the entry are within its bound, and none follows a call
that returned data without an error item. -/
def KeepsRetryBound : Prop :=
  ∀ node, state.node = some node → node.retryOnFail = some true →
    state.calls ≤ node.mostTries ∧ state.callsAfterReturn = 0

end

end CountedRun

/-! ## Where the tries go on -/

/-- The iteration of a phase before or between calls or in one, with the calls
that it has begun beyond the index of its try, and the tries it needs. -/
def RunPhase.trial : RunPhase → Option (Iteration × Nat × Nat)
  | .nodeExecuteBefore iteration | .startingTry iteration
  | .waitingBetweenTries iteration => some (iteration, 0, 1)
  | .runningNode iteration => some (iteration, 1, 1)
  | .sleeping iteration => some (iteration, 1, 2)
  | .runningNodeAgain iteration => some (iteration, 2, 2)
  | _ => none

theorem RunPhase.callsNode_of_trial {phase : RunPhase}
    (noTrial : phase.trial = none) : phase.callsNode = false := by
  cases phase <;> first | rfl | cases noTrial

namespace WorkflowExecute

variable {workflow : Workflow}
  {additionalData : WorkflowExecuteAdditionalData} {run : WorkflowExecute}
  {iteration : Iteration}

/-- Either the tries end or the next one begins. -/
def TriesNext (iteration : Iteration) (phase : RunPhase) : Prop :=
  phase.trial = none ∨ ∃ next, (phase = .startingTry next ∨ phase = .waitingBetweenTries next) ∧
      next.executionData = iteration.executionData ∧
      next.tryIndex = iteration.tryIndex + 1 ∧
      next.tryIndex < iteration.maxTries

theorem trial_attempt {α : Type} {computation : Engine α}
    {goOn : WorkflowExecute → α → WorkflowExecute}
    (goesOn : ∀ run value, (goOn run value).phase.trial = none) :
    (run.attempt computation goOn).phase.trial = none := by
  rw [attempt]
  dsimp only
  split
  · exact goesOn _ _
  · rfl

theorem trial_continueIteration :
    (run.continueIteration workflow iteration).phase.trial = none := by
  rw [continueIteration]
  split
  · rfl
  · dsimp only
    split
    · rfl
    · split
      · rfl
      · exact trial_attempt fun _ _ => rfl

theorem trial_afterTries : (run.afterTries workflow iteration).phase.trial = none := by
  rw [afterTries]
  split
  · rfl
  · exact trial_continueIteration

theorem trial_failIteration : (run.failIteration workflow iteration).phase.trial = none := by
  rw [failIteration]
  split
  · exact trial_continueIteration
  · dsimp only
    split <;> rfl

theorem triesNext_failTry (error : ExecutionError) :
    TriesNext iteration (run.failTry workflow iteration error).phase := by
  rw [failTry]
  split
  next more =>
    right
    refine ⟨{ iteration with tryIndex := iteration.tryIndex + 1 }, ?_, rfl, rfl, more⟩
    split
    · exact .inl rfl
    · exact .inr rfl
  next => exact .inl trial_afterTries

/-- The output of a successful call after all that may fail is done to it. -/
def processOutput (workflow : Workflow) (getPairedItem : GetPairedItem)
    (iteration : Iteration) (data : Option NodeSuccessData) :
    Except ExecutionError (Option NodeSuccessData) := do
  let output ← separateErrors workflow getPairedItem { iteration with nodeSuccessData := data } data
  let paired ← assignPairedItems output iteration.executionData
  alwaysOutputData paired iteration.executionData

theorem trial_endTry {data paired output : Option NodeSuccessData}
    (assigned : assignPairedItems data iteration.executionData = .ok paired)
    (completed : alwaysOutputData paired iteration.executionData = .ok output) :
    (run.endTry workflow iteration data).phase.trial = none := by
  rw [endTry, assigned]
  simp only [completed]
  generalize (if paired.isSome then run.setLastNodeExecuted iteration
    else run) = marked
  split
  · rfl
  · exact trial_afterTries

theorem triesNext_endTry (data : Option NodeSuccessData) :
    TriesNext iteration (run.endTry workflow iteration data).phase := by
  cases assigned : assignPairedItems data iteration.executionData with
  | error error =>
    rw [endTry, assigned]
    exact triesNext_failTry error
  | ok paired =>
    cases completed : alwaysOutputData paired iteration.executionData with
    | error error =>
      rw [endTry, assigned]
      simp only [completed]
      exact triesNext_failTry error
    | ok output => exact .inl (trial_endTry assigned completed)

theorem phase_startTry : (run.startTry workflow iteration).phase = .runningNode iteration ∨
      TriesNext iteration (run.startTry workflow iteration).phase := by
  rw [startTry]
  cases run.pinnedData iteration with
  | none => exact .inl rfl
  | some nodePinData =>
    right
    change TriesNext { iteration with nodeSuccessData := some [.value nodePinData] } _
    exact triesNext_endTry _

/-- The tries after a call end, go on, or the inner loop calls again. -/
theorem phase_receiveOutcome {outcome : RunNodeOutcome} : TriesNext iteration
        (run.receiveOutcome workflow additionalData iteration outcome).phase ∨
      (run.receiveOutcome workflow additionalData iteration outcome).phase =
          .sleeping iteration ∧ iteration.tryIndex + 1 ≠ iteration.maxTries ∧
        ∃ data closeFunction, outcome = .returned data closeFunction ∧ nodeFailed data = true := by
  cases outcome with
  | threw error => exact .inl (triesNext_failTry error)
  | requested request =>
    left
    rw [receiveOutcome]
    dsimp only
    split
    · exact .inl rfl
    · exact triesNext_failTry _
  | returned data closeFunction =>
    rw [receiveOutcome]
    by_cases again : nodeFailed data ∧ iteration.tryIndex + 1 ≠ iteration.maxTries
    · rw [if_pos again]
      exact .inr ⟨rfl, again.2, data, closeFunction, rfl, again.1⟩
    · rw [if_neg again]
      left
      dsimp only
      cases separateErrors workflow additionalData.getPairedItem
          { iteration with nodeSuccessData := data } data with
      | error error =>
        change TriesNext { iteration with nodeSuccessData := data } _
        exact triesNext_failTry error
      | ok output =>
        change TriesNext { iteration with nodeSuccessData := output } _
        exact triesNext_endTry output

theorem trial_receiveOutcome {data : Option NodeSuccessData}
    {closeFunction : Bool} {output : Option NodeSuccessData}
    (succeeded : nodeFailed data = false)
    (processed : processOutput workflow additionalData.getPairedItem iteration data = .ok output) :
    (run.receiveOutcome workflow additionalData iteration
      (.returned data closeFunction)).phase.trial = none := by
  rw [receiveOutcome, if_neg (by simp [succeeded])]
  rw [processOutput] at processed
  dsimp only
  cases separated : separateErrors workflow additionalData.getPairedItem
      { iteration with nodeSuccessData := data } data with
  | error error =>
    rw [separated] at processed
    cases processed
  | ok separate =>
    rw [separated] at processed
    cases assigned : assignPairedItems separate iteration.executionData with
    | error error =>
      replace processed : (assignPairedItems separate iteration.executionData >>= fun paired =>
          alwaysOutputData paired iteration.executionData) = .ok output := processed
      rw [assigned] at processed
      cases processed
    | ok paired =>
      replace processed : (assignPairedItems separate iteration.executionData >>= fun paired =>
          alwaysOutputData paired iteration.executionData) = .ok output := processed
      rw [assigned] at processed
      exact @trial_endTry workflow _ { iteration with nodeSuccessData := separate } _ _ _ assigned
        processed

variable {executionError : Option ExecutionError}

theorem trial_finishExecution : (run.finishExecution executionError).phase.trial = none := by
  rw [finishExecution]
  split <;> rfl

theorem trial_processSuccessExecution :
    (run.processSuccessExecution executionError).phase.trial = none := by
  rw [processSuccessExecution]
  split
  · rfl
  · exact trial_finishExecution

/-- The first try of an iteration begins, or the tries go on or end. -/
def TriesFirst (iteration : Iteration) (phase : RunPhase) : Prop :=
  phase = .nodeExecuteBefore iteration ∨ phase = .runningNode iteration ∨ TriesNext iteration phase

theorem phase_startIteration {item : IExecuteData} :
    (run.startIteration workflow item).phase.trial = none ∨
      ∃ iteration, iteration.executionNode = item.node ∧ iteration.tryIndex = 0 ∧
        TriesFirst iteration (run.startIteration workflow item).phase := by
  rw [startIteration, attempt]
  cases began : StateExcept.exec (beginIteration workflow run.lastExecutionTry item)
      run.runExecutionData with
  | mk outcome reached =>
    cases outcome with
    | error error => exact .inl rfl
    | ok start =>
      have spec := beginIteration_spec began
      cases start with
      | skipped | deferred currentExecutionTry => exact .inl rfl
      | started iteration =>
        right
        refine ⟨iteration, spec.1, spec.2, ?_⟩
        dsimp only
        split
        · exact .inr phase_startTry
        · exact .inl rfl

theorem phase_loop {now : Nat} :
    (run.loop workflow additionalData now).phase.trial = none ∨ ∃ item rest iteration,
        run.runExecutionData.executionData.nodeExecutionStack =
          item :: rest ∧ iteration.executionNode = item.node ∧
        iteration.tryIndex = 0 ∧
        TriesFirst iteration (run.loop workflow additionalData now).phase := by
  rw [loop]
  cases stack : run.runExecutionData.executionData.nodeExecutionStack with
  | nil => exact .inl rfl
  | cons item rest =>
    dsimp only
    generalize (if additionalData.executionTimeoutTimestamp.any (· ≤ now)
      then { run with status := .canceled, timedOut := true }
      else run) = checked
    split
    · exact .inl rfl
    · rcases phase_startIteration with ended | ⟨iteration, sameNode, first, tries⟩
      · exact .inl ended
      · exact .inr ⟨item, rest, iteration, rfl, sameNode, first, tries⟩

theorem phase_resolve {next : WorkflowExecute}
    (resolved : run.resolve workflow additionalData = some next) :
    next.phase.trial = none ∨ (∃ iteration, (run.phase = .nodeExecuteBefore iteration ∨
          run.phase = .waitingBetweenTries iteration) ∧
        (next.phase = .runningNode iteration ∨ TriesNext iteration next.phase)) ∨
      ∃ iteration, run.phase = .sleeping iteration ∧
        next.phase = .runningNodeAgain iteration := by
  rw [resolve] at resolved
  cases phase : run.phase with
  | nodeExecuteBefore iteration =>
    rw [phase] at resolved
    cases resolved
    exact .inr (.inl ⟨iteration, .inl rfl, phase_startTry⟩)
  | waitingBetweenTries iteration =>
    rw [phase] at resolved
    cases resolved
    exact .inr (.inl ⟨iteration, .inr rfl, phase_startTry⟩)
  | sleeping iteration =>
    rw [phase] at resolved
    cases resolved
    exact .inr (.inr ⟨iteration, rfl, rfl⟩)
  | establishingContext | failureHook fullRunData =>
    rw [phase] at resolved
    dsimp only at resolved
    left
    split at resolved <;> cases resolved <;> rfl
  | sendingChunk iteration =>
    rw [phase] at resolved
    cases resolved
    exact .inl trial_failIteration
  | nodeExecuteAfter =>
    rw [phase] at resolved
    cases resolved
    exact .inl (trial_attempt fun _ _ => rfl)
  | loopEnded =>
    rw [phase] at resolved
    cases resolved
    exact .inl trial_processSuccessExecution
  | closing executionError =>
    rw [phase] at resolved
    cases resolved
    exact .inl trial_finishExecution
  | loopHead | startingTry | runningNode | runningNodeAgain | resolved =>
    rw [phase] at resolved
    cases resolved
  | workflowExecuteBefore | nodeFailed | nodeWaits | destinationReached
  | threw | workflowExecuteAfter | failureClosing | returning =>
    rw [phase] at resolved
    cases resolved
    exact .inl rfl

theorem trial_failBeforeLoop {error : ExecutionError} :
    (run.failBeforeLoop error).phase.trial = none := by
  rw [failBeforeLoop]
  split <;> rfl

theorem trial_reject {error : ExecutionError} {next : WorkflowExecute}
    (rejected : run.reject workflow additionalData error = some next) :
    next.phase.trial = none := by
  rw [reject] at rejected
  cases phase : run.phase with
  | establishingContext | workflowExecuteBefore =>
    rw [phase] at rejected
    cases rejected
    exact trial_failBeforeLoop
  | closing | failureHook | failureClosing =>
    rw [phase] at rejected
    rcases phase_resolve rejected with ended | ⟨_, before, _⟩ | ⟨_, before, _⟩
    · exact ended
    · rw [phase] at before
      rcases before with before | before <;> cases before
    · rw [phase] at before
      cases before
  | nodeExecuteBefore | sendingChunk | nodeFailed | nodeWaits
  | destinationReached | nodeExecuteAfter | workflowExecuteAfter =>
    rw [phase] at rejected
    cases rejected
    rfl
  | loopHead | startingTry | waitingBetweenTries | runningNode | sleeping
  | runningNodeAgain | loopEnded | threw | returning | resolved =>
    rw [phase] at rejected
    cases rejected

end WorkflowExecute

/-! ## Runs without the defect -/

/-- After the call no try begins that the bound does not allow for: it is no
repeated call that throws, and if it returned data without an error item, the
output can be processed or no try is left. -/
def RunNodeOutcome.keepsTries (workflow : Workflow)
    (getPairedItem : GetPairedItem) (iteration : Iteration) :
    RunNodeOutcome → Bool
  | .returned data _ =>
    nodeFailed data || (processOutput workflow getPairedItem iteration data).isOk ||
      decide (iteration.maxTries ≤ iteration.tryIndex + 1)
  | _ => true

namespace CountedRun

def keepsTries (workflow : Workflow)
    (additionalData : WorkflowExecuteAdditionalData) (state : CountedRun)
    (event : RunEvent) : Bool :=
  match event, state.run.phase with
  | .nodeEnds call, .runningNode iteration =>
    call.outcome.keepsTries workflow additionalData.getPairedItem iteration
  | .nodeEnds call, .runningNodeAgain iteration =>
    match call.outcome with
    | .threw _ => false
    | outcome =>
      outcome.keepsTries workflow additionalData.getPairedItem
        { iteration with tryIndex := iteration.tryIndex + 1 }
  | _, _ => true

/-- `keepsTries` as a condition on the steps of a run. -/
def KeepsTries (workflow : Workflow)
    (additionalData : WorkflowExecuteAdditionalData) (state : CountedRun)
    (event : RunEvent) : Prop :=
  state.keepsTries workflow additionalData event = true

instance (workflow : Workflow) (additionalData : WorkflowExecuteAdditionalData) (state : CountedRun)
    (event : RunEvent) :
    Decidable (KeepsTries workflow additionalData state event) :=
  inferInstanceAs (Decidable (_ = _))

/-- The calls for the entry are within its bound. -/
def Bounded (state : CountedRun) : Prop :=
  ∀ node, state.node = some node → node.retryOnFail = some true → state.calls ≤ node.mostTries

/-- The calls that have begun are covered by the index of the try, and the
bound leaves room for the tries that the phase needs. -/
structure Covers (state : CountedRun) (iteration : Iteration)
    (used needed : Nat) : Prop where
  node : state.node = some iteration.executionNode
  calls : state.calls ≤ iteration.tryIndex + used
  room : iteration.tryIndex + needed ≤ iteration.maxTries
  unreturned : state.hasReturned = false

structure Within (state : CountedRun) : Prop where
  covered : ∀ iteration used needed, state.run.phase.trial = some (iteration, used, needed) →
      state.Covers iteration used needed
  bounded : state.Bounded
  silent : state.callsAfterReturn = 0

variable {workflow : Workflow} {additionalData : WorkflowExecuteAdditionalData} {state : CountedRun}
  {next : WorkflowExecute} {iteration : Iteration} {used : Nat}

theorem Covers.bounded {needed : Nat}
    (covers : state.Covers iteration used needed) (within : used ≤ needed) :
    state.Bounded := by
  intro node isNode retries
  cases covers.node.symm.trans isNode
  rw [← maxTries_of_retryOnFail retries]
  have calls := covers.calls
  have room := covers.room
  omega

variable {returns : Bool}

theorem within_of_ended (within : state.Within) (ended : next.phase.trial = none) :
    (state.advance next returns).Within := by
  have quiet := callsNode_of_trial ended
  refine ⟨?_, ?_, ?_⟩
  · intro iteration used needed trial
    cases ended.symm.trans trial
  · intro node isNode retries
    simpa [advance, quiet] using within.bounded node isNode retries
  · simpa [advance, quiet] using within.silent

theorem within_of_trial {needed : Nat} (silent : state.callsAfterReturn = 0)
    (trial : next.phase.trial = some (iteration, used, needed))
    (fits : used ≤ needed)
    (covers : (state.advance next returns).Covers iteration used needed)
    (unreturned : state.hasReturned = false) :
    (state.advance next returns).Within := by
  refine ⟨?_, covers.bounded fits, ?_⟩
  · intro other otherUsed otherNeeded otherTrial
    cases trial.symm.trans otherTrial
    exact covers
  · simpa [advance, unreturned] using silent

theorem within_of_triesNext (within : state.Within) (covers : state.Covers iteration 1 1)
    (tries : WorkflowExecute.TriesNext iteration next.phase)
    (last : returns = true → next.phase.trial = none) :
    (state.advance next returns).Within := by
  rcases tries with ended | ⟨following, phase, sameData, index, more⟩
  · exact within_of_ended within ended
  · have trial : next.phase.trial = some (following, 0, 1) := by
      rcases phase with starts | waits
      · rw [starts]
        rfl
      · rw [waits]
        rfl
    have quiet : next.phase.callsNode = false := by
      rcases phase with starts | waits
      · rw [starts]
        rfl
      · rw [waits]
        rfl
    have unreturned : returns = false := by
      cases returns with
      | false => rfl
      | true =>
        rw [last rfl] at trial
        cases trial
    have sameNode : following.executionNode = iteration.executionNode :=
      congrArg IExecuteData.node sameData
    have sameTries : following.maxTries = iteration.maxTries := by
      rw [maxTries, maxTries, sameNode]
    refine within_of_trial within.silent trial (by omega) ?_ covers.unreturned
    exact {
      node := by rw [sameNode]; exact covers.node
      calls := by simpa [advance, quiet, index] using covers.calls
      room := by rw [sameTries]; exact more
      unreturned := by simp [advance, unreturned, covers.unreturned] }

theorem within_of_started (within : state.Within) (covers : state.Covers iteration 0 1)
    (started : next.phase = .runningNode iteration ∨
      WorkflowExecute.TriesNext iteration next.phase) :
    (state.advance next false).Within := by
  rcases started with running | tries
  · have trial : next.phase.trial = some (iteration, 1, 1) := by
      rw [running]
      rfl
    refine within_of_trial within.silent trial le_rfl ?_ covers.unreturned
    exact {
      node := covers.node
      calls := by
        have calls := covers.calls
        simp only [advance, running, callsNode, Bool.toNat_true]
        omega
      room := covers.room
      unreturned := by simp [advance, covers.unreturned] }
  · refine within_of_triesNext within ?_ tries (by simp)
    exact { covers with
      calls := covers.calls.trans (by omega) }

theorem within_start {run : WorkflowExecute}
    (outside : run.phase.trial = none) : ({ run } : CountedRun).Within where
  covered := by
    intro iteration used needed trial
    cases outside.symm.trans trial
  bounded := by
    intro node isNode
    cases isNode
  silent := rfl

theorem within_cancel (within : state.Within)
    (moved : WorkflowExecute.step workflow additionalData state.run .cancel = some next) :
    ({ state with run := next } : CountedRun).Within := by
  have samePhase : next.phase = state.run.phase := by
    rw [WorkflowExecute.step] at moved
    split at moved
    · cases moved
    · cases moved
      rfl
  refine ⟨?_, within.bounded, within.silent⟩
  intro iteration used needed trial
  rw [samePhase] at trial
  obtain ⟨node, calls, room, unreturned⟩ := within.covered iteration used needed trial
  exact ⟨node, calls, room, unreturned⟩

theorem within_loops {now : Nat} (moved : WorkflowExecute.step workflow additionalData state.run
      (.loops now) = some next) :
    (state.takesEntry.advance next false).Within := by
  rw [WorkflowExecute.step] at moved
  cases phase : state.run.phase with
  | loopHead =>
    rw [phase] at moved
    cases moved
    have fresh : state.takesEntry.Within := by
      refine ⟨?_, fun node _ _ => Nat.zero_le _, rfl⟩
      intro iteration used needed trial
      rw [show state.takesEntry.run.phase = .loopHead from phase] at trial
      cases trial
    rcases phase_loop with ended | ⟨item, rest, iteration, stack, sameNode, first, tries⟩
    · exact within_of_ended fresh ended
    · have covers : state.takesEntry.Covers iteration 0 1 := {
        node := by rw [takesEntry, stack, sameNode]; rfl
        calls := Nat.zero_le _
        room := by
          have positive := iteration.maxTries_pos
          omega
        unreturned := rfl }
      rcases tries with before | started
      · have quiet : callsNode (loop workflow additionalData state.run now).phase = false := by
          rw [before]
          rfl
        have trial : (loop workflow additionalData
            state.run now).phase.trial = some (iteration, 0, 1) := by
          rw [before]
          rfl
        refine within_of_trial rfl trial (Nat.zero_le 1) ?_ rfl
        exact {
          node := covers.node
          calls := by simp [advance, quiet, takesEntry]
          room := covers.room
          unreturned := rfl }
      · exact within_of_started fresh covers started
  | _ =>
    rw [phase] at moved
    cases moved

theorem within_resolves (within : state.Within)
    (moved : state.run.resolve workflow additionalData = some next) :
    (state.advance next false).Within := by
  rcases phase_resolve moved with ended | ⟨iteration, before, started⟩ | ⟨iteration, sleeps, again⟩
  · exact within_of_ended within ended
  · have covers : state.Covers iteration 0 1 := by
      apply within.covered
      rcases before with before | before
      · rw [before]
        rfl
      · rw [before]
        rfl
    exact within_of_started within covers started
  · have covers : state.Covers iteration 1 2 := by
      apply within.covered
      rw [sleeps]
      rfl
    have trial : next.phase.trial = some (iteration, 2, 2) := by
      rw [again]
      rfl
    refine within_of_trial within.silent trial le_rfl ?_ covers.unreturned
    exact {
      node := covers.node
      calls := by
        have calls := covers.calls
        simp only [advance, again, callsNode, Bool.toNat_true]
        omega
      room := covers.room
      unreturned := by simp [advance, covers.unreturned] }

theorem within_nodeEnds {run : WorkflowExecute} {outcome : RunNodeOutcome}
    {putsToWait : Bool} {subNodeRuns : List (String × Nat × ITaskData)}
    (within : state.Within) (covers : state.Covers iteration 1 1)
    (keeps : outcome.keepsTries workflow additionalData.getPairedItem iteration = true) :
    (state.advance (run.receiveOutcome workflow additionalData iteration outcome)
      (nodeEnds { outcome, putsToWait, subNodeRuns }).returnsData).Within := by
  have phase : WorkflowExecute.TriesNext iteration
      (run.receiveOutcome workflow additionalData iteration outcome).phase ∨
    _ := phase_receiveOutcome
  rcases phase with tries | ⟨sleeps, unfinished, data, closeFunction, rfl, failed⟩
  · apply within_of_triesNext within covers tries
    intro returns
    cases outcome with
    | threw | requested => cases returns
    | returned data closeFunction =>
      have succeeded : nodeFailed data = false := by
        simpa [returnsData] using returns
      simp only [RunNodeOutcome.keepsTries, succeeded, Bool.false_or,
        Bool.or_eq_true, decide_eq_true_eq] at keeps
      rcases keeps with processed | exhausted
      · cases output : processOutput workflow additionalData.getPairedItem iteration data with
        | error error =>
          rw [output] at processed
          cases processed
        | ok output =>
          exact trial_receiveOutcome succeeded ‹_›
      · rcases tries with ended | ⟨following, _, _, index, more⟩
        · exact ended
        · omega
  · have trial : (run.receiveOutcome workflow additionalData iteration
        (.returned data closeFunction)).phase.trial = some (iteration, 1, 2) := by
      rw [sleeps]
      rfl
    refine within_of_trial within.silent trial (by omega) ?_ covers.unreturned
    exact {
      node := covers.node
      calls := by
        simpa [advance, sleeps, callsNode] using covers.calls
      room := by
        have room := covers.room
        omega
      unreturned := by
        simp [advance, covers.unreturned, returnsData, failed] }

theorem within_step {event : RunEvent} {reached : CountedRun}
    (within : state.Within) (keeps : KeepsTries workflow additionalData state event)
    (moved : step workflow additionalData state event = some reached) :
    reached.Within := by
  obtain ⟨next, runStep, rfl⟩ := Option.map_eq_some_iff.mp moved
  cases event with
  | cancel => exact within_cancel within runStep
  | loops now => exact within_loops runStep
  | resolves => exact within_resolves within runStep
  | rejects error =>
    exact within_of_ended within (trial_reject runStep)
  | tries =>
    rw [WorkflowExecute.step] at runStep
    cases phase : state.run.phase with
    | startingTry iteration =>
      rw [phase] at runStep
      cases runStep
      refine within_of_started within ?_ phase_startTry
      apply within.covered
      rw [phase]
      rfl
    | _ =>
      rw [phase] at runStep
      cases runStep
  | nodeEnds call =>
    rw [WorkflowExecute.step] at runStep
    cases phase : state.run.phase with
    | runningNode iteration =>
      simp only [KeepsTries, keepsTries, phase] at keeps
      rw [phase] at runStep
      cases runStep
      apply within_nodeEnds within _ keeps
      apply within.covered
      rw [phase]
      rfl
    | runningNodeAgain iteration =>
      have covers : state.Covers iteration 2 2 := by
        apply within.covered
        rw [phase]
        rfl
      have advanced : state.Covers { iteration with tryIndex := iteration.tryIndex + 1 } 1 1 := {
        node := covers.node
        calls := by
          have calls := covers.calls
          omega
        room := by
          have room := covers.room
          change iteration.tryIndex + 1 + 1 ≤ iteration.maxTries
          omega
        unreturned := covers.unreturned }
      simp only [KeepsTries, keepsTries, phase] at keeps
      rw [phase] at runStep
      obtain ⟨outcome, putsToWait, subNodeRuns⟩ := call
      cases outcome with
      | threw error => cases keeps
      | requested | returned =>
        cases runStep
        exact within_nodeEnds within advanced keeps
    | _ =>
      rw [phase] at runStep
      cases runStep

end CountedRun

namespace CountedRun.Example

def workflow : Workflow :=
  { nodes := Workflow.setNodes [{ name := "Request" }]
    connectionsBySourceNode := .empty
    executionOrder := some .v1
    nodes_named := Workflow.setNodes_named _ }

def start : WorkflowExecute :=
  { runExecutionData := { executionData := { nodeExecutionStack :=
              [{ node :=
                  { name := "Request"
                    retryOnFail := some true
                    maxTries := some 2 }
                 data := .ofMain [.value [INodeExecutionData.blank]]
                 source := none }] } } }

def callsNode : List RunEvent := [.resolves, .resolves, .loops 0, .resolves]

def fails : RunEvent :=
  .nodeEnds { outcome := .threw (.node none (some "failure")) }

def returnsItem (item : INodeExecutionData) : RunEvent :=
  .nodeEnds { outcome := .returned (some [.value [item]]) false }

def errorItem : INodeExecutionData := { json := [("error", .string "failure")] }

end CountedRun.Example

end N8n
