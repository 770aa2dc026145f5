import N8n.Engine.EnsureInputData
import N8n.Engine.ProcessRunExecutionData
import N8n.Engine.WaitingCheck
import N8n.Library.RotatingQueue

/-!
# Items that wait for their data

An item that does not pass the check for its input data goes to the end of
the stack.  When no item passes, the stack rotates.  The loop only compares
the node and run index at hand with those of the item deferred last, so it
finds an endless loop exactly if two items that follow each other agree in
them.
-/

namespace N8n

open List RotatingQueue StateExcept OrderedMap WorkflowExecute Machine

/-! ## The data of a taken item -/

section Input

variable {executionData : IExecuteData}

def pairedSlot (keepsSource : Bool) (inputIndex : Nat) :
    Slot (List INodeExecutionData) → Slot (List INodeExecutionData)
  | .value items =>
    .value (items.mapIdx (pairedInputItem keepsSource inputIndex))
  | slot => slot

def pairedSlots (keepsSource : Bool) (inputs : SlotArray (List INodeExecutionData)) :
    SlotArray (List INodeExecutionData) :=
  inputs.mapIdx (pairedSlot keepsSource)

/-- No slot of the data is `undefined`. -/
def IsReadable (executionData : IExecuteData) : Bool :=
  executionData.data.values.all (.undefined ∉ ·)

variable {keepsSource : Bool}

variable {inputs : SlotArray (List INodeExecutionData)}

theorem mapM_pairedInput_eq_ok {start : Nat} (readable : .undefined ∉ inputs) :
    ((inputs.zipIdx start).mapM fun (input, inputIndex) =>
      pairedInput keepsSource inputIndex input) = .ok (inputs.mapIdx fun index =>
          pairedSlot keepsSource (index + start)) := by
  induction inputs generalizing start with
  | nil => rfl
  | cons input inputs ih =>
    rw [mem_cons, not_or] at readable
    have first : pairedInput keepsSource start input =
        .ok (pairedSlot keepsSource start input) := by
      cases input with
      | undefined => exact absurd rfl readable.1
      | hole | null | value => rfl
    rw [zipIdx_cons, mapM_cons]
    dsimp only
    rw [first, ih readable.2, mapIdx_cons, Nat.zero_add]
    simp only [Nat.add_assoc, Nat.add_comm 1 start]
    rfl

theorem mapM_pairedInput_eq_error {start : Nat} (unreadable : .undefined ∈ inputs) :
    ((inputs.zipIdx start).mapM fun (input, inputIndex) =>
      pairedInput keepsSource inputIndex input) = .error .typeError := by
  induction inputs generalizing start with
  | nil => cases unreadable
  | cons input inputs ih =>
    rw [zipIdx_cons, mapM_cons]
    rcases mem_cons.mp unreadable with rfl | later
    · rfl
    · rw [ih later]
      cases input <;> rfl

theorem foldlM_pairedInput (entries : List (NodeConnectionType ×
      SlotArray (List INodeExecutionData))) (start : ITaskDataConnections) :
    entries.foldlM (fun connections (connectionType, inputs) => do
      let paired ← inputs.zipIdx.mapM fun (input, inputIndex) =>
        pairedInput keepsSource inputIndex input
      return connections.set connectionType paired) start =
      if entries.all (.undefined ∉ ·.2) then
        .ok (entries.foldl (fun connections (connectionType, inputs) =>
          connections.set connectionType (pairedSlots keepsSource inputs))
          start)
      else .error .typeError := by
  induction entries generalizing start with
  | nil => rfl
  | cons entry entries ih =>
    obtain ⟨connectionType, inputs⟩ := entry
    rw [foldlM_cons]
    dsimp only
    by_cases readable : .undefined ∈ inputs
    · rw [mapM_pairedInput_eq_error readable]
      simp only [all_cons, readable, not_true_eq_false, decide_false,
        Bool.false_and, Bool.false_eq_true, if_false]
      rfl
    · rw [mapM_pairedInput_eq_ok readable]
      simp only [all_cons, readable, not_false_eq_true, decide_true, Bool.true_and]
      exact ih _

theorem newTaskDataConnections_eq : newTaskDataConnections executionData =
      if IsReadable executionData then
        .ok (executionData.data.mapValues (pairedSlots ((executionData.metadata.map
            (·.preserveSourceOverwrite)).getD false)))
      else .error .typeError := by
  rw [newTaskDataConnections, foldlM_pairedInput]
  have same : executionData.data.entries.all (.undefined ∉ ·.2) = IsReadable executionData := by
    simp [IsReadable, values, all_map, Function.comp_def]
  rw [same]
  split
  · congr 1
    refine Eq.trans ?_ (foldl_set_entries _)
    simp only [mapValues, foldl_map]
  · rfl

/-- The taken item with the data it executes with. -/
def renewed (executionData : IExecuteData) : IExecuteData :=
  { executionData with
    data := executionData.data.mapValues (pairedSlots
      ((executionData.metadata.map (·.preserveSourceOverwrite)).getD false)) }

theorem pairedSlot_eq_iff {index : Nat} {slot other : Slot (List INodeExecutionData)}
    (noValue : ∀ items, other ≠ .value items) :
    pairedSlot keepsSource index slot = other ↔ slot = other := by
  cases slot with
  | value items =>
    constructor
    · intro same
      exact absurd same.symm (noValue _)
    · intro same
      exact absurd same.symm (noValue _)
  | hole | undefined | null => exact Iff.rfl

variable {slots : SlotArray (List INodeExecutionData)}

theorem at'_pairedSlots_eq_null {index : Nat} :
    (pairedSlots keepsSource slots).at' index = .null ↔ slots.at' index = .null := by
  rw [SlotArray.at'_ofNat, SlotArray.at'_ofNat, Slot.read_eq_null_iff,
    Slot.read_eq_null_iff, pairedSlots, getD_eq_getElem?_getD,
    getD_eq_getElem?_getD, getElem?_mapIdx]
  cases slots[index]? with
  | none => exact Iff.rfl
  | some slot => exact pairedSlot_eq_iff (by simp)

theorem length_pairedSlots : (pairedSlots keepsSource slots).length = slots.length := length_mapIdx

theorem hasInputData_renewed (workflow : Workflow) (inputs : List Nat) :
    hasInputData workflow (renewed executionData) inputs =
      hasInputData workflow executionData inputs := by
  induction inputs with
  | nil => rfl
  | cons connectionIndex rest ih =>
    have sameNode : (renewed executionData).node = executionData.node := rfl
    rw [hasInputData, hasInputData, ih, sameNode]
    have main : (renewed executionData).data.get? .main =
        (executionData.data.get? .main).map (pairedSlots ((executionData.metadata.map
            (·.preserveSourceOverwrite)).getD false)) :=
      get?_mapValues ..
    rw [main]
    cases executionData.data.get? .main with
    | none => rfl
    | some slots =>
      simp only [Option.map_some, at'_pairedSlots_eq_null, length_pairedSlots]

theorem isReadable_renewed : IsReadable (renewed executionData) = IsReadable executionData := by
  rw [IsReadable, IsReadable, renewed]
  simp only [values_mapValues, all_map]
  congr 1
  funext slots
  simp only [Function.comp_apply, decide_not, pairedSlots, mem_mapIdx]
  congr 1
  apply decide_eq_decide.mpr
  constructor
  · rintro ⟨index, inside, same⟩
    rw [pairedSlot_eq_iff (by simp)] at same
    exact same ▸ getElem_mem inside
  · intro mem
    obtain ⟨index, inside, same⟩ := getElem_of_mem mem
    exact ⟨index, inside, (pairedSlot_eq_iff (by simp)).mpr same⟩

end Input

/-! ## An iteration with an item that does not pass -/

def endlessLoop : ExecutionError :=
  .application "Stopped execution because it seems to be in an endless loop"

def IsStuck (workflow : Workflow) (executionData : IExecuteData) : Prop :=
  hasInputData workflow executionData
    (List.range (workflow.numberOfInputs executionData.node.name)) = false

variable (state : RunExecutionData)

/-- What the loop looks at before it checks the input data. -/
def entryOf (executionData : IExecuteData) : RotatingQueue.Entry ExecutionTry where
  key := (executionData.node.name, state.runIndexOf executionData)
  dropped := state.isFiltered executionData.node.name
  readable := IsReadable executionData

theorem entryOf_renewed (executionData : IExecuteData) :
    entryOf state (renewed executionData) = entryOf state executionData := by
  simp only [entryOf, isReadable_renewed]
  rfl

theorem isStuck_renewed {workflow : Workflow} {executionData : IExecuteData} :
    IsStuck workflow (renewed executionData) ↔ IsStuck workflow executionData := by
  simp only [IsStuck, hasInputData_renewed]
  rfl

def countIteration : RunExecutionData :=
  { state with
    currentNodeExecutionIndex := state.currentNodeExecutionIndex + 1 }

theorem exec_beginIteration {workflow : Workflow} {taken : IExecuteData}
    (stuck : IsStuck workflow taken) (lastExecutionTry : Option ExecutionTry)
    (state : RunExecutionData) :
    exec (beginIteration workflow lastExecutionTry taken) state =
      let entry := entryOf state taken
      if entry.readable = false then
        (.error .typeError, countIteration state)
      else if lastExecutionTry = some entry.key then
        (.error endlessLoop, countIteration state)
      else if entry.dropped then (.ok .skipped, countIteration state)
      else (.ok (.deferred entry.key), pushItem (renewed taken) (countIteration state)) := by
  rw [beginIteration, exec_get_bind, exec_modify_bind, exec_bind,
    exec_ofExcept, newTaskDataConnections_eq]
  cases readable : IsReadable taken with
  | false =>
    have unreadable : (entryOf state taken).readable = false := readable
    simp only [unreadable, if_true]
    rfl
  | true =>
    have reads : ¬ (entryOf state taken).readable = false := by
      simp [entryOf, readable]
    rw [if_pos rfl]
    simp only [reads]
    change exec (if lastExecutionTry = some (entryOf state taken).key then _ else _) _ = _
    by_cases same : lastExecutionTry = some (entryOf state taken).key
    · rw [if_pos same, if_pos same]
      rfl
    · rw [if_neg same, if_neg same]
      change exec (if (entryOf state taken).dropped = true then _ else _) _ = _
      cases dropped : (entryOf state taken).dropped with
      | true =>
        rfl
      | false =>
        have waits : exec (ensureInputData workflow (renewed taken))
            (countIteration state) = (.ok false, pushItem (renewed taken)
                (countIteration state)) := by
          rw [exec_ensureInputData]
          have stuckRenewed := isStuck_renewed.mpr stuck
          rw [stuckRenewed]
          rfl
        exact exec_bind_ok waits

/-! ## The loop over a stack of such items -/

section Loop

variable {workflow : Workflow}
  {additionalData : WorkflowExecuteAdditionalData} {run : WorkflowExecute}

/-- The stack as the queue of what the loop looks at. -/
def queueOf (run : WorkflowExecute) : List (RotatingQueue.Entry ExecutionTry) :=
  run.runExecutionData.executionData.nodeExecutionStack.map (entryOf run.runExecutionData)

/-- The loop goes on, and no item of the stack passes. -/
structure Rotates (workflow : Workflow) (run : WorkflowExecute) : Prop where
  atHead : run.phase = .loopHead
  running : run.status ≠ .canceled
  stuck : ∀ item ∈ run.runExecutionData.executionData.nodeExecutionStack, IsStuck workflow item

def InTime (additionalData : WorkflowExecuteAdditionalData) (now : Nat) : Prop :=
  additionalData.executionTimeoutTimestamp.any (· ≤ now) = false

def takeItem (run : WorkflowExecute) (rest : List IExecuteData) : WorkflowExecute :=
  { run with
    executionError := none
    runExecutionData :=
      { run.runExecutionData with
        executionData :=
          { run.runExecutionData.executionData with
            nodeExecutionStack := rest } } }

variable {now : Nat}

theorem step_loops (rotates : Rotates workflow run)
    (inTime : InTime additionalData now) {item : IExecuteData}
    {rest : List IExecuteData}
    (stack : run.runExecutionData.executionData.nodeExecutionStack = item :: rest) :
    step workflow additionalData run (.loops now) =
      some ((takeItem run rest).startIteration workflow item) := by
  rw [step]
  simp only [rotates.atHead]
  rw [loop, stack]
  dsimp only
  rw [inTime, if_neg Bool.false_ne_true, if_neg rotates.running]
  rfl

/-- What an iteration does, by the turn of the queue. -/
def FollowsTurn (workflow : Workflow) (next : WorkflowExecute) :
    RotatingQueue.Turn ExecutionTry → Prop
  | .emptied => next.phase = .loopEnded
  | .failed => next.phase = .threw .typeError
  | .repeated => next.phase = .threw endlessLoop
  | .goesOn last queue => Rotates workflow next ∧
      next.lastExecutionTry = last ∧ queueOf next = queue

theorem startIteration_eq {item : IExecuteData} (stuck : IsStuck workflow item) :
    run.startIteration workflow item =
      let entry := entryOf run.runExecutionData item
      let counted := { run with runExecutionData := countIteration run.runExecutionData }
      if entry.readable = false then counted.leaveLoop .typeError
      else if run.lastExecutionTry = some entry.key then
        counted.leaveLoop endlessLoop
      else if entry.dropped then { counted with phase := .loopHead }
      else
        { counted with
          runExecutionData := pushItem (renewed item) (countIteration run.runExecutionData)
          lastExecutionTry := some entry.key
          phase := .loopHead } := by
  rw [startIteration, attempt, exec_beginIteration stuck]
  by_cases unreadable : (entryOf run.runExecutionData item).readable = false
  · rw [if_pos unreadable, if_pos unreadable]
  rw [if_neg unreadable, if_neg unreadable]
  by_cases same : run.lastExecutionTry = some (entryOf run.runExecutionData item).key
  · rw [if_pos same, if_pos same]
  rw [if_neg same, if_neg same]
  by_cases dropped : (entryOf run.runExecutionData item).dropped = true
  · rw [if_pos dropped, if_pos dropped]
  · rw [if_neg dropped, if_neg dropped]

theorem followsTurn_step (rotates : Rotates workflow run) (inTime : InTime additionalData now) :
    ∃ next, step workflow additionalData run (.loops now) = some next ∧
      FollowsTurn workflow next (turn run.lastExecutionTry (queueOf run)) := by
  cases stack : run.runExecutionData.executionData.nodeExecutionStack with
  | nil =>
    refine ⟨{ run with phase := .loopEnded }, ?_, ?_⟩
    · rw [step]
      simp only [rotates.atHead]
      rw [loop, stack]
    · rw [queueOf, stack]
      rfl
  | cons item rest =>
    have stuck : ∀ other ∈ item :: rest, IsStuck workflow other := stack ▸ rotates.stuck
    refine ⟨_, step_loops rotates inTime stack, ?_⟩
    rw [startIteration_eq (stuck item mem_cons_self), queueOf, stack, map_cons, turn]
    have sameEntry : entryOf (takeItem run rest).runExecutionData item =
        entryOf run.runExecutionData item := rfl
    have sameTry : (takeItem run rest).lastExecutionTry =
        run.lastExecutionTry := rfl
    rw [sameEntry, sameTry]
    by_cases unreadable : (entryOf run.runExecutionData item).readable = false
    · rw [if_pos unreadable, if_pos unreadable]
      rfl
    rw [if_neg unreadable, if_neg unreadable]
    by_cases same : run.lastExecutionTry = some (entryOf run.runExecutionData item).key
    · rw [if_pos same, if_pos same]
      rfl
    rw [if_neg same, if_neg same]
    by_cases dropped : (entryOf run.runExecutionData item).dropped = true
    · rw [if_pos dropped, if_pos dropped]
      exact ⟨{
        atHead := rfl
        running := rotates.running
        stuck := fun other mem =>
          stuck other (mem_cons_of_mem _ mem) }, rfl, rfl⟩
    · rw [if_neg dropped, if_neg dropped]
      refine ⟨{ atHead := rfl, running := rotates.running, stuck := ?_ }, rfl, ?_⟩
      · intro other mem
        rcases mem_append.mp mem with listed | pushed
        · exact stuck other (mem_cons_of_mem _ listed)
        · rw [mem_singleton.mp pushed]
          exact isStuck_renewed.mpr (stuck item mem_cons_self)
      · refine map_append.trans ?_
        congr 1
        exact congrArg (· :: []) (entryOf_renewed _ _)

def iterations (clock : Nat → Nat) (count : Nat) : List RunEvent :=
  (List.range count).map fun time => .loops (clock time)

theorem iterations_succ (clock : Nat → Nat) (count : Nat) : iterations clock (count + 1) =
      .loops (clock 0) :: iterations (fun time => clock (time + 1)) count := by
  rw [iterations, range_succ_eq_map, map_cons, map_map]
  rfl

/-- The loop throws the error of an endless loop after finitely many
iterations. -/
def StopsWithError (workflow : Workflow)
    (additionalData : WorkflowExecuteAdditionalData) (clock : Nat → Nat)
    (run : WorkflowExecute) : Prop :=
  ∃ count last, (step workflow additionalData).run run (iterations clock count) = some last ∧
    last.phase = .threw endlessLoop

variable {clock : Nat → Nat}

theorem stopsWithError_iff_next {next : WorkflowExecute}
    (rotates : Rotates workflow run) (moved : step workflow additionalData run
      (.loops (clock 0)) = some next) :
    StopsWithError workflow additionalData clock run ↔
      StopsWithError workflow additionalData (fun time => clock (time + 1))
        next := by
  constructor
  · rintro ⟨count, last, reached, threw⟩
    cases count with
    | zero =>
      cases reached
      rw [rotates.atHead] at threw
      cases threw
    | succ count =>
      rw [iterations_succ] at reached
      obtain ⟨other, first, rest⟩ := run_cons_eq_some.mp reached
      cases moved.symm.trans first
      exact ⟨count, last, rest, threw⟩
  · rintro ⟨count, last, reached, threw⟩
    refine ⟨count + 1, last, ?_, threw⟩
    rw [iterations_succ]
    exact run_cons_eq_some.mpr ⟨next, moved, reached⟩

theorem phase_of_stopsWithError (ended : run.phase ≠ .loopHead)
    (stops : StopsWithError workflow additionalData clock run) :
    run.phase = .threw endlessLoop := by
  obtain ⟨count, last, reached, threw⟩ := stops
  cases count with
  | zero =>
    cases reached
    exact threw
  | succ count =>
    rw [iterations_succ] at reached
    obtain ⟨other, first, _⟩ := run_cons_eq_some.mp reached
    rw [step] at first
    cases phase : run.phase with
    | loopHead => exact absurd phase ended
    | _ =>
      rw [phase] at first
      cases first

theorem givesUp_of_stopsWithError (rotates : Rotates workflow run)
    (inTime : ∀ time, InTime additionalData (clock time))
    (stops : StopsWithError workflow additionalData clock run) :
    RotatingQueue.GivesUp run.lastExecutionTry (queueOf run) := by
  obtain ⟨count, last, reached, threw⟩ := stops
  induction count generalizing run clock with
  | zero =>
    cases reached
    rw [rotates.atHead] at threw
    cases threw
  | succ count ih =>
    rw [iterations_succ] at reached
    obtain ⟨next, first, rest⟩ := run_cons_eq_some.mp reached
    obtain ⟨other, moved, follows⟩ := followsTurn_step rotates (inTime 0)
    cases moved.symm.trans first
    have later : StopsWithError workflow additionalData
        (fun time => clock (time + 1)) next := ⟨count, last, rest, threw⟩
    cases turned : turn run.lastExecutionTry (queueOf run) with
    | repeated => exact givesUp_of_repeated turned
    | emptied =>
      rw [turned] at follows
      have ended : next.phase = .loopEnded := follows
      have impossible := phase_of_stopsWithError (by simp [ended]) later
      rw [ended] at impossible
      cases impossible
    | failed =>
      rw [turned] at follows
      have failed : next.phase = .threw .typeError := follows
      have impossible := phase_of_stopsWithError (by simp [failed]) later
      rw [failed] at impossible
      cases impossible
    | goesOn lastKey queue =>
      rw [turned] at follows
      obtain ⟨goesOn, rfl, rfl⟩ := follows
      rw [givesUp_of_goesOn turned]
      exact ih goesOn (fun time => inTime (time + 1)) rest

theorem stopsWithError_of_givesUp (rotates : Rotates workflow run)
    (inTime : ∀ time, InTime additionalData (clock time))
    (givesUp : RotatingQueue.GivesUp run.lastExecutionTry (queueOf run)) :
    StopsWithError workflow additionalData clock run := by
  obtain ⟨count, stopped⟩ := givesUp
  induction count generalizing run clock with
  | zero => cases stopped
  | succ count ih =>
    obtain ⟨next, moved, follows⟩ := followsTurn_step rotates (inTime 0)
    rw [stopsWithError_iff_next rotates moved]
    rw [turns] at stopped
    cases turned : turn run.lastExecutionTry (queueOf run) with
    | repeated =>
      rw [turned] at follows
      exact ⟨0, next, rfl, follows⟩
    | emptied | failed =>
      rw [turned] at stopped
      cases stopped
    | goesOn lastKey queue =>
      rw [turned] at follows stopped
      obtain ⟨goesOn, rfl, rfl⟩ := follows
      exact ih goesOn (fun time => inTime (time + 1)) stopped

/-- A loop over items that do not pass throws the error exactly if two items
that follow each other, in the stack or where it comes round, agree in their
node and run index. -/
theorem stopsWithError_iff {clock : Nat → Nat} (rotates : Rotates workflow run)
    (inTime : ∀ time, InTime additionalData (clock time)) :
    StopsWithError workflow additionalData clock run ↔
      RotatingQueue.Repeats run.lastExecutionTry (queueOf run) ∨
        RotatingQueue.ComesRound (queueOf run) := by
  rw [← givesUp_iff]
  exact ⟨givesUp_of_stopsWithError rotates inTime, stopsWithError_of_givesUp rotates inTime⟩

end Loop

namespace DeferralExample

def item (nodeName : String) : IExecuteData :=
  { node := { name := nodeName }
    data := .ofMain [.null]
    source := none }

def connectTo (nodeName : String) : INodeConnections :=
  empty.set .main [some [{ node := nodeName, type := .main, index := 0 }]]

def workflow : Workflow :=
  { nodes := Workflow.setNodes [{ name := "Start" }, { name := "First" }, { name := "Second" }]
    connectionsBySourceNode := (empty.set "Start"
      (connectTo "First")).set "First" (connectTo "Second")
    nodes_named := Workflow.setNodes_named _ }

def run (stack : List IExecuteData) : WorkflowExecute :=
  { runExecutionData := { executionData := { nodeExecutionStack := stack } }
    phase := .loopHead }

theorem rotates_run {stack : List IExecuteData}
    (stuck : ∀ executionData ∈ stack, IsStuck workflow executionData) :
    Rotates workflow (run stack) where
  atHead := rfl
  running := by
    intro canceled
    cases canceled
  stuck := stuck

theorem inTime_of_noLimit {now : Nat} : InTime {} now := rfl

theorem isStuck_first : IsStuck workflow (item "First") := by
  unfold IsStuck
  decide +kernel

theorem isStuck_second : IsStuck workflow (item "Second") := by
  unfold IsStuck
  decide +kernel

/-- A single node that waits for its data comes round at once. -/
theorem stopsWithError_first : StopsWithError workflow {} id (run [item "First"]) := by
  refine (stopsWithError_iff (rotates_run ?_) (fun _ => inTime_of_noLimit)).mpr (.inr ?_)
  · intro executionData mem
    rw [mem_singleton.mp mem]
    exact isStuck_first
  · refine ⟨?_, entryOf (run []).runExecutionData (item "First"),
      entryOf (run []).runExecutionData (item "First"), ?_, ?_, rfl⟩
    · decide +kernel
    · rfl
    · rfl

/-- Two nodes that wait for their data are deferred in turn for ever. -/
theorem not_stopsWithError_firstAndSecond :
    ∃ stack : List IExecuteData, workflow.isLegacyExecutionOrder = true ∧
      stack ≠ [] ∧ Rotates workflow (run stack) ∧
      ∀ clock, ¬ StopsWithError workflow {} clock (run stack) := by
  have rotates : Rotates workflow (run [item "First", item "Second"]) := by
    apply rotates_run
    intro executionData mem
    rcases mem_cons.mp mem with rfl | mem
    · exact isStuck_first
    · rw [mem_singleton.mp mem]
      exact isStuck_second
  refine ⟨_, by decide, by simp, rotates, fun clock stops => ?_⟩
  have ends := givesUp_of_stopsWithError rotates (fun _ => inTime_of_noLimit) stops
  have deferred : turn none (queueOf (run [item "First", item "Second"])) =
      .goesOn (some ("First", 0)) (queueOf (run [item "Second", item "First"])) := by
    decide +kernel
  rw [show (run [item "First", item "Second"]).lastExecutionTry = none from rfl,
    givesUp_of_goesOn deferred] at ends
  refine not_givesUp_of_isChain ?_ ?_ ?_ ?_ ends
  · decide +kernel
  · decide +kernel
  · decide +kernel
  · decide +kernel

end DeferralExample

end N8n
