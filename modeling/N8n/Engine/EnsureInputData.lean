import Mathlib.Data.List.TakeWhile
import N8n.Engine.Iteration

/-!
# The check for input data

In the legacy execution order an item has to wait until each input with live
upstream nodes has its data.  The check ends with success at the first input
without such nodes, and it takes a slot that is missing behind the end of the
data, or `undefined`, for data.
-/

namespace N8n

section Inputs

variable (workflow : Workflow) (executionData : IExecuteData)

/-- Some upstream node of the input exists and is not disabled. -/
def isLiveInput (nodeName : String) (connectionIndex : Nat) : Bool :=
  workflow.getHighestNode nodeName (some connectionIndex) ≠ []

/-- The inputs before the first one without live upstream nodes. -/
def checkedInputs (nodeName : String) : List Nat :=
  (List.range (workflow.numberOfInputs nodeName)).takeWhile (isLiveInput workflow nodeName)

section

variable (connectionIndex : Nat)

/-- The item has no main data, or too little, or `null` for the input. -/
def refusesInput : Bool :=
  match executionData.data.get? .main with
  | none => true
  | some slots => slots.length < connectionIndex || slots.at' connectionIndex == .null

def HoldsArray : Prop :=
  ∃ slots items, executionData.data.get? .main = some slots ∧
    slots.at' connectionIndex = .value items

variable (state : RunExecutionData)

/-- `nodeExecutionStack.push(executionData)` -/
def pushItem : RunExecutionData :=
  { state with
    executionData :=
      { state.executionData with
        nodeExecutionStack := state.executionData.nodeExecutionStack ++ [executionData] } }

/-- The item passes exactly if each live input has its data, and is put back
once if it does not. -/
def KeepsGate : Prop :=
  ∃ passes, StateExcept.exec (ensureInputData workflow executionData) state =
      (.ok passes, if passes then state else pushItem executionData state) ∧
    (passes = true ↔ ∀ connectionIndex < workflow.numberOfInputs executionData.node.name,
        isLiveInput workflow executionData.node.name connectionIndex = true →
          HoldsArray executionData connectionIndex)

/-- The slot is `undefined`, or just behind the end of the data. -/
def IsUndefined : Prop :=
  ∃ slots, executionData.data.get? .main = some slots ∧ slots.at' connectionIndex = .undefined

end

end Inputs

section Gate

variable {workflow : Workflow} {executionData : IExecuteData} {connectionIndex : Nat}

theorem holdsArray_or_isUndefined (accepted : refusesInput executionData connectionIndex = false) :
    HoldsArray executionData connectionIndex ∨ IsUndefined executionData connectionIndex := by
  rw [refusesInput] at accepted
  cases main : executionData.data.get? .main with
  | none =>
    rw [main] at accepted
    cases accepted
  | some slots =>
    simp only [main, Bool.or_eq_false_iff, beq_eq_false_iff_ne] at accepted
    cases slot : slots.at' connectionIndex with
    | hole =>
      rw [SlotArray.at'_ofNat] at slot
      generalize slots.getD connectionIndex .hole = element at slot
      cases element <;> cases slot
    | undefined => exact .inr ⟨slots, main, slot⟩
    | null => exact absurd slot accepted.2
    | value items => exact .inl ⟨slots, items, main, slot⟩

theorem not_holdsArray_of_refuses (refused : refusesInput executionData connectionIndex = true) :
    ¬ HoldsArray executionData connectionIndex := by
  rintro ⟨slots, items, main, slot⟩
  simp only [refusesInput, main, Bool.or_eq_true, decide_eq_true_eq, beq_iff_eq] at refused
  rcases refused with short | null
  · rw [SlotArray.at'_ofNat, List.getD_eq_getElem?_getD, List.getElem?_eq_none short.le] at slot
    cases slot
  · rw [slot] at null
    cases null

theorem not_holdsArray_of_isUndefined (missing : IsUndefined executionData connectionIndex) :
    ¬ HoldsArray executionData connectionIndex := by
  rintro ⟨slots, items, main, slot⟩
  obtain ⟨other, same, undefined⟩ := missing
  cases main.symm.trans same
  rw [slot] at undefined
  cases undefined

/-- The check goes through the inputs before the first one without live
upstream nodes. -/
theorem hasInputData_eq_all (legacy : workflow.isLegacyExecutionOrder = true) (inputs : List Nat) :
    hasInputData workflow executionData inputs = (inputs.takeWhile
        (isLiveInput workflow executionData.node.name)).all (!refusesInput executionData ·) := by
  induction inputs with
  | nil => rfl
  | cons connectionIndex rest ih =>
    rw [hasInputData]
    by_cases dead : workflow.getHighestNode executionData.node.name (some connectionIndex) = []
    · rw [if_pos dead, List.takeWhile_cons_of_neg (by simp [isLiveInput, dead])]
      rfl
    · rw [if_neg dead, List.takeWhile_cons_of_pos
        (by simp [isLiveInput, dead]), List.all_cons, ← ih]
      cases main : executionData.data.get? .main with
      | none => simp [refusesInput, main]
      | some slots =>
        simp only [legacy, true_and]
        by_cases refused : slots.length < connectionIndex ∨ slots.at' connectionIndex = .null
        · have refuses : refusesInput executionData connectionIndex =
              true := by
            simpa only [refusesInput, main, Bool.or_eq_true,
              decide_eq_true_eq, beq_iff_eq] using refused
          rw [if_pos refused, refuses]
          rfl
        · have accepts : refusesInput executionData connectionIndex =
              false := by
            rw [← Bool.not_eq_true]
            simpa only [refusesInput, main, Bool.or_eq_true,
              decide_eq_true_eq, beq_iff_eq] using refused
          rw [if_neg refused, accepts]
          rfl

theorem exec_ensureInputData (state : RunExecutionData) :
    StateExcept.exec (ensureInputData workflow executionData) state =
      let passes := hasInputData workflow executionData
        (List.range (workflow.numberOfInputs executionData.node.name))
      (.ok passes, if passes then state else pushItem executionData state) := by
  rw [ensureInputData]
  cases passed : hasInputData workflow executionData
      (List.range (workflow.numberOfInputs executionData.node.name)) with
  | true => rfl
  | false => rfl

theorem mem_checkedInputs {nodeName : String}
    (checked : connectionIndex ∈ checkedInputs workflow nodeName) :
    connectionIndex < workflow.numberOfInputs nodeName ∧
      isLiveInput workflow nodeName connectionIndex = true :=
  ⟨List.mem_range.mp (List.takeWhile_subset _ checked), List.mem_takeWhile_imp checked⟩

/-- The check decides as documented exactly if it refuses an input, or if no
slot it looks at is undefined and each live input that it skips has its
data. -/
theorem ensureInputData_keepsGate_iff
    (legacy : workflow.isLegacyExecutionOrder = true) (state : RunExecutionData) :
    KeepsGate workflow executionData state ↔ (∃ connectionIndex ∈
          checkedInputs workflow executionData.node.name,
        refusesInput executionData connectionIndex = true) ∨
      ((∀ connectionIndex ∈ checkedInputs workflow executionData.node.name,
        ¬ IsUndefined executionData connectionIndex) ∧
      ∀ connectionIndex < workflow.numberOfInputs executionData.node.name,
        connectionIndex ∉ checkedInputs workflow executionData.node.name →
        isLiveInput workflow executionData.node.name connectionIndex = true →
          HoldsArray executionData connectionIndex) := by
  have passesIff : hasInputData workflow executionData
      (List.range (workflow.numberOfInputs executionData.node.name)) = true ↔
      ∀ connectionIndex ∈ checkedInputs workflow executionData.node.name,
        refusesInput executionData connectionIndex = false := by
    rw [hasInputData_eq_all legacy, List.all_eq_true]
    simp only [Bool.not_eq_true', checkedInputs]
  constructor
  · rintro ⟨passes, ran, exactly⟩
    rw [exec_ensureInputData, Prod.mk.injEq, Except.ok.injEq] at ran
    obtain ⟨rfl, _⟩ := ran
    by_cases refused : ∃ connectionIndex ∈ checkedInputs workflow executionData.node.name,
          refusesInput executionData connectionIndex = true
    · exact .inl refused
    · right
      have accepts : ∀ connectionIndex ∈ checkedInputs workflow executionData.node.name,
            refusesInput executionData connectionIndex = false := by
        intro connectionIndex checked
        by_contra notFalse
        exact refused ⟨connectionIndex, checked, by simpa using notFalse⟩
      have holds := exactly.mp (passesIff.mpr accepts)
      constructor
      · intro connectionIndex checked missing
        obtain ⟨below, live⟩ := mem_checkedInputs checked
        exact not_holdsArray_of_isUndefined missing (holds connectionIndex below live)
      · intro connectionIndex below _ live
        exact holds connectionIndex below live
  · intro condition
    refine ⟨_, exec_ensureInputData state, ?_⟩
    rw [passesIff]
    rcases condition with ⟨refusedInput, checked, refused⟩ | ⟨defined, skipped⟩
    · constructor
      · intro accepts
        rw [accepts refusedInput checked] at refused
        cases refused
      · intro holds
        obtain ⟨below, live⟩ := mem_checkedInputs checked
        exact absurd (holds refusedInput below live) (not_holdsArray_of_refuses refused)
    · constructor
      · intro accepts connectionIndex below live
        by_cases checked : connectionIndex ∈ checkedInputs workflow executionData.node.name
        · rcases holdsArray_or_isUndefined (accepts connectionIndex checked) with holds | missing
          · exact holds
          · exact absurd missing (defined connectionIndex checked)
        · exact skipped connectionIndex below checked live
      · intro holds connectionIndex checked
        obtain ⟨below, live⟩ := mem_checkedInputs checked
        by_contra refused
        exact not_holdsArray_of_refuses (by simpa using refused) (holds connectionIndex below live)

end Gate

namespace InputDataExample

def connectTo (inputIndex : Int) : INodeConnections :=
  OrderedMap.empty.set .main [some [{ node := "Merge", type := .main, index := inputIndex }]]

def workflow : Workflow :=
  { nodes := Workflow.setNodes [{ name := "First" }, { name := "Second" }, { name := "Merge" }]
    connectionsBySourceNode := (OrderedMap.empty.set "First"
      (connectTo 0)).set "Second" (connectTo 1)
    nodes_named := Workflow.setNodes_named _ }

def item (slots : SlotArray (List INodeExecutionData)) : IExecuteData :=
  { node := { name := "Merge" }
    data := .ofMain slots
    source := none }

theorem keepsGate_bothInputs :
    KeepsGate workflow (item [.value [], .value [INodeExecutionData.blank]]) {} := by
  refine (ensureInputData_keepsGate_iff (by decide +kernel) _).mpr (.inr ⟨?_, ?_⟩)
  · have checked : checkedInputs workflow "Merge" = [0, 1] := by
      decide +kernel
    intro connectionIndex mem
    change connectionIndex ∈ checkedInputs workflow "Merge" at mem
    rintro ⟨slots, main, missing⟩
    cases main
    rcases List.mem_cons.mp mem with rfl | mem
    · cases missing
    · cases List.mem_singleton.mp mem
      cases missing
  · have checked : checkedInputs workflow "Merge" =
        List.range (workflow.numberOfInputs "Merge") := by
      decide +kernel
    intro connectionIndex below unchecked
    change connectionIndex ∉ checkedInputs workflow "Merge" at unchecked
    exact absurd (List.mem_range.mpr below) unchecked

/-- The item has the data of its first input only, and passes. -/
theorem not_keepsGate_firstInput :
    ¬ KeepsGate workflow (item [.value [INodeExecutionData.blank]]) {} := by
  rintro ⟨passes, ran, exactly⟩
  have passed : hasInputData workflow (item [.value [INodeExecutionData.blank]])
      (List.range (workflow.numberOfInputs "Merge")) = true := by
    decide +kernel
  obtain ⟨rfl, _⟩ := ran
  obtain ⟨slots, items, main, slot⟩ := exactly.mp passed 1 (by decide +kernel) (by decide +kernel)
  cases main
  cases slot

end InputDataExample

end N8n
