import Mathlib.Data.List.FinRange
import Mathlib.Logic.Relation
import N8n.Library.OrderedMap

/-!
# The order in which parameters are resolved

A property of which a dependency is missing goes back to the queue, once for
each missing one, and is resolved nevertheless.  So the first pass through the
queue resolves every property at its place, and what is in the queue behind it
is resolved again.
-/

namespace N8n

open List Nat

namespace ParameterOrder

/-- A property with the names of the parameters in each of its rules. -/
structure INodeProperties where
  name : String
  displayOptions : Option (List (List String)) := none

abbrev IParameterDependencies := OrderedMap String (List String)

/-- Special parameters are skipped. -/
def addDependency (names : List String) (parameterName : String) : List String :=
  if parameterName ∈ names then names
  else if parameterName.toList.head? = some '@' then names
  else names ++ [parameterName]

def addProperty (dependencies : IParameterDependencies)
    (nodeProperties : INodeProperties) : IParameterDependencies :=
  let known :=
    if dependencies.has nodeProperties.name then dependencies
    else dependencies.set nodeProperties.name []
  match nodeProperties.displayOptions with
  | none => known
  | some displayRules =>
    known.set nodeProperties.name (displayRules.flatten.foldl addDependency
        ((known.get? nodeProperties.name).getD []))

/-- Properties with one name have their dependencies together. -/
def getParameterDependencies (nodePropertiesArray : List INodeProperties) :
    IParameterDependencies :=
  nodePropertiesArray.foldl addProperty .empty

inductive ResolveError where
  | maxIterations

def ResolveError.message : ResolveError → String
  | .maxIterations =>
    "Could not resolve parameter dependencies. Max iterations reached! Hint: If `displayOptions` are specified in any child parameter of a parent `collection` or `fixedCollection`, remove the `displayOptions` from the child parameter."

structure ResolveState (count : Nat) where
  indexToResolve : List (Fin count)
  executionOrder : List (Fin count) := []
  resolvedParameters : List String := []
  lastIndexLength : Nat
  lastIndexReduction : Int := -1
  iterations : Nat := 0

/-- Dependencies of the root level are assumed to be resolved. -/
def isRootLevel (dependency : String) : Bool := dependency.toList.head? = some '/'

variable {count : Nat} (name : Fin count → String) (dependencies : String → List String)

/-- The loop through the dependencies. -/
def requeueMissing (index : Fin count) (resolvedParameters : List String)
    (indexToResolve : List (Fin count)) : List (Fin count) :=
  (dependencies (name index)).foldl (fun indexToResolve dependency =>
    if dependency ∈ resolvedParameters then indexToResolve
    else if isRootLevel dependency then indexToResolve
    else indexToResolve ++ [index]) indexToResolve

/-- The body of the loop for the first index, with the others of the queue. -/
def resolveIndex (state : ResolveState count) (index : Fin count)
    (others : List (Fin count)) : Except ResolveError (ResolveState count) :=
  let iterations := state.iterations + 1
  let executionOrder := state.executionOrder ++ [index]
  let resolvedParameters := state.resolvedParameters ++ [name index]
  if dependencies (name index) = [] then
    .ok { state with
      indexToResolve := others, executionOrder, resolvedParameters, iterations }
  else
    let indexToResolve := requeueMissing name dependencies index state.resolvedParameters others
    let lastIndexReduction : Int :=
      if indexToResolve.length < state.lastIndexLength then iterations
      else state.lastIndexReduction
    if (iterations : Int) > lastIndexReduction + count then
      .error .maxIterations
    else
      .ok { indexToResolve, executionOrder, resolvedParameters,
            lastIndexLength := indexToResolve.length, lastIndexReduction,
            iterations }

/-- `none` when the fuel is used up. -/
def resolveLoop : Nat → ResolveState count → Option (Except ResolveError (List (Fin count)))
  | 0, _ => none
  | fuel + 1, state =>
    match state.indexToResolve with
    | [] => some (.ok state.executionOrder)
    | index :: others =>
      match resolveIndex name dependencies state index others with
      | .error error => some (.error error)
      | .ok next => resolveLoop fuel next

/-- Every name of the list has an entry in the dependencies. -/
def getParameterResolveOrder (fuel : Nat) (nodePropertiesArray : List INodeProperties)
    (parameterDependencies : IParameterDependencies) :
    Option (Except ResolveError (List (Fin nodePropertiesArray.length))) :=
  resolveLoop (fun index => (nodePropertiesArray.get index).name)
    (fun name => (parameterDependencies.get? name).getD []) fuel
    { indexToResolve := List.finRange nodePropertiesArray.length
      lastIndexLength := nodePropertiesArray.length }

/-!
## Orders
-/

/-- The property has a dependency, not of the root level, with the name of the
other one. -/
def DependsOn (index other : Fin count) : Prop :=
  name other ∈ dependencies (name index) ∧ isRootLevel (name other) = false

/-- Every dependency is the name of a property, or of the root level. -/
def AllNamed : Prop :=
  ∀ index, ∀ dependency ∈ dependencies (name index),
    isRootLevel dependency = false → ∃ other, name other = dependency

def Acyclic : Prop :=
  ∀ index, ¬ Relation.TransGen (DependsOn name dependencies) index index

/-- Every index is there once, and behind all indexes that it depends on. -/
structure IsResolveOrder (order : List (Fin count)) : Prop where
  perm : order.Perm (List.finRange count)
  behind : ∀ index other, DependsOn name dependencies index other →
    order.idxOf other < order.idxOf index

/-- The loop ends with an order if there can be one, and otherwise with an
error. -/
def ResolvesOrThrows (run : Nat → Option (Except ResolveError (List (Fin count)))) : Prop :=
  ∃ bound result, (∀ fuel, bound ≤ fuel → run fuel = some result) ∧
    (AllNamed name dependencies ∧ Acyclic name dependencies →
      ∃ order, result = .ok order ∧ IsResolveOrder name dependencies order) ∧
    ((∃ error, result = .error error) ↔ ¬ (AllNamed name dependencies ∧ Acyclic name dependencies))

/-- The dependencies for which a property goes back to the queue. -/
def missing (resolvedParameters : List String) (index : Fin count) : List String :=
  (dependencies (name index)).filter fun dependency =>
    dependency ∉ resolvedParameters ∧ isRootLevel dependency = false

def requeued : List String → List (Fin count) → List (Fin count)
  | _, [] => []
  | resolvedParameters, index :: rest =>
    List.replicate (missing name dependencies resolvedParameters index).length index ++
      requeued (resolvedParameters ++ [name index]) rest

/-- A property has no more missing dependencies than there are properties
without dependencies between it and the previous one with dependencies. -/
def shortensQueue : List String → Nat → List (Fin count) → Bool
  | _, _, [] => false
  | resolvedParameters, between, index :: rest =>
    if dependencies (name index) = [] then
      shortensQueue (resolvedParameters ++ [name index]) (between + 1) rest
    else
      (missing name dependencies resolvedParameters index).length ≤ between ||
        shortensQueue (resolvedParameters ++ [name index]) 0 rest

def endsWithDependencies (indexes : List (Fin count)) : Bool :=
  indexes.getLast?.any fun index => dependencies (name index) ≠ []

/-- The last property has dependencies, and no property shortens the queue. -/
def EndsEarly : Prop :=
  endsWithDependencies name dependencies (List.finRange count) = true ∧
    shortensQueue name dependencies [] 0 (List.finRange count) = false

instance : Decidable (EndsEarly name dependencies) :=
  inferInstanceAs (Decidable (_ ∧ _))

variable {name dependencies} {index other : Fin count}
  {others todo done queue : List (Fin count)} {state : ResolveState count}
  {resolved : List String} {fuel : Nat}

theorem requeueMissing_eq : requeueMissing name dependencies index resolved others =
      others ++ List.replicate (missing name dependencies resolved index).length
        index := by
  rw [requeueMissing, missing]
  induction dependencies (name index) generalizing others with
  | nil => simp
  | cons dependency rest ih =>
    rw [foldl_cons, ih]
    by_cases isResolved : dependency ∈ resolved
    · simp [isResolved]
    · cases isRoot : isRootLevel dependency with
      | true => simp [isResolved, isRoot]
      | false => simp [isResolved, isRoot, replicate_succ]

theorem resolveIndex_independent (independent : dependencies (name index) = []) :
    resolveIndex name dependencies state index others = .ok { state with
        indexToResolve := others
        executionOrder := state.executionOrder ++ [index]
        resolvedParameters := state.resolvedParameters ++ [name index]
        iterations := state.iterations + 1 } :=
  if_pos independent

/-- The queue with the missing dependencies of a property. -/
def queueBehind (name : Fin count → String)
    (dependencies : String → List String) (state : ResolveState count)
    (index : Fin count) (others : List (Fin count)) : List (Fin count) :=
  others ++ List.replicate (missing name dependencies state.resolvedParameters index).length index

def reductionBehind (name : Fin count → String)
    (dependencies : String → List String) (state : ResolveState count)
    (index : Fin count) (others : List (Fin count)) : Int :=
  if (queueBehind name dependencies state index others).length <
      state.lastIndexLength then (state.iterations + 1 : Nat)
  else state.lastIndexReduction

theorem resolveIndex_dependent (dependent : dependencies (name index) ≠ []) :
    resolveIndex name dependencies state index others =
      if ((state.iterations + 1 : Nat) : Int) >
          reductionBehind name dependencies state index others + count then
        .error .maxIterations
      else
        .ok { indexToResolve := queueBehind name dependencies state index others
              executionOrder := state.executionOrder ++ [index]
              resolvedParameters := state.resolvedParameters ++ [name index]
              lastIndexLength := (queueBehind name dependencies state index others).length
              lastIndexReduction := reductionBehind name dependencies state index others
              iterations := state.iterations + 1 } := by
  rw [resolveIndex, if_neg dependent]
  simp only [requeueMissing_eq]
  rfl

theorem resolveLoop_mono {larger : Nat}
    {result : Except ResolveError (List (Fin count))} (le : fuel ≤ larger)
    (ended : resolveLoop name dependencies fuel state = some result) :
    resolveLoop name dependencies larger state = some result := by
  induction fuel generalizing larger state with
  | zero => cases ended
  | succ fuel ih =>
    obtain ⟨larger, isSucc⟩ := exists_eq_succ_of_ne_zero
      (ne_of_gt (lt_of_lt_of_le (succ_pos fuel) le))
    subst isSucc
    rw [resolveLoop] at ended ⊢
    cases isQueue : state.indexToResolve with
    | nil =>
      rw [isQueue] at ended
      exact ended
    | cons index others =>
      simp only [isQueue] at ended ⊢
      cases moved : resolveIndex name dependencies state index others with
      | error error =>
        rw [moved] at ended
        exact ended
      | ok next =>
        rw [moved] at ended
        exact ih (succ_le_succ_iff.mp le) ended

theorem resolveLoop_ok {next : ResolveState count}
    (isQueue : state.indexToResolve = index :: others)
    (moved : resolveIndex name dependencies state index others = .ok next) :
    resolveLoop name dependencies (fuel + 1) state = resolveLoop name dependencies fuel next := by
  rw [resolveLoop, isQueue]
  simp only [moved]

theorem resolveLoop_error {error : ResolveError} (isQueue : state.indexToResolve = index :: others)
    (moved : resolveIndex name dependencies state index others = .error error) :
    resolveLoop name dependencies (fuel + 1) state = some (.error error) := by
  rw [resolveLoop, isQueue]
  simp only [moved]

/-- Where the first pass is: some properties are done and the others are still
to do, in their order; some of the first are in the queue again. -/
def passState (done todo queue : List (Fin count)) (name : Fin count → String)
    (between : Nat) (reduction : Int) : ResolveState count :=
  { indexToResolve := todo ++ queue
    executionOrder := done
    resolvedParameters := done.map name
    lastIndexLength := (todo ++ queue).length + between
    lastIndexReduction := reduction
    iterations := done.length }

theorem endsWithDependencies_cons {second : Fin count} {rest : List (Fin count)} :
    endsWithDependencies name dependencies (index :: second :: rest) =
      endsWithDependencies name dependencies (second :: rest) := by
  rw [endsWithDependencies, getLast?_cons_cons, endsWithDependencies]

theorem endsWithDependencies_independent (independent : dependencies (name index) = []) :
    endsWithDependencies name dependencies (index :: todo) =
      endsWithDependencies name dependencies todo := by
  cases todo with
  | nil => simp [endsWithDependencies, independent]
  | cons second rest => exact endsWithDependencies_cons

theorem requeued_independent (independent : dependencies (name index) = []) :
    requeued name dependencies resolved (index :: todo) =
      requeued name dependencies (resolved ++ [name index]) todo := by
  rw [requeued, missing, independent]
  rfl

variable {between : Nat}

theorem passState_dependent {reduction : Int} : queueBehind name dependencies
        (passState done (index :: todo) queue name between reduction) index
        (todo ++ queue) =
      todo ++ (queue ++ List.replicate
        (missing name dependencies (done.map name) index).length index) ∧
    reductionBehind name dependencies
        (passState done (index :: todo) queue name between reduction) index
        (todo ++ queue) =
      if (missing name dependencies (done.map name) index).length ≤ between then
        ((done.length + 1 : Nat) : Int)
      else reduction := by
  have behind : queueBehind name dependencies
      (passState done (index :: todo) queue name between reduction) index
      (todo ++ queue) =
      todo ++ (queue ++ List.replicate
        (missing name dependencies (done.map name) index).length index) :=
    append_assoc _ _ _
  refine ⟨behind, ?_⟩
  rw [reductionBehind, behind]
  have shorter : (todo ++ (queue ++ List.replicate
        (missing name dependencies (done.map name) index).length index)).length <
      (passState done (index :: todo) queue name between reduction).lastIndexLength ↔
      (missing name dependencies (done.map name) index).length ≤ between := by
    simp only [passState, length_append, length_replicate, cons_append, length_cons]
    omega
  simp only [shorter]
  rfl

theorem resolveLoop_firstPass {reduction : Int} (size : done.length + todo.length = count)
    (kind : reduction = -1 ∨ 1 ≤ reduction) (le : reduction ≤ done.length) :
    ∃ between' reduction', ∀ fuel, resolveLoop name dependencies (fuel + todo.length)
          (passState done todo queue name between reduction) =
        if reduction = -1 ∧ endsWithDependencies name dependencies todo = true ∧
            shortensQueue name dependencies (done.map name) between todo = false then
          some (.error .maxIterations)
        else
          resolveLoop name dependencies fuel (passState (done ++ todo) []
              (queue ++ requeued name dependencies (done.map name) todo) name
              between' reduction') := by
  induction todo generalizing done queue between reduction with
  | nil =>
    refine ⟨between, reduction, fun fuel => ?_⟩
    rw [if_neg (by
      intro ⟨_, ends, _⟩
      cases ends)]
    simp [requeued]
  | cons index rest ih =>
    have doneLength : (done ++ [index]).length = done.length + 1 := length_append
    have sizeNext : (done ++ [index]).length + rest.length = count := by
      rw [length_cons] at size
      omega
    have names : (done ++ [index]).map name = done.map name ++ [name index] := map_append
    have orders : done ++ [index] ++ rest = done ++ index :: rest := append_assoc _ _ _
    by_cases independent : dependencies (name index) = []
    · obtain ⟨between', reduction', passed⟩ :=
        @ih (done ++ [index]) queue (between + 1) reduction sizeNext kind (by omega)
      refine ⟨between', reduction', fun fuel => ?_⟩
      have next : ({ passState done (index :: rest) queue name between reduction with
          indexToResolve := rest ++ queue
          executionOrder := done ++ [index]
          resolvedParameters := done.map name ++ [name index]
          iterations := done.length + 1 } : ResolveState count) =
          passState (done ++ [index]) rest queue name (between + 1)
            reduction := by
        simp [passState]
        omega
      have stepped := (@resolveIndex_independent count name dependencies index
        (rest ++ queue) (passState done (index :: rest) queue name between
          reduction) independent).trans (congrArg Except.ok next)
      rw [length_cons, ← Nat.add_assoc, resolveLoop_ok rfl stepped, passed,
        names, orders, endsWithDependencies_independent independent,
        requeued_independent independent, shortensQueue, if_pos independent]
    · obtain ⟨isQueue, isReduction⟩ := @passState_dependent count name
        dependencies index rest done queue between reduction
      have stepped := @resolveIndex_dependent count name dependencies index
        (rest ++ queue) (passState done (index :: rest) queue name between reduction) independent
      rw [isQueue, isReduction] at stepped
      have shortens : shortensQueue name dependencies (done.map name) between (index :: rest) =
          (decide ((missing name dependencies (done.map name) index).length ≤ between) ||
            shortensQueue name dependencies (done.map name ++ [name index]) 0 rest) := by
        rw [shortensQueue, if_neg independent]
      rw [requeued, shortens]
      generalize (missing name dependencies (done.map name) index).length = missed at stepped ⊢
      generalize reductionEq : (if missed ≤ between then
        ((done.length + 1 : Nat) : Int) else reduction) = next at stepped
      by_cases throws : ((done.length + 1 : Nat) : Int) > next + count
      · -- only the last property can end the pass
        have notShorter : ¬ missed ≤ between := by
          intro shorter
          omega
        have noRest : rest = [] := by
          rw [← length_eq_zero_iff]
          omega
        subst noRest
        refine ⟨0, -1, fun fuel => ?_⟩
        have isError : resolveIndex name dependencies
            (passState done [index] queue name between reduction) index
            ([] ++ queue) = .error .maxIterations :=
          stepped.trans (if_pos throws)
        rw [length_singleton, resolveLoop_error rfl isError, if_pos]
        refine ⟨by omega, ?_, ?_⟩
        · simp [endsWithDependencies, independent]
        · rw [decide_eq_false notShorter]
          rfl
      · have isNext : resolveIndex name dependencies
            (passState done (index :: rest) queue name between reduction) index
            (rest ++ queue) =
            .ok (passState (done ++ [index]) rest
              (queue ++ List.replicate missed index) name 0 next) := by
          refine (stepped.trans (if_neg throws)).trans ?_
          simp only [passState, names, doneLength, Nat.add_zero]
        obtain ⟨between', reduction', passed⟩ :=
          @ih (done ++ [index]) (queue ++ List.replicate missed index) 0 next
            sizeNext (by split at reductionEq <;> omega)
            (by split at reductionEq <;> omega)
        refine ⟨between', reduction', fun fuel => ?_⟩
        rw [length_cons, ← Nat.add_assoc, resolveLoop_ok rfl isNext, passed,
          names, orders, append_assoc]
        congr 1
        rw [Bool.or_eq_false_iff, decide_eq_false_iff_not]
        apply propext
        by_cases shorter : missed ≤ between
        · rw [if_pos shorter] at reductionEq
          constructor
          · intro ⟨isStart, _⟩
            omega
          · intro ⟨_, _, notShorter, _⟩
            exact absurd shorter notShorter
        · rw [if_neg shorter] at reductionEq
          cases rest with
          | nil =>
            rw [length_nil] at sizeNext
            constructor
            · intro ⟨_, ends, _⟩
              cases ends
            · intro ⟨isStart, _⟩
              omega
          | cons second rest =>
            rw [endsWithDependencies_cons, reductionEq]
            constructor
            · intro ⟨isStart, ends, longer⟩
              exact ⟨isStart, ends, shorter, longer⟩
            · intro ⟨isStart, ends, _, longer⟩
              exact ⟨isStart, ends, longer⟩

theorem missing_eq_nil_iff : missing name dependencies resolved index = [] ↔
      ∀ dependency ∈ dependencies (name index),
        isRootLevel dependency = false → dependency ∈ resolved := by
  rw [missing, filter_eq_nil_iff]
  grind

theorem missing_subset {later : List String}
    (none : missing name dependencies resolved index = []) :
    missing name dependencies (resolved ++ later) index = [] := by
  rw [missing_eq_nil_iff] at none ⊢
  exact fun dependency isDependency notRoot =>
    mem_append_left _ (none dependency isDependency notRoot)

theorem queueBehind_of_none (none : missing name dependencies state.resolvedParameters index = []) :
    queueBehind name dependencies state index others = others := by
  simp [queueBehind, none]

theorem resolveLoop_resolved
    (dependent : ∀ index ∈ state.indexToResolve, dependencies (name index) ≠ [])
    (noneMissing : ∀ index ∈ state.indexToResolve,
      missing name dependencies state.resolvedParameters index = [])
    (long : state.indexToResolve.length ≤ state.lastIndexLength) :
    resolveLoop name dependencies (state.indexToResolve.length + 1) state =
      some (.ok (state.executionOrder ++ state.indexToResolve)) := by
  generalize isQueue : state.indexToResolve = queue at *
  induction queue generalizing state with
  | nil =>
    rw [resolveLoop, isQueue, append_nil]
  | cons index rest ih =>
    have isDependent := dependent index mem_cons_self
    have none := noneMissing index mem_cons_self
    have behind := @queueBehind_of_none _ _ _ _ rest _ none
    have shorter : rest.length < state.lastIndexLength := long
    have stepped := @resolveIndex_dependent count name dependencies index rest state isDependent
    rw [reductionBehind, behind, if_pos shorter, if_neg (by omega)] at stepped
    rw [length_cons, resolveLoop_ok isQueue stepped]
    have rested := @ih {
        indexToResolve := rest
        executionOrder := state.executionOrder ++ [index]
        resolvedParameters := state.resolvedParameters ++ [name index]
        lastIndexLength := rest.length
        lastIndexReduction := (state.iterations + 1 : Nat)
        iterations := state.iterations + 1 } rfl
      (fun other mem => dependent other (mem_cons_of_mem index mem))
      (fun other mem => missing_subset (noneMissing other (mem_cons_of_mem index mem)))
      (le_refl _)
    rw [rested, append_assoc, singleton_append]

/-- A dependency of the property names no property. -/
def isUnresolvable (name : Fin count → String)
    (dependencies : String → List String) (index : Fin count) : Bool :=
  (dependencies (name index)).any fun dependency =>
    !isRootLevel dependency && (List.finRange count).all fun other => name other ≠ dependency

/-- The queue has a property that cannot be resolved, and what can be is. -/
structure StaysUnresolved (name : Fin count → String)
    (dependencies : String → List String) (state : ResolveState count) :
    Prop where
  unresolvable : ∃ index ∈ state.indexToResolve, isUnresolvable name dependencies index = true
  dependent : ∀ index ∈ state.indexToResolve, dependencies (name index) ≠ []
  known : ∀ parameter ∈ state.resolvedParameters, ∃ index, name index = parameter
  noneMissing : ∀ index ∈ state.indexToResolve, isUnresolvable name dependencies index = false →
      missing name dependencies state.resolvedParameters index = []

theorem isUnresolvable_eq_false_iff : isUnresolvable name dependencies index = false ↔
      ∀ dependency ∈ dependencies (name index),
        isRootLevel dependency = false → ∃ other, name other = dependency := by
  simp [isUnresolvable]

theorem missing_of_unresolvable (known : ∀ parameter ∈ resolved, ∃ index, name index = parameter)
    (unresolvable : isUnresolvable name dependencies index = true) :
    missing name dependencies resolved index ≠ [] := by
  intro none
  have canResolve : isUnresolvable name dependencies index = false :=
    isUnresolvable_eq_false_iff.mpr fun dependency isDependency notRoot =>
      known dependency (missing_eq_nil_iff.mp none dependency isDependency notRoot)
  exact Bool.false_ne_true (canResolve.symm.trans unresolvable)

theorem known_append (known : ∀ parameter ∈ resolved, ∃ other, name other = parameter) :
    ∀ parameter ∈ resolved ++ [name index], ∃ other, name other = parameter := by
  intro parameter mem
  rcases mem_append.mp mem with before | isName
  · exact known parameter before
  · exact ⟨index, (mem_singleton.mp isName).symm⟩

/-- The properties in the queue that can be resolved. -/
def resolvable (name : Fin count → String) (dependencies : String → List String)
    (state : ResolveState count) : Nat :=
  state.indexToResolve.countP fun index =>
    isUnresolvable name dependencies index = false

/-- The iterations until the loop gives up. -/
def turnsLeft (state : ResolveState count) : Nat :=
  (state.lastIndexReduction + count + 1 - state.iterations).toNat

/-- Each turn takes a property that can be resolved out of the queue, or leaves
the queue as long as it was. -/
theorem StaysUnresolved.step (stays : StaysUnresolved name dependencies state)
    (isQueue : state.indexToResolve = index :: others) :
    (∃ error, resolveIndex name dependencies state index others = .error error) ∨
      ∃ next, resolveIndex name dependencies state index others = .ok next ∧
        StaysUnresolved name dependencies next ∧
        next.lastIndexLength = next.indexToResolve.length ∧
        (state.lastIndexLength = state.indexToResolve.length →
          resolvable name dependencies next < resolvable name dependencies state ∨
            (resolvable name dependencies next = resolvable name dependencies state ∧
              turnsLeft next < turnsLeft state)) := by
  have isInQueue : index ∈ state.indexToResolve := by
    rw [isQueue]
    exact mem_cons_self
  have others_subset : ∀ other ∈ others, other ∈ state.indexToResolve := by
    intro other mem
    rw [isQueue]
    exact mem_cons_of_mem index mem
  have stepped := @resolveIndex_dependent count name dependencies index others
    state (stays.dependent index isInQueue)
  by_cases throws : ((state.iterations + 1 : Nat) : Int) >
      reductionBehind name dependencies state index others + count
  · rw [if_pos throws] at stepped
    exact .inl ⟨_, stepped⟩
  · rw [if_neg throws] at stepped
    right
    refine ⟨_, stepped, ?_, rfl, ?_⟩
    · have inQueue : ∀ other ∈ queueBehind name dependencies state index others,
          other ∈ state.indexToResolve := by
        intro other mem
        rcases mem_append.mp mem with inOthers | again
        · exact others_subset other inOthers
        · rw [eq_of_mem_replicate again]
          exact isInQueue
      refine ⟨?_, ?_, known_append stays.known, ?_⟩
      · obtain ⟨found, mem, unresolvable⟩ := stays.unresolvable
        refine ⟨found, ?_, unresolvable⟩
        rw [isQueue] at mem
        rcases mem_cons.mp mem with isHead | inOthers
        · subst isHead
          apply mem_append_right
          rw [mem_replicate]
          refine ⟨?_, rfl⟩
          rw [ne_eq, length_eq_zero_iff]
          exact missing_of_unresolvable stays.known unresolvable
        · exact mem_append_left _ inOthers
      · exact fun other mem => stays.dependent other (inQueue other mem)
      · exact fun other mem canResolve => missing_subset
          (stays.noneMissing other (inQueue other mem) canResolve)
    · intro sameLength
      rw [resolvable, resolvable, isQueue]
      cases unresolvable : isUnresolvable name dependencies index with
      | false =>
        left
        have none := stays.noneMissing index isInQueue unresolvable
        simp only [queueBehind_of_none none]
        rw [countP_cons_of_pos (by simpa using unresolvable)]
        exact lt_succ_self _
      | true =>
        right
        have some := missing_of_unresolvable stays.known unresolvable
        have positive := length_pos_of_ne_nil some
        constructor
        · have again : (List.replicate (missing name dependencies
              state.resolvedParameters index).length index).countP (fun index =>
                isUnresolvable name dependencies index = false) = 0 := by
            rw [countP_eq_zero]
            intro other mem
            rw [eq_of_mem_replicate mem]
            simpa using unresolvable
          rw [queueBehind, countP_append, again, countP_cons_of_neg (by simpa using unresolvable)]
          rfl
        · have long : ¬ (queueBehind name dependencies state index
              others).length < state.lastIndexLength := by
            rw [sameLength, isQueue, queueBehind, length_append, length_replicate, length_cons]
            omega
          rw [reductionBehind, if_neg long] at throws
          simp only [turnsLeft, reductionBehind, if_neg long]
          omega

theorem StaysUnresolved.exists_cons (stays : StaysUnresolved name dependencies state) :
    ∃ index others, state.indexToResolve = index :: others := by
  obtain ⟨index, mem, _⟩ := stays.unresolvable
  exact exists_cons_of_ne_nil (ne_nil_of_mem mem)

theorem StaysUnresolved.throws (stays : StaysUnresolved name dependencies state)
    (sameLength : state.lastIndexLength = state.indexToResolve.length) :
    ∃ fuel error, resolveLoop name dependencies fuel state = some (.error error) := by
  generalize resolvableEq : resolvable name dependencies state = left
  generalize turnsEq : turnsLeft state = turns
  induction left using Nat.strongRecOn generalizing turns state with
  | ind left fewer =>
    induction turns using Nat.strongRecOn generalizing state with
    | ind turns fewerTurns =>
      obtain ⟨index, others, isQueue⟩ := stays.exists_cons
      rcases stays.step isQueue with ⟨error, moved⟩ | ⟨next, moved, staysNext, sameNext, decreases⟩
      · exact ⟨1, error, resolveLoop_error isQueue moved⟩
      · have later : ∃ fuel error, resolveLoop name dependencies fuel next =
            some (.error error) := by
          rcases decreases sameLength with less | ⟨same, less⟩
          · exact fewer _ (resolvableEq ▸ less) staysNext sameNext rfl _ rfl
          · exact fewerTurns _ (turnsEq ▸ less) staysNext sameNext (same.trans resolvableEq) rfl
        obtain ⟨fuel, error, thrown⟩ := later
        exact ⟨fuel + 1, error, (resolveLoop_ok isQueue moved).trans thrown⟩

theorem StaysUnresolved.throws_later (stays : StaysUnresolved name dependencies state) :
    ∃ fuel error, resolveLoop name dependencies fuel state = some (.error error) := by
  obtain ⟨index, others, isQueue⟩ := stays.exists_cons
  rcases stays.step isQueue with ⟨error, moved⟩ | ⟨next, moved, staysNext, sameNext, _⟩
  · exact ⟨1, error, resolveLoop_error isQueue moved⟩
  · obtain ⟨fuel, error, thrown⟩ := staysNext.throws sameNext
    exact ⟨fuel + 1, error, (resolveLoop_ok isQueue moved).trans thrown⟩

theorem dependent_of_mem_requeued (mem : index ∈ requeued name dependencies resolved todo) :
    dependencies (name index) ≠ [] := by
  induction todo generalizing resolved with
  | nil => cases mem
  | cons first rest ih =>
    rcases mem_append.mp mem with again | later
    · intro independent
      rw [mem_replicate] at again
      rw [again.2] at independent
      apply again.1
      rw [missing, independent]
      rfl
    · exact ih later

theorem mem_requeued_of_unresolvable
    (known : ∀ parameter ∈ resolved, ∃ other, name other = parameter)
    (unresolvable : isUnresolvable name dependencies index = true)
    (mem : index ∈ todo) :
    index ∈ requeued name dependencies resolved todo := by
  induction todo generalizing resolved with
  | nil => cases mem
  | cons first rest ih =>
    rw [requeued, mem_append]
    rcases mem_cons.mp mem with isHead | inRest
    · left
      rw [isHead] at unresolvable ⊢
      rw [mem_replicate, ne_eq, length_eq_zero_iff]
      exact ⟨missing_of_unresolvable known unresolvable, rfl⟩
    · exact .inr (ih (known_append known) inRest)

theorem missing_of_resolvable (canResolve : isUnresolvable name dependencies index = false) :
    missing name dependencies ((List.finRange count).map name) index = [] := by
  rw [missing_eq_nil_iff]
  intro dependency isDependency notRoot
  obtain ⟨other, same⟩ := isUnresolvable_eq_false_iff.mp canResolve dependency isDependency notRoot
  exact mem_map.mpr ⟨other, mem_finRange other, same⟩

theorem allNamed_iff : AllNamed name dependencies ↔
      ∀ index, isUnresolvable name dependencies index = false :=
  forall_congr' fun _ => isUnresolvable_eq_false_iff.symm

variable (name) in
def initialState : ResolveState count :=
  passState [] (List.finRange count) [] name 0 (-1)

theorem resolveLoop_initialState :
    ∃ between reduction, ∀ fuel, resolveLoop name dependencies (fuel + count) (initialState name) =
      if EndsEarly name dependencies then some (.error .maxIterations)
      else
        resolveLoop name dependencies fuel (passState (List.finRange count) []
            (requeued name dependencies [] (List.finRange count)) name between
            reduction) := by
  obtain ⟨between, reduction, passed⟩ := @resolveLoop_firstPass count name
    dependencies (List.finRange count) [] [] 0 (-1) (by simp) (.inl rfl) (by simp)
  refine ⟨between, reduction, fun fuel => ?_⟩
  have behind := passed fuel
  rw [length_finRange] at behind
  by_cases early : EndsEarly name dependencies
  · rw [if_pos early]
    exact behind.trans (if_pos ⟨rfl, early⟩)
  · rw [if_neg early]
    exact behind.trans (if_neg fun both => early both.2)

/-- If every dependency has a name, the first pass ends early or the rest of the
queue follows the indexes. -/
theorem resolveLoop_named (named : AllNamed name dependencies) :
    ∃ bound, ∀ fuel, bound ≤ fuel → resolveLoop name dependencies fuel (initialState name) =
        some (if EndsEarly name dependencies then .error .maxIterations
          else .ok (List.finRange count ++
            requeued name dependencies [] (List.finRange count))) := by
  obtain ⟨between, reduction, passed⟩ := @resolveLoop_initialState count name dependencies
  refine ⟨_, fun fuel le => resolveLoop_mono le ((passed
    ((requeued name dependencies [] (List.finRange count)).length + 1)).trans ?_)⟩
  split
  · rfl
  · apply resolveLoop_resolved
    · exact fun index mem => dependent_of_mem_requeued mem
    · exact fun index _ => missing_of_resolvable (allNamed_iff.mp named index)
    · exact le_add_right _ _

theorem resolveLoop_unnamed (unnamed : ¬ AllNamed name dependencies) :
    ∃ bound error, ∀ fuel, bound ≤ fuel →
      resolveLoop name dependencies fuel (initialState name) = some (.error error) := by
  have stays (between : Nat) (reduction : Int) :
      StaysUnresolved name dependencies (passState (List.finRange count) []
        (requeued name dependencies [] (List.finRange count)) name between
        reduction) := by
    obtain ⟨index, unresolvable⟩ := not_forall.mp (allNamed_iff.not.mp unnamed)
    refine ⟨⟨index, ?_, Bool.not_eq_false _ ▸ unresolvable⟩, ?_, ?_, ?_⟩
    · exact mem_requeued_of_unresolvable (fun _ impossible => absurd impossible not_mem_nil)
        (Bool.not_eq_false _ ▸ unresolvable) (mem_finRange index)
    · exact fun index mem => dependent_of_mem_requeued mem
    · intro parameter mem
      obtain ⟨index, _, same⟩ := mem_map.mp mem
      exact ⟨index, same⟩
    · exact fun index _ canResolve => missing_of_resolvable canResolve
  obtain ⟨between, reduction, passed⟩ := @resolveLoop_initialState count name dependencies
  by_cases early : EndsEarly name dependencies
  · have ended := passed 0
    rw [if_pos early] at ended
    exact ⟨_, _, fun fuel le => resolveLoop_mono le ended⟩
  · obtain ⟨fuel, error, thrown⟩ := (stays between reduction).throws_later
    have ended := passed fuel
    rw [if_neg early] at ended
    exact ⟨_, error, fun larger le =>
      resolveLoop_mono le (ended.trans thrown)⟩

/-!
## Orders that are right
-/

variable (name dependencies) in
/-- Every property stands behind those that it depends on. -/
def InOrder : Prop :=
  ∀ index other, DependsOn name dependencies index other → other < index

theorem acyclic_of_ranked (rank : Fin count → Nat)
    (lower : ∀ index other, DependsOn name dependencies index other →
      rank other < rank index) : Acyclic name dependencies := by
  intro index cycle
  have descends (last : Fin count)
      (path : Relation.TransGen (DependsOn name dependencies) index last) :
      rank last < rank index := by
    induction path with
    | single step => exact lower _ _ step
    | tail _ step ih => exact (lower _ _ step).trans ih
  exact lt_irrefl _ (descends index cycle)

theorem InOrder.acyclic (inOrder : InOrder name dependencies) : Acyclic name dependencies :=
  acyclic_of_ranked Fin.val inOrder

theorem requeued_of_inOrder (named : AllNamed name dependencies)
    (inOrder : InOrder name dependencies)
    (split : done ++ todo = List.finRange count) :
    requeued name dependencies (done.map name) todo = [] := by
  induction todo generalizing done with
  | nil => rfl
  | cons index rest ih =>
    have none : missing name dependencies (done.map name) index = [] := by
      rw [missing_eq_nil_iff]
      intro dependency isDependency notRoot
      obtain ⟨other, rfl⟩ := named index dependency isDependency notRoot
      have before := inOrder index other ⟨isDependency, notRoot⟩
      apply mem_map_of_mem
      have isInRange := mem_finRange other
      have ordered := pairwise_lt_finRange count
      rw [← split] at isInRange ordered
      rcases mem_append.mp isInRange with isDone | later
      · exact isDone
      · rcases mem_cons.mp later with same | inRest
        · exact absurd before (same ▸ lt_irrefl other)
        · have above := (pairwise_cons.mp (pairwise_append.mp ordered).2.1).1 other inRest
          exact absurd (above.trans before) (lt_irrefl index)
    have rested := @ih (done ++ [index]) (by rw [append_assoc, singleton_append, split])
    rw [map_append, map_singleton] at rested
    rw [requeued, none, rested]
    rfl

theorem shortensQueue_of_requeued (none : requeued name dependencies resolved todo = [])
    (ends : endsWithDependencies name dependencies todo = true) :
    shortensQueue name dependencies resolved between todo = true := by
  induction todo generalizing resolved between with
  | nil => cases ends
  | cons index rest ih =>
    rw [requeued, append_eq_nil_iff, replicate_eq_nil_iff] at none
    rw [shortensQueue]
    split
    next independent =>
      rw [endsWithDependencies_independent independent] at ends
      exact ih none.2 ends
    · rw [none.1, decide_eq_true (zero_le between), Bool.true_or]

theorem isResolveOrder_iff {later : List (Fin count)} :
    IsResolveOrder name dependencies (List.finRange count ++ later) ↔
      later = [] ∧ InOrder name dependencies := by
  constructor
  · intro right
    have lengths := right.perm.length_eq
    rw [length_append, Nat.add_eq_left, length_eq_zero_iff] at lengths
    refine ⟨lengths, ?_⟩
    intro index other depends
    have behind := right.behind index other depends
    rw [lengths, append_nil, idxOf_finRange, idxOf_finRange] at behind
    exact behind
  · intro ⟨nothing, inOrder⟩
    rw [nothing, append_nil]
    refine ⟨.refl _, ?_⟩
    intro index other depends
    rw [idxOf_finRange, idxOf_finRange]
    exact inOrder index other depends

theorem ResolvesOrThrows.result {run : Nat → Option (Except ResolveError (List (Fin count)))}
    (right : ResolvesOrThrows name dependencies run) {bound : Nat}
    {result : Except ResolveError (List (Fin count))}
    (ended : ∀ fuel, bound ≤ fuel → run fuel = some result) :
    (AllNamed name dependencies ∧ Acyclic name dependencies →
      ∃ order, result = .ok order ∧ IsResolveOrder name dependencies order) ∧
    ((∃ error, result = .error error) ↔
      ¬ (AllNamed name dependencies ∧ Acyclic name dependencies)) := by
  obtain ⟨other, found, endedOther, resolves⟩ := right
  have same := (ended _ (le_max_left bound other)).symm.trans
    (endedOther _ (le_max_right bound other))
  rw [Option.some.inj same]
  exact resolves

/-- The loop is right exactly if a dependency has no name, or the properties are
in order already, or there is a cycle and the first pass ends early. -/
theorem resolvesOrThrows_initialState : ResolvesOrThrows name dependencies
        (fun fuel => resolveLoop name dependencies fuel (initialState name)) ↔
      (AllNamed name dependencies → InOrder name dependencies ∨
        (¬ Acyclic name dependencies ∧ EndsEarly name dependencies)) := by
  by_cases named : AllNamed name dependencies
  · obtain ⟨bound, ended⟩ := resolveLoop_named named
    constructor
    · intro right _
      obtain ⟨orders, throws⟩ := right.result ended
      by_cases acyclic : Acyclic name dependencies
      · left
        obtain ⟨order, isOk, isOrder⟩ := orders ⟨named, acyclic⟩
        split at isOk
        · cases isOk
        · rw [← Except.ok.inj isOk] at isOrder
          exact (isResolveOrder_iff.mp isOrder).2
      · right
        obtain ⟨error, isError⟩ := throws.mpr fun both => acyclic both.2
        split at isError
        · exact ⟨acyclic, ‹_›⟩
        · cases isError
    · intro condition
      refine ⟨bound, _, ended, ?_⟩
      rcases condition named with inOrder | ⟨cyclic, early⟩
      · have nothing : requeued name dependencies [] (List.finRange count) = [] :=
          @requeued_of_inOrder count name dependencies (List.finRange count) [] named inOrder rfl
        have notEarly : ¬ EndsEarly name dependencies := by
          intro ⟨ends, longer⟩
          rw [shortensQueue_of_requeued nothing ends] at longer
          cases longer
        rw [if_neg notEarly]
        constructor
        · exact fun _ => ⟨_, rfl, isResolveOrder_iff.mpr ⟨nothing, inOrder⟩⟩
        · constructor
          · intro ⟨error, isError⟩
            cases isError
          · exact fun wrong => absurd ⟨named, inOrder.acyclic⟩ wrong
      · rw [if_pos early]
        exact ⟨fun both => absurd both.2 cyclic, fun _ both => cyclic both.2, fun _ => ⟨_, rfl⟩⟩
  · constructor
    · exact fun _ isNamed => absurd isNamed named
    · intro _
      obtain ⟨bound, error, ended⟩ := resolveLoop_unnamed named
      exact ⟨bound, _, ended, fun both => absurd both.1 named,
        fun _ both => named both.1, fun _ => ⟨error, rfl⟩⟩

section Properties

variable (nodePropertiesArray : List INodeProperties)

def propertyName (index : Fin nodePropertiesArray.length) : String :=
  (nodePropertiesArray.get index).name

def dependenciesOf (parameterName : String) : List String :=
  ((getParameterDependencies nodePropertiesArray).get? parameterName).getD []

/-- Parameters are resolved in a right order, or not at all, exactly if some
dependency has no name, or the properties are in order already, or there is a
cycle and the first pass ends early. -/
theorem resolvesOrThrows_iff : ResolvesOrThrows (propertyName nodePropertiesArray)
        (dependenciesOf nodePropertiesArray)
        (fun fuel => getParameterResolveOrder fuel nodePropertiesArray
          (getParameterDependencies nodePropertiesArray)) ↔
      (AllNamed (propertyName nodePropertiesArray) (dependenciesOf nodePropertiesArray) →
        InOrder (propertyName nodePropertiesArray) (dependenciesOf nodePropertiesArray) ∨
          (¬ Acyclic (propertyName nodePropertiesArray) (dependenciesOf nodePropertiesArray) ∧
            EndsEarly (propertyName nodePropertiesArray)
              (dependenciesOf nodePropertiesArray))) := by
  rw [← resolvesOrThrows_initialState]
  have start : (initialState (propertyName nodePropertiesArray)) =
      { indexToResolve := List.finRange nodePropertiesArray.length
        lastIndexLength := nodePropertiesArray.length } := by
    simp [initialState, passState]
  rw [start]
  rfl

end Properties

private def dependentFirst : List INodeProperties :=
  [{ name := "b", displayOptions := some [["a"]] }, { name := "a" }]

/-- The first property is resolved twice. -/
theorem not_resolvesOrThrows_dependentFirst :
    ¬ ResolvesOrThrows (propertyName dependentFirst) (dependenciesOf dependentFirst)
      (fun fuel => getParameterResolveOrder fuel dependentFirst
        (getParameterDependencies dependentFirst)) := by
  intro right
  have ended (fuel : Nat) (le : 4 ≤ fuel) : getParameterResolveOrder fuel dependentFirst
        (getParameterDependencies dependentFirst) = some (.ok
          [⟨0, by decide⟩, ⟨1, by decide⟩, ⟨0, by decide⟩]) :=
    resolveLoop_mono le (by rfl)
  have named : AllNamed (propertyName dependentFirst) (dependenciesOf dependentFirst) := by
    unfold AllNamed
    decide +kernel
  have acyclic : Acyclic (propertyName dependentFirst) (dependenciesOf dependentFirst) := by
    apply acyclic_of_ranked (fun index => 2 - index.val)
    unfold DependsOn
    decide +kernel
  obtain ⟨order, isOk, isOrder⟩ := (right.result ended).1 ⟨named, acyclic⟩
  have lengths := isOrder.perm.length_eq
  rw [← Except.ok.inj isOk] at lengths
  cases lengths

end ParameterOrder

end N8n
