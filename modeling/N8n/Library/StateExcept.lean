import Mathlib.Data.List.Forall2
import Mathlib.Order.Defs.Unbundled

/-!
# Stateful computations which may fail

`StateExcept σ ε` is the monad of computations over a state `σ` that may stop
with an error of type `ε`.  A failing computation keeps the state it had
reached, which is how exceptions behave in an imperative language.

`Always relation computation` says that the state after the computation,
whether it succeeded or failed, is related to the state before it.  For a
reflexive and transitive relation the rules below reduce it to the primitive
writes of the computation.
-/

universe u

abbrev StateExcept (σ ε : Type u) := ExceptT ε (StateM σ)

namespace StateExcept

variable {σ ε α β : Type u}

/-- Run a computation to its outcome and its last state. -/
def exec (computation : StateExcept σ ε α) (state : σ) : Except ε α × σ :=
  StateT.run (ExceptT.run computation) state

@[simp] theorem exec_pure (value : α) (state : σ) :
    exec (pure value : StateExcept σ ε α) state = (.ok value, state) := rfl

@[simp] theorem exec_throw (error : ε) (state : σ) :
    exec (throw error : StateExcept σ ε α) state = (.error error, state) := rfl

@[simp] theorem exec_get (state : σ) :
    exec (get : StateExcept σ ε σ) state = (.ok state, state) := rfl

@[simp] theorem exec_set (next state : σ) :
    exec (set next : StateExcept σ ε PUnit) state = (.ok ⟨⟩, next) := rfl

@[simp] theorem exec_modify (change : σ → σ) (state : σ) :
    exec (modify change : StateExcept σ ε PUnit) state = (.ok ⟨⟩, change state) := rfl

theorem exec_bind (first : StateExcept σ ε α) (second : α → StateExcept σ ε β) (state : σ) :
    exec (first >>= second) state =
      match exec first state with
      | (.ok value, next) => exec (second value) next
      | (.error error, next) => (.error error, next) := by
  cases result : exec first state with
  | mk outcome next =>
    have unfolded : StateT.run (ExceptT.run first) state = (outcome, next) := result
    change StateT.run (ExceptT.run first >>= ExceptT.bindCont second) state = _
    rw [StateT.run_bind, unfolded]
    cases outcome <;> rfl

variable {second : α → StateExcept σ ε β} {first : StateExcept σ ε α}

@[simp] theorem exec_bind_ok {state next : σ}
    {value : α} (ok : exec first state = (.ok value, next)) :
    exec (first >>= second) state = exec (second value) next := by
  rw [exec_bind, ok]

@[simp] theorem exec_get_bind (second : σ → StateExcept σ ε β) (state : σ) :
    exec (get >>= second) state = exec (second state) state :=
  exec_bind_ok (exec_get state)

@[simp] theorem exec_modify_bind (change : σ → σ) (second : PUnit → StateExcept σ ε β) (state : σ) :
    exec (modify change >>= second) state = exec (second ⟨⟩) (change state) :=
  exec_bind_ok (exec_modify change state)

variable {last : σ} {state : σ}

theorem exec_bind_eq_ok {value : β} : exec (first >>= second) state = (.ok value, last) ↔
      ∃ result middle, exec first state = (.ok result, middle) ∧
        exec (second result) middle = (.ok value, last) := by
  rw [exec_bind]
  cases run : exec first state with
  | mk outcome next =>
    cases outcome with
    | error error => simp
    | ok result =>
      constructor
      · intro success
        exact ⟨result, next, rfl, success⟩
      · rintro ⟨_, _, equal, success⟩
        cases equal
        exact success

/-- The values of a computation for each item of a list are related to the
items, if each of them is. -/
theorem forall₂_of_exec_mapM {related : α → β → Prop}
    {body : α → StateExcept σ ε β} (each : ∀ item state value next,
      exec (body item) state = (.ok value, next) → related item value)
    {items : List α} {values : List β}
    (ok : exec (items.mapM body) state = (.ok values, last)) :
    List.Forall₂ related items values := by
  induction items generalizing values state with
  | nil =>
    cases ok
    exact List.Forall₂.nil
  | cons item items ih =>
    rw [List.mapM_cons] at ok
    obtain ⟨value, middle, first, ok⟩ := exec_bind_eq_ok.mp ok
    obtain ⟨rest, after, mapped, ok⟩ := exec_bind_eq_ok.mp ok
    cases ok
    exact List.Forall₂.cons (each item state value middle first) (ih mapped)

variable (outcome : Except ε α)

/-- The outcome of a computation that does not touch the state. -/
def ofExcept : StateExcept σ ε α :=
  match outcome with
  | .ok value => pure value
  | .error error => throw error

@[simp] theorem exec_ofExcept (state : σ) :
    exec (ofExcept outcome : StateExcept σ ε α) state = (outcome, state) := by
  cases outcome <;> rfl

/-- Change the state, or fail and leave it as it is. -/
def modifyOrThrow (change : σ → Except ε σ) : StateExcept σ ε PUnit := do
  set (← ofExcept (change (← get)))

theorem exec_modifyOrThrow_eq_ok {change : σ → Except ε σ} :
    exec (modifyOrThrow change) state = (.ok ⟨⟩, last) ↔ change state = .ok last := by
  rw [modifyOrThrow, exec_get_bind, exec_bind, exec_ofExcept]
  cases change state <;> simp

theorem exec_tryCatch (body : StateExcept σ ε α) (handler : ε → StateExcept σ ε α) (state : σ) :
    exec (tryCatch body handler) state =
      match exec body state with
      | (.ok value, next) => (.ok value, next)
      | (.error error, next) => exec (handler error) next := by
  cases result : exec body state with
  | mk outcome next =>
    have unfolded : StateT.run (ExceptT.run body) state = (outcome, next) := result
    change StateT.run (ExceptT.run body >>= fun outcome =>
      match outcome with
      | .ok value => pure (.ok value)
      | .error error => ExceptT.run (handler error)) state = _
    rw [StateT.run_bind, unfolded]
    cases outcome <;> rfl

/-- The last state is related to the first one, on success and on failure. -/
def Always (relation : σ → σ → Prop) (computation : StateExcept σ ε α) : Prop :=
  ∀ state, relation state (exec computation state).2

namespace Always

variable {relation : σ → σ → Prop}

theorem pure [Std.Refl relation] (value : α) :
    Always relation (Pure.pure value : StateExcept σ ε α) :=
  fun state => Std.Refl.refl state

theorem throw [Std.Refl relation] (error : ε) :
    Always relation (MonadExcept.throw error : StateExcept σ ε α) :=
  fun state => Std.Refl.refl state

theorem get [Std.Refl relation] : Always relation (MonadState.get : StateExcept σ ε σ) :=
  fun state => Std.Refl.refl state

theorem modify {change : σ → σ} (related : ∀ state, relation state (change state)) :
    Always relation (modify change : StateExcept σ ε PUnit) :=
  related

theorem ofExcept [Std.Refl relation] (outcome : Except ε α) :
    Always relation (StateExcept.ofExcept outcome : StateExcept σ ε α) := by
  intro state
  rw [exec_ofExcept]
  exact Std.Refl.refl state

theorem modifyOrThrow [Std.Refl relation] {change : σ → Except ε σ}
    (related : ∀ state next, change state = .ok next → relation state next) :
    Always relation (StateExcept.modifyOrThrow change) := by
  intro state
  rw [StateExcept.modifyOrThrow, exec_get_bind, exec_bind, exec_ofExcept]
  cases changed : change state with
  | error error => exact Std.Refl.refl state
  | ok next => exact related state next changed

variable {second : α → StateExcept σ ε β}

theorem bind [IsTrans σ relation] {first : StateExcept σ ε α} (before : Always relation first)
    (after : ∀ value, Always relation (second value)) :
    Always relation (first >>= second) := by
  intro state
  have firstRelated := before state
  rw [exec_bind]
  cases result : exec first state with
  | mk outcome next =>
    rw [result] at firstRelated
    cases outcome with
    | error error => exact firstRelated
    | ok value => exact trans_of relation firstRelated (after value next)

theorem bind_ofExcept [Std.Refl relation] {outcome : Except ε α}
    (after : ∀ value, outcome = .ok value → Always relation (second value)) :
    Always relation (StateExcept.ofExcept outcome >>= second) := by
  intro state
  cases result : outcome with
  | error error => exact Std.Refl.refl state
  | ok value => exact after value result state

theorem tryCatch [IsTrans σ relation] {body : StateExcept σ ε α}
    {handler : ε → StateExcept σ ε α} (tried : Always relation body)
    (caught : ∀ error, Always relation (handler error)) :
    Always relation (MonadExcept.tryCatch body handler) := by
  intro state
  have bodyRelated := tried state
  rw [exec_tryCatch]
  cases result : exec body state with
  | mk outcome next =>
    rw [result] at bodyRelated
    cases outcome with
    | ok value => exact bodyRelated
    | error error => exact trans_of relation bodyRelated (caught error next)

variable {items : List α}

theorem forM [Std.Refl relation] [IsTrans σ relation] {body : α → StateExcept σ ε PUnit}
    (each : ∀ item ∈ items, Always relation (body item)) :
    Always relation (items.forM body) := by
  induction items with
  | nil => exact Always.pure _
  | cons item items ih =>
    exact Always.bind (each item (by simp)) fun _ =>
      ih fun other mem => each other (by simp [mem])

theorem mapM [Std.Refl relation] [IsTrans σ relation] {body : α → StateExcept σ ε β}
    (each : ∀ item, Always relation (body item)) :
    Always relation (items.mapM body) := by
  induction items with
  | nil => exact Always.pure _
  | cons item items ih =>
    rw [List.mapM_cons]
    exact Always.bind (each item) fun _ =>
      Always.bind ih fun _ => Always.pure _

theorem ite {condition : Prop} [Decidable condition]
    {left right : StateExcept σ ε α} (whenTrue : Always relation left)
    (whenFalse : Always relation right) :
    Always relation (if condition then left else right) := by
  split
  · exact whenTrue
  · exact whenFalse

end Always

end StateExcept
