import Mathlib.Data.List.Basic

/-!
# Conditions of SQL

A condition is true, false or unknown, and only rows of which it is true are
selected.  Conditions that are joined in a row are evaluated with the usual
precedence: `AND` binds tighter than `OR`.
-/

/-- `none` is the unknown truth value. -/
abbrev Truth := Option Bool

namespace Truth

def and : Truth → Truth → Truth
  | some false, _ | _, some false => some false
  | some true, some true => some true
  | _, _ => none

def or : Truth → Truth → Truth
  | some true, _ | _, some true => some true
  | some false, some false => some false
  | _, _ => none

theorem and_eq_true {left right : Truth} :
    left.and right = some true ↔ left = some true ∧ right = some true := by
  rcases left with _ | _ | _ <;> rcases right with _ | _ | _ <;> decide

theorem or_eq_true {left right : Truth} :
    left.or right = some true ↔ left = some true ∨ right = some true := by
  rcases left with _ | _ | _ <;> rcases right with _ | _ | _ <;> decide

def any (conditions : List Truth) : Truth := conditions.foldr or (some false)

theorem any_eq_true {conditions : List Truth} :
    any conditions = some true ↔ some true ∈ conditions := by
  induction conditions with
  | nil => simp [any]
  | cons first rest ih =>
    rw [any, List.foldr_cons, ← any, or_eq_true, ih, List.mem_cons, eq_comm]

end Truth

inductive Connective where
  | and
  | or

/-- A condition with what joins it to the ones before it. -/
abbrev JoinedCondition := Connective × Truth

namespace JoinedCondition

def evaluateFrom (conjunction : Truth) : List JoinedCondition → Truth
  | [] => conjunction
  | (.and, next) :: later => evaluateFrom (conjunction.and next) later
  | (.or, next) :: later => conjunction.or (evaluateFrom next later)

/-- The connective of the first condition is not used, and without conditions
all rows are selected. -/
def evaluate : List JoinedCondition → Truth
  | [] => some true
  | (_, first) :: later => evaluateFrom first later

variable {conditions : List Truth}

theorem evaluateFrom_and {conjunction : Truth} :
    evaluateFrom conjunction (conditions.map (Prod.mk .and)) = some true ↔
      conjunction = some true ∧ ∀ condition ∈ conditions, condition = some true := by
  induction conditions generalizing conjunction with
  | nil => simp [evaluateFrom]
  | cons next later ih =>
    rw [List.map_cons, evaluateFrom, ih, Truth.and_eq_true, List.forall_mem_cons, and_assoc]

theorem evaluate_and : evaluate (conditions.map (Prod.mk .and)) = some true ↔
      ∀ condition ∈ conditions, condition = some true := by
  cases conditions with
  | nil => simp [evaluate]
  | cons first later =>
    rw [List.map_cons, evaluate, evaluateFrom_and, List.forall_mem_cons]

/-- A condition that is joined by `AND` at the end belongs to the last one of a
disjunction. -/
theorem evaluateFrom_or_and {first last added : Truth} :
    evaluateFrom first ((conditions ++ [last]).map (Prod.mk .or) ++ [(.and, added)]) = some true ↔
      some true ∈ first :: conditions ∨ last = some true ∧ added = some true := by
  induction conditions generalizing first with
  | nil =>
    rw [List.nil_append, List.map_singleton, List.singleton_append,
      evaluateFrom, evaluateFrom, evaluateFrom, Truth.or_eq_true,
      Truth.and_eq_true, List.mem_singleton, eq_comm]
  | cons next later ih =>
    rw [List.cons_append, List.map_cons, List.cons_append, evaluateFrom,
      Truth.or_eq_true, ih, List.mem_cons (b := first), or_assoc, eq_comm]

theorem evaluateFrom_or {first : Truth} :
    evaluateFrom first (conditions.map (Prod.mk .or)) = some true ↔
      some true ∈ first :: conditions := by
  induction conditions generalizing first with
  | nil => simp [evaluateFrom, eq_comm]
  | cons next later ih =>
    rw [List.map_cons, evaluateFrom, Truth.or_eq_true, ih, List.mem_cons (b := first), eq_comm]

theorem evaluate_or (notEmpty : conditions ≠ []) :
    evaluate (conditions.map (Prod.mk .or)) = some true ↔ some true ∈ conditions := by
  cases conditions with
  | nil => exact absurd rfl notEmpty
  | cons first later => exact evaluateFrom_or

end JoinedCondition
