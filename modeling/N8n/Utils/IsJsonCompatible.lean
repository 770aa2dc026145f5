import Mathlib.Data.Fintype.Card
import Mathlib.Logic.Relation

/-!
# JSON-compatible values

Objects and arrays refer to each other by addresses, with any sharing and any
cycles.  The stack holds the objects around a value while it is checked; what
happens to it behind an invalid value is not read.
-/

namespace N8n

open List Relation

namespace JsonCompatible

variable {Address : Type}

inductive Value (Address : Type) where
  | null
  | undefined
  | boolean (value : Bool)
  | string (value : String)
  | number (value : Rat)
  /-- `NaN`, `Infinity` or `-Infinity`. -/
  | notFinite (text : String)
  | function
  | symbol
  | bigint
  | ref (address : Address)

inductive Cell (Address : Type) where
  | array (items : List (Value Address))
  /-- The string keys with their values, and then the symbol keys. -/
  | plain (fields : List (String × Value Address)) (symbols : List String)
  | nonPlain (constructorName : Option String)

structure Issue where
  errorPath : String
  errorMessage : String

/-- What is wrong with a value that is no object. -/
def primitiveIssue : Value Address → Option String
  | .notFinite text => some ("is " ++ text ++ ", which is not JSON-compatible")
  | .function => some "is a function, which is not JSON-compatible"
  | .symbol => some "is a symbol, which is not JSON-compatible"
  | .bigint => some "is a bigint, which is not JSON-compatible"
  | _ => none

/-- The values in an object, with what they add to its path. -/
def entries (keysToIgnore : List String) : Cell Address → List (String × Value Address)
  | .array items =>
    items.mapIdx fun index item => ("[" ++ toString index ++ "]", item)
  | .plain fields _ =>
    (fields.filter fun field => !keysToIgnore.contains field.1).map
      fun field => ("." ++ field.1, field.2)
  | .nonPlain _ => []

def symbols : Cell Address → List String
  | .plain _ symbols => symbols
  | _ => []

/-- The loops over items and keys. -/
def checkAll (check : Value Address → String → List Address →
      Option (Except Issue (List Address))) (path : String) :
    List (String × Value Address) → List Address → Option (Except Issue (List Address))
  | [], stack => some (.ok stack)
  | (step, value) :: rest, stack =>
    match check value (path ++ step) stack with
    | some (.ok stack) => checkAll check path rest stack
    | result => result

variable [DecidableEq Address] (cells : Address → Cell Address) (keysToIgnore : List String)

/-- The fuel bounds the depth. -/
def check : Nat → Value Address → String → List Address → Option (Except Issue (List Address))
  | 0, _, _, _ => none
  | fuel + 1, .ref address, path, stack =>
    if address ∈ stack then some (.error ⟨path, "contains a circular reference"⟩)
    else
      match cells address with
      | .nonPlain constructorName => some (.error ⟨path,
          "has non-plain prototype (" ++ constructorName.getD "unknown" ++ ")"⟩)
      | cell =>
        match checkAll (check fuel) path (entries keysToIgnore cell) (address :: stack) with
        | some (.ok stack) =>
          match symbols cell with
          | [] => some (.ok (stack.erase address))
          | key :: _ => some (.error ⟨path ++ ("." ++ key),
              "has a symbol key (" ++ key ++ "), which is not JSON-compatible"⟩)
        | result => result
  | _ + 1, value, path, stack =>
    match primitiveIssue value with
    | none => some (.ok stack)
    | some errorMessage => some (.error ⟨path, errorMessage⟩)

/-- `none` when the fuel is used up. -/
def isJsonCompatible (fuel : Nat) (value : Value Address) : Option (Except Issue Unit) :=
  (check cells keysToIgnore fuel value "value" []).map fun result => result.map fun _ => ()

omit [DecidableEq Address]

def Leads (value next : Value Address) : Prop :=
  ∃ address step, value = .ref address ∧ (step, next) ∈ entries keysToIgnore (cells address)

/-- A value that JSON has no text for, whatever is in it. -/
def Offends : Value Address → Prop
  | .ref address => symbols (cells address) ≠ [] ∨
      ∃ constructorName, cells address = .nonPlain constructorName
  | value => primitiveIssue value ≠ none

def Reaches : Value Address → Value Address → Prop :=
  ReflTransGen (Leads cells keysToIgnore)

def OnCycle (value : Value Address) : Prop :=
  TransGen (Leads cells keysToIgnore) value value

/-- No value that can be reached offends or is on a cycle. -/
def Compatible (value : Value Address) : Prop :=
  ∀ other, Reaches cells keysToIgnore value other →
    ¬ Offends cells other ∧ ¬ OnCycle cells keysToIgnore other

/-- The text leads to a value that offends, to one of the objects around it, or
to a symbol key. -/
inductive Finds : List Address → Value Address → String → Prop where
  | offends {stack : List Address} {value : Value Address}
      (offends : Offends cells value) : Finds stack value ""
  | circular {stack : List Address} {address : Address} (mem : address ∈ stack) :
      Finds stack (.ref address) ""
  | symbolKey {stack : List Address} {address : Address} {key : String}
      (mem : key ∈ symbols (cells address)) : Finds stack (.ref address) ("." ++ key)
  | step {stack : List Address} {address : Address} {step text : String}
      {value : Value Address} (mem : (step, value) ∈ entries keysToIgnore (cells address))
      (finds : Finds (address :: stack) value text) :
      Finds stack (.ref address) (step ++ text)

variable {cells keysToIgnore} {stack : List Address} {value next : Value Address}
  {address : Address} {text : String}

theorem not_compatible_of_finds (finds : Finds cells keysToIgnore stack value text) :
    (∃ other, Reaches cells keysToIgnore value other ∧
      (Offends cells other ∨ OnCycle cells keysToIgnore other)) ∨
    ∃ address ∈ stack, Reaches cells keysToIgnore value (.ref address) := by
  induction finds with
  | offends offends => exact .inl ⟨_, .refl, .inl offends⟩
  | circular mem => exact .inr ⟨_, mem, .refl⟩
  | symbolKey mem => exact .inl ⟨_, .refl, .inl (.inl (ne_nil_of_mem mem))⟩
  | step mem _ ih =>
    have leads : Leads cells keysToIgnore _ _ := ⟨_, _, rfl, mem⟩
    rcases ih with ⟨other, reaches, wrong⟩ | ⟨around, mem', reaches⟩
    · exact .inl ⟨other, .head leads reaches, wrong⟩
    · rcases mem_cons.mp mem' with rfl | mem'
      · exact .inl ⟨_, .refl, .inr (.head' leads reaches)⟩
      · exact .inr ⟨around, mem', .head leads reaches⟩

/-- A compatible value that does not lead back to the objects around it. -/
def Clean (cells : Address → Cell Address) (keysToIgnore : List String)
    (stack : List Address) (value : Value Address) : Prop :=
  Compatible cells keysToIgnore value ∧
    ∀ address ∈ stack, ¬ Reaches cells keysToIgnore value (.ref address)

theorem clean_ref (outside : address ∉ stack) (fine : ¬ Offends cells (.ref address))
    (inside : ∀ entry ∈ entries keysToIgnore (cells address),
      Clean cells keysToIgnore (address :: stack) entry.2) :
    Clean cells keysToIgnore stack (.ref address) := by
  have below {next : Value Address} (leads : Leads cells keysToIgnore (.ref address) next) :
      Clean cells keysToIgnore (address :: stack) next := by
    obtain ⟨_, step, ⟨⟩, mem⟩ := leads
    exact inside _ mem
  refine ⟨fun other reaches => ?_, fun around mem reaches => ?_⟩
  · rcases ReflTransGen.cases_head reaches with rfl | ⟨next, leads, rest⟩
    · refine ⟨fine, fun cycle => ?_⟩
      obtain ⟨next, leads, rest⟩ := TransGen.head'_iff.mp cycle
      exact (below leads).2 address mem_cons_self rest
    · exact (below leads).1 other rest
  · rcases ReflTransGen.cases_head reaches with same | ⟨next, leads, rest⟩
    · cases same
      exact outside mem
    · exact (below leads).2 around (mem_cons_of_mem _ mem) rest

theorem clean_primitive (primitive : ∀ address, value ≠ .ref address)
    (fine : ¬ Offends cells value) : Clean cells keysToIgnore stack value := by
  have only {other : Value Address} (reaches : Reaches cells keysToIgnore value other) :
      value = other := by
    rcases ReflTransGen.cases_head reaches with same | ⟨_, ⟨_, _, isRef, _⟩, _⟩
    · exact same
    · exact absurd isRef (primitive _)
  refine ⟨fun other reaches => only reaches ▸ ⟨fine, fun cycle => ?_⟩,
    fun address _ reaches => primitive address (only reaches)⟩
  obtain ⟨_, ⟨_, _, isRef, _⟩, _⟩ := TransGen.head'_iff.mp cycle
  exact primitive _ isRef

/-- What a check answers, with the stack as it was before it. -/
def Answers (cells : Address → Cell Address) (keysToIgnore : List String)
    (stack : List Address) (value : Value Address) (path : String)
    (answer : Option (Except Issue (List Address))) : Prop :=
  answer = some (.ok stack) ∧ Clean cells keysToIgnore stack value ∨
    ∃ text message, answer = some (.error ⟨path ++ text, message⟩) ∧
      Finds cells keysToIgnore stack value text

theorem Answers.fails {path message : String} {answer : Option (Except Issue (List Address))}
    (failed : answer = some (.error ⟨path, message⟩))
    (finds : Finds cells keysToIgnore stack value "") :
    Answers cells keysToIgnore stack value path answer :=
  .inr ⟨"", message, by rw [failed, String.append_empty], finds⟩

variable {path : String}

theorem checkAll_answers {check : Value Address → String → List Address →
      Option (Except Issue (List Address))}
    (answers : ∀ value path, Answers cells keysToIgnore stack value path
      (check value path stack)) (list : List (String × Value Address)) :
    checkAll check path list stack = some (.ok stack) ∧
      (∀ entry ∈ list, Clean cells keysToIgnore stack entry.2) ∨
    ∃ entry ∈ list, ∃ text message, checkAll check path list stack =
      some (.error ⟨path ++ (entry.1 ++ text), message⟩) ∧
        Finds cells keysToIgnore stack entry.2 text := by
  induction list with
  | nil => exact .inl ⟨rfl, by simp⟩
  | cons entry rest ih =>
    obtain ⟨step, value⟩ := entry
    rcases answers value (path ++ step) with ⟨valid, clean⟩ | ⟨text, message, failed, finds⟩
    · simp only [checkAll, valid]
      rcases ih with ⟨all, cleans⟩ | ⟨entry, mem, found⟩
      · exact .inl ⟨all, forall_mem_cons.mpr ⟨clean, cleans⟩⟩
      · exact .inr ⟨entry, mem_cons_of_mem _ mem, found⟩
    · refine .inr ⟨_, mem_cons_self, text, message, ?_, finds⟩
      simp only [checkAll, failed, String.append_assoc]

variable [DecidableEq Address] [Fintype Address]

omit [Fintype Address] in
theorem check_ref {fuel : Nat} (outside : address ∉ stack)
    (plain : ∀ constructorName, cells address ≠ .nonPlain constructorName) :
    check cells keysToIgnore (fuel + 1) (.ref address) path stack =
      match checkAll (check cells keysToIgnore fuel) path
          (entries keysToIgnore (cells address)) (address :: stack) with
      | some (.ok stack) =>
        match symbols (cells address) with
        | [] => some (.ok (stack.erase address))
        | key :: _ => some (.error ⟨path ++ ("." ++ key),
            "has a symbol key (" ++ key ++ "), which is not JSON-compatible"⟩)
      | result => result := by
  rw [check, if_neg outside]
  split
  next constructorName isNonPlain =>
    exact absurd isNonPlain (plain constructorName)
  · rfl

theorem check_answers {fuel : Nat} (nodup : stack.Nodup)
    (enough : Fintype.card Address < fuel + stack.length) :
    Answers cells keysToIgnore stack value path
      (check cells keysToIgnore fuel value path stack) := by
  induction fuel generalizing stack value path with
  | zero => exact absurd nodup.length_le_card (by omega)
  | succ fuel ih =>
    cases value with
    | null | undefined | boolean _ | string _ | number _ =>
      exact .inl ⟨rfl, clean_primitive (by simp) (by simp [Offends, primitiveIssue])⟩
    | notFinite _ | function | symbol | bigint =>
      exact .fails rfl (.offends (by simp [Offends, primitiveIssue]))
    | ref address =>
      by_cases mem : address ∈ stack
      · exact .fails (if_pos mem) (.circular mem)
      by_cases plain : ∃ constructorName, cells address = .nonPlain constructorName
      · obtain ⟨constructorName, isNonPlain⟩ := plain
        have failed : check cells keysToIgnore (fuel + 1) (.ref address) path stack =
            some (.error ⟨path, "has non-plain prototype (" ++
              constructorName.getD "unknown" ++ ")"⟩) := by
          rw [check, if_neg mem, isNonPlain]
        exact .fails failed (.offends (.inr ⟨constructorName, isNonPlain⟩))
      rw [check_ref mem (not_exists.mp plain)]
      -- what is in the object is checked with the object around it
      rcases checkAll_answers (fun value path => ih (nodup_cons.mpr ⟨mem, nodup⟩)
        (by simp only [length_cons]; omega)) (entries keysToIgnore (cells address))
        with ⟨all, cleans⟩ | ⟨entry, inside, text, message, failed, finds⟩
      · rw [all]
        cases keys : symbols (cells address) with
        | nil =>
          refine .inl ⟨by simp, clean_ref mem (fun offends => ?_) cleans⟩
          exact offends.elim (absurd keys) plain
        | cons key rest =>
          exact .inr ⟨"." ++ key, _, rfl, .symbolKey (by simp [keys])⟩
      · rw [failed]
        exact .inr ⟨entry.1 ++ text, message, rfl, .step inside finds⟩

/-- The check ends, accepts exactly the compatible values, and otherwise names a
path to what is wrong. -/
theorem isJsonCompatible_exact (value : Value Address) {fuel : Nat}
    (enough : Fintype.card Address < fuel) :
    ∃ result, isJsonCompatible cells keysToIgnore fuel value = some result ∧
      (result = .ok () ↔ Compatible cells keysToIgnore value) ∧
      ∀ issue, result = .error issue → ∃ text, issue.errorPath = "value" ++ text ∧
        Finds cells keysToIgnore [] value text := by
  have answers : Answers cells keysToIgnore [] value "value"
      (check cells keysToIgnore fuel value "value" []) :=
    check_answers nodup_nil (by simpa using enough)
  rcases answers with ⟨valid, clean⟩ | ⟨text, message, failed, finds⟩
  · refine ⟨.ok (), ?_, by simp [clean.1], fun issue failed => by cases failed⟩
    rw [isJsonCompatible, valid]
    rfl
  · refine ⟨.error ⟨"value" ++ text, message⟩, ?_, ?_, ?_⟩
    · rw [isJsonCompatible, failed]
      rfl
    · refine ⟨fun valid => (by cases valid), fun compatible => ?_⟩
      rcases not_compatible_of_finds finds with ⟨other, reaches, wrong⟩ | ⟨_, mem, _⟩
      · exact absurd wrong (not_or.mpr (compatible other reaches))
      · exact absurd mem (not_mem_nil)
    · rintro issue ⟨⟩
      exact ⟨text, rfl, finds⟩

/-- One object at two places is no cycle. -/
theorem isJsonCompatible_exact_shared :
    let cells : Fin 2 → Cell (Fin 2) := fun address =>
      if address = 0 then .plain [("a", .ref 1), ("b", .ref 1)] [] else .array [.null]
    ∃ result, isJsonCompatible cells [] 3 (.ref 0) = some result ∧
      (result = .ok () ↔ Compatible cells [] (.ref 0)) ∧
      ∀ issue, result = .error issue → ∃ text, issue.errorPath = "value" ++ text ∧
        Finds cells [] [] (.ref 0) text :=
  isJsonCompatible_exact _ (by decide)

end JsonCompatible

end N8n
