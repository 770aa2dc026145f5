import Mathlib.Data.List.Basic

/-!
# Comma-separated values

A reader of records that are separated by line feeds.  A field can be in quotes,
in which a quote is doubled.  Fields that are read back one by one are read back
from a whole text.
-/

namespace Csv

inductive Reading where
  | start
  | plain
  | quoted
  | closed
deriving DecidableEq

/-- The records and fields that are read, and the field that is being read. -/
structure State where
  records : List (List String) := []
  fields : List String := []
  field : List Char := []
  reading : Reading := .start

namespace State

variable (state : State)

def record : List String :=
  state.fields ++ [.ofList state.field]

def add (char : Char) (reading : Reading) : State :=
  { state with field := state.field ++ [char], reading }

/-- A quote in a field without quotes and a character behind a closing quote are
not allowed. -/
def step (char : Char) : Option State :=
  match state.reading with
  | .quoted =>
    if char = '"' then some { state with reading := .closed }
    else some (state.add char .quoted)
  | reading =>
    if char = ',' then some { records := state.records, fields := state.record }
    else if char = '\n' then some { records := state.records ++ [state.record] }
    else match reading with
      | .start =>
        if char = '"' then some { state with reading := .quoted }
        else if char = '\r' then none
        else some (state.add char .plain)
      | .closed => if char = '"' then some (state.add char .quoted) else none
      | _ =>
        if char = '"' ∨ char = '\r' then none else some (state.add char .plain)

def finish : Option (List (List String)) :=
  if state.reading = .quoted then none else some (state.records ++ [state.record])

end State

/-- The records of a text, if it is well formed. -/
def parse (text : String) : Option (List (List String)) :=
  (text.toList.foldlM State.step {}).bind State.finish

/-- From the start of a field on, the text is read as this field. -/
def Reads (text field : String) : Prop :=
  ∀ records fields, ∃ reading, reading ≠ .quoted ∧
    text.toList.foldlM State.step { records, fields } =
      some { records, fields, field := field.toList, reading }

theorem reads_plain {text : String} (plain : ∀ char ∈ text.toList, char ∉ [',', '"', '\n', '\r']) :
    Reads text text := by
  intro records fields
  have general : ∀ (chars field : List Char) (reading : Reading),
      (∀ char ∈ chars, char ∉ [',', '"', '\n', '\r']) →
      reading = .start ∨ reading = .plain →
      ∃ last, last ≠ .quoted ∧ chars.foldlM State.step { records, fields, field, reading } =
          some { records, fields, field := field ++ chars, reading := last } := by
    intro chars
    induction chars with
    | nil =>
      intro field reading _ notQuoted
      refine ⟨reading, ?_, by simp⟩
      rcases notQuoted with rfl | rfl <;> simp
    | cons char chars ih =>
      intro field reading plain notQuoted
      rw [List.forall_mem_cons] at plain
      have allowed := plain.1
      simp only [List.mem_cons, List.not_mem_nil, or_false, not_or] at allowed
      obtain ⟨notComma, notQuote, notFeed, notReturn⟩ := allowed
      obtain ⟨last, isLast, read⟩ := ih (field ++ [char]) .plain plain.2 (.inr rfl)
      refine ⟨last, isLast, ?_⟩
      rw [List.foldlM_cons]
      rcases notQuoted with rfl | rfl <;>
        simpa [State.step, State.add, notComma, notQuote, notFeed, notReturn] using read
  exact general text.toList [] .start plain (.inl rfl)

def doubleQuotes (chars : List Char) : List Char :=
  chars.flatMap fun char => if char = '"' then ['"', '"'] else [char]

theorem reads_quoted (field : String) :
    Reads (.ofList ('"' :: doubleQuotes field.toList ++ ['"'])) field := by
  intro records fields
  have general : ∀ chars start : List Char, (doubleQuotes chars).foldlM State.step
          { records, fields, field := start, reading := .quoted } =
        some { records, fields, field := start ++ chars, reading := .quoted } := by
    intro chars
    induction chars with
    | nil => simp [doubleQuotes]
    | cons char chars ih =>
      intro start
      have later := ih (start ++ [char])
      rw [doubleQuotes] at later
      rw [doubleQuotes, List.flatMap_cons, List.foldlM_append]
      split
      next isQuote => simpa [isQuote, State.step, State.add] using later
      next notQuote => simpa [notQuote, State.step, State.add] using later
  refine ⟨.closed, by simp, ?_⟩
  have read := general field.toList []
  simp [State.step, List.foldlM_append, read]

section Records

variable {encode : String → String}

theorem foldlM_fields (reads : ∀ field, Reads (encode field) field)
    (records : List (List String)) (first : String) (later fields : List String) :
    ∃ state, (",".intercalate ((first :: later).map encode)).toList.foldlM State.step
        { records, fields } = some state ∧ state.reading ≠ .quoted ∧
      state.records = records ∧ state.record = fields ++ first :: later := by
  obtain ⟨reading, notQuoted, read⟩ := reads first records fields
  induction later generalizing first fields reading with
  | nil => exact ⟨_, by simpa using read, notQuoted, rfl, by simp [State.record]⟩
  | cons second later ih =>
    obtain ⟨next, nextNotQuoted, nextRead⟩ := reads second records (fields ++ [first])
    obtain ⟨state, isRead, rest⟩ := ih second (fields ++ [first]) next nextNotQuoted nextRead
    refine ⟨state, ?_, by simpa using rest⟩
    rw [List.map_cons, String.intercalate_cons_of_ne_nil (by simp), String.toList_append,
      String.toList_append, List.foldlM_append, List.foldlM_append, read, ← isRead]
    cases reading <;> first | exact absurd rfl notQuoted | simp [State.step, State.record]

theorem foldlM_records (reads : ∀ field, Reads (encode field) field)
    (first : List String) (later records : List (List String))
    (someField : ∀ record ∈ first :: later, record ≠ []) :
    ∃ state, ("\n".intercalate ((first :: later).map fun record =>
        ",".intercalate (record.map encode))).toList.foldlM State.step { records } =
          some state ∧ state.finish = some (records ++ first :: later) := by
  rw [List.forall_mem_cons] at someField
  obtain ⟨field, fields, rfl⟩ := List.exists_cons_of_ne_nil someField.1
  obtain ⟨state, read, notQuoted, same, record⟩ := foldlM_fields reads records field fields []
  induction later generalizing field fields records state with
  | nil =>
    refine ⟨state, by simpa using read, ?_⟩
    rw [State.finish, if_neg notQuoted, same, record]
    rfl
  | cons second later ih =>
    rw [List.forall_mem_cons] at someField
    obtain ⟨next, nexts, rfl⟩ := List.exists_cons_of_ne_nil someField.2.1
    obtain ⟨middle, middleRead, middleNotQuoted, middleSame, middleRecord⟩ :=
      foldlM_fields reads (records ++ [field :: fields]) next nexts []
    obtain ⟨last, rest, finished⟩ := ih _ next nexts someField.2 middle middleRead
      middleNotQuoted middleSame middleRecord
    refine ⟨last, ?_, by simpa using finished⟩
    rw [List.map_cons, String.intercalate_cons_of_ne_nil (by simp), String.toList_append,
      String.toList_append, List.foldlM_append, List.foldlM_append, read, ← rest]
    obtain ⟨_, _, _, reading⟩ := state
    cases reading <;> first | exact absurd rfl notQuoted | simp_all [State.step, State.record]

/-- The text of encoded records is read as these records. -/
theorem parse_records (reads : ∀ field, Reads (encode field) field)
    (first : List String) (later : List (List String))
    (someField : ∀ record ∈ first :: later, record ≠ []) :
    parse ("\n".intercalate ((first :: later).map fun record =>
      ",".intercalate (record.map encode))) = some (first :: later) := by
  obtain ⟨state, read, finished⟩ := foldlM_records reads first later [] someField
  rw [parse, read]
  exact finished

end Records

end Csv
