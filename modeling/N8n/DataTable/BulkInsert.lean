import Mathlib.Algebra.Order.BigOperators.Group.List
import Mathlib.Algebra.Order.Floor.Div
import N8n.DataTable.RowsRepository
import N8n.Library.FoldExcept

/-!
# Bulk insertion of rows

Rows are inserted in batches, so that a query does not bind too many values.
Both the number of batches and the number of rows of a batch are rounded up, and
together the roundings can exceed the limit.
-/

namespace N8n

open List Nat

structure DateTexts where
  parse : String → Option ℤ
  toISOString : ℤ → String

inductive DateFormatError where
  | expectedDate (value : DataTableCell)
  | invalidDate (text : String)
deriving DecidableEq

/-- `replace` for the first occurrence only. -/
def replaceFirst (old : Char) (new : List Char) : List Char → List Char
  | [] => []
  | char :: rest =>
    if char = old then new ++ rest else char :: replaceFirst old new rest

namespace DateTexts

variable (dates : DateTexts) (dbType : DbType)

/-- SQLite and MySQL have a format without `T` and `Z`. -/
def databaseText (milliseconds : ℤ) : String :=
  match dbType with
  | .sqlite | .mysql => .ofList (replaceFirst 'Z' []
    (replaceFirst 'T' [' '] (dates.toISOString milliseconds).toList))
  | .postgres => dates.toISOString milliseconds

def formatDateForDatabase : DataTableCell → Except DateFormatError String
  | .date milliseconds => .ok (dates.databaseText dbType milliseconds)
  | .string text =>
    match dates.parse text with
    | some milliseconds => .ok (dates.databaseText dbType milliseconds)
    | none => .error (.invalidDate text)
  | value => .error (.expectedDate value)

def normalizeValueForDatabase (value : DataTableCell)
    (columnType : DataTableColumnType) : Except DateFormatError DataTableCell :=
  if columnType = .date ∧ value ≠ .null then
    (dates.formatDateForDatabase dbType value).map .string
  else .ok value

end DateTexts

namespace BulkInsert

/-- A query inserts a row as it is, or the values of whole rows. -/
inductive InsertQuery where
  | row (row : DataTableRow)
  | values (completeRows : List (List DataTableCell))
deriving DecidableEq

structure InsertedRows where
  queries : List InsertQuery
  insertedRows : Nat
deriving DecidableEq

def batchSize : Nat := 800

def batchCount (columns rows : Nat) : Nat := max 1 ((columns * rows) ⌈/⌉ batchSize)

section Loop

variable (complete : DataTableRow → Except DateFormatError (List DataTableCell))
  (rows : List DataTableRow) (rowsPerBatch : Nat)

/-- The batches that are left from the `index`-th on. -/
def insertBatches : (left index : Nat) → Except DateFormatError (List (List (List DataTableCell)))
  | 0, _ => .ok []
  | left + 1, index =>
    let start := index * rowsPerBatch
    let endExclusive := min rows.length ((index + 1) * rowsPerBatch)
    if endExclusive ≤ start then .ok []
    else do
      let completeRows ← ((rows.take endExclusive).drop start).mapM complete
      return completeRows :: (← insertBatches left (index + 1))

end Loop

/-- A missing value is filled with `null`. -/
def completeRow (dates : DateTexts) (dbType : DbType)
    (columns : List (String × DataTableColumnType)) (row : DataTableRow) :
    Except DateFormatError (List DataTableCell) :=
  columns.mapM fun (name, type) =>
    dates.normalizeValueForDatabase dbType (row.cell name) type

def insertRowsBulk (dates : DateTexts) (dbType : DbType)
    (rows : List DataTableRow) (columns : List (String × DataTableColumnType)) :
    Except DateFormatError InsertedRows :=
  if columns = [] then .ok ⟨rows.map .row, rows.length⟩
  else do
    let batches := batchCount columns.length rows.length
    let inserted ← insertBatches (completeRow dates dbType columns) rows
      (rows.length ⌈/⌉ batches) batches 0
    return ⟨inserted.map .values, (inserted.map List.length).sum⟩

/-- The batches hold all rows in their order, and a query binds at most
`batchSize` values, or those of one row. -/
structure Partitions (columns : Nat) (completeRows : List (List DataTableCell))
    (inserted : InsertedRows) (batches : List (List (List DataTableCell))) : Prop where
  queries : inserted.queries = batches.map .values
  nonempty : ∀ batch ∈ batches, batch ≠ []
  inOrder : batches.flatten = completeRows
  counted : inserted.insertedRows = completeRows.length
  bounded : ∀ batch ∈ batches, batch.flatten.length ≤ max batchSize columns

variable {complete : DataTableRow → Except DateFormatError (List DataTableCell)}
  {rows : List DataTableRow} {rowsPerBatch : Nat}

theorem insertBatches_ok {left index : Nat} {completeRows : List (List DataTableCell)}
    (completed : (rows.drop (index * rowsPerBatch)).mapM complete = .ok completeRows)
    (enough : rows.length ≤ (index + left) * rowsPerBatch) :
    ∃ batches, insertBatches complete rows rowsPerBatch left index = .ok batches ∧
      batches.flatten = completeRows ∧ batches.length ≤ left ∧
      ∀ batch ∈ batches, batch ≠ [] ∧ batch.length ≤ rowsPerBatch := by
  induction left generalizing index completeRows with
  | zero =>
    rw [add_zero] at enough
    rw [drop_of_length_le enough] at completed
    cases completed
    exact ⟨[], rfl, rfl, le_rfl, by simp⟩
  | succ left ih =>
    have next : (index + 1) * rowsPerBatch = index * rowsPerBatch + rowsPerBatch :=
      succ_mul index rowsPerBatch
    rw [insertBatches]
    split
    next done =>
      have all : rows.length ≤ index * rowsPerBatch := by
        rcases Nat.eq_zero_or_pos rowsPerBatch with rfl | positive
        · simpa using enough
        · omega
      rw [drop_of_length_le all] at completed
      cases completed
      exact ⟨[], rfl, rfl, zero_le _, by simp⟩
    next more =>
      have batch : (rows.take (min rows.length ((index + 1) * rowsPerBatch))).drop
          (index * rowsPerBatch) = (rows.drop (index * rowsPerBatch)).take rowsPerBatch := by
        rw [drop_take, take_eq_take_iff, length_drop]
        omega
      rw [← take_append_drop rowsPerBatch (rows.drop (index * rowsPerBatch)),
        drop_drop, ← next, mapM_append, Except.bind_eq_ok_iff] at completed
      obtain ⟨first, isFirst, completed⟩ := completed
      obtain ⟨rest, isRest, completed⟩ := Except.bind_eq_ok_iff.mp completed
      cases completed
      obtain ⟨batches, inserted, joined, few, bounded⟩ := ih isRest (by
        rwa [add_right_comm, add_assoc])
      have size := (mapM_eq_ok_iff.mp isFirst).length_eq
      rw [length_take, length_drop] at size
      refine ⟨first :: batches, ?_, by rw [flatten_cons, joined], succ_le_succ few, ?_⟩
      · rw [batch, isFirst, inserted]
        rfl
      · rw [forall_mem_cons]
        refine ⟨⟨?_, by omega⟩, bounded⟩
        rintro rfl
        rw [length_nil] at size
        omega

theorem length_flatten_eq {columns : Nat} {batch : List (List DataTableCell)}
    (whole : ∀ row ∈ batch, row.length = columns) :
    batch.flatten.length = batch.length * columns := by
  induction batch with
  | nil => simp
  | cons row batch ih =>
    rw [forall_mem_cons] at whole
    rw [flatten_cons, length_append, ih whole.2, whole.1, length_cons, succ_mul, add_comm]

theorem mul_le_max_iff {columns : Nat} (positive : 0 < columns) (size : Nat) :
    size * columns ≤ max batchSize columns ↔ size ≤ max 1 (batchSize / columns) := by
  rw [le_max_iff, le_max_iff, le_div_iff_mul_le positive, or_comm]
  exact or_congr_left ⟨fun le => le_of_mul_le_mul_right (by simpa using le) positive,
    fun le => by simpa using mul_le_mul_right columns le⟩

/-- The values that a query binds stay within the limit exactly if the batches
can hold the rows, where a batch is filled with as many whole rows as the limit
allows. -/
theorem insertRowsBulk_partitions_iff (dates : DateTexts) (dbType : DbType)
    {columns : List (String × DataTableColumnType)} (someColumn : columns ≠ [])
    {completeRows : List (List DataTableCell)}
    (completed : rows.mapM (completeRow dates dbType columns) = .ok completeRows) :
    (∃ inserted batches, insertRowsBulk dates dbType rows columns = .ok inserted ∧
      Partitions columns.length completeRows inserted batches) ↔
      rows.length ≤ max 1 ((columns.length * rows.length) ⌈/⌉ batchSize) *
        max 1 (batchSize / columns.length) := by
  have whole := ((forall₂_and_left _ _).mp ((mapM_eq_ok_iff.mp completed).flip.imp fun _ _ isRow =>
      ⟨(mapM_eq_ok_iff.mp isRow).length_eq.symm, isRow⟩)).1
  have count := (mapM_eq_ok_iff.mp completed).length_eq
  have positive : 0 < columns.length := length_pos_of_ne_nil someColumn
  have some : 0 < batchCount columns.length rows.length := by simp [batchCount]
  have enough : rows.length ≤ (0 + batchCount columns.length rows.length) *
      (rows.length ⌈/⌉ batchCount columns.length rows.length) := by
    rw [zero_add]
    exact le_smul_ceilDiv some
  obtain ⟨batches, inserted, joined, few, bounded⟩ :=
    insertBatches_ok (by simpa using completed) enough
  have isInserted : insertRowsBulk dates dbType rows columns =
      .ok ⟨batches.map .values, (batches.map List.length).sum⟩ := by
    rw [insertRowsBulk, if_neg someColumn]
    simp only [inserted]
    rfl
  have size {batch} (mem : batch ∈ batches) :
      batch.flatten.length = batch.length * columns.length :=
    length_flatten_eq fun row inBatch => whole row (joined ▸ mem_flatten_of_mem mem inBatch)
  constructor
  · rintro ⟨_, others, isOther, partitions⟩
    cases isInserted.symm.trans isOther
    obtain rfl := map_injective_iff.mpr (fun _ _ => InsertQuery.values.inj) partitions.queries
    have small : ∀ length ∈ batches.map List.length,
        length ≤ max 1 (batchSize / columns.length) := by
      rw [forall_mem_map]
      intro batch mem
      rw [← mul_le_max_iff positive, ← size mem]
      exact partitions.bounded batch mem
    calc rows.length = (batches.map List.length).sum := by
          rw [count, ← joined, length_flatten]
      _ ≤ batches.length * max 1 (batchSize / columns.length) := by
          simpa using sum_le_card_nsmul _ _ small
      _ ≤ _ := mul_le_mul_right _ few
  · intro fits
    have perBatch := (ceilDiv_le_iff_le_mul some).mpr fits
    refine ⟨_, batches, isInserted, ?_⟩
    exact
      { queries := rfl
        nonempty := fun batch mem => (bounded batch mem).1
        inOrder := joined
        counted := by rw [← joined, length_flatten]
        bounded := by
          intro batch mem
          rw [size mem, mul_le_max_iff positive]
          exact (bounded batch mem).2.trans perBatch }

section Example

def exampleDates : DateTexts where
  parse _ := none
  toISOString _ := ""

/-- Columns with the names "a", "aa" and so on. -/
def exampleColumns (count : Nat) : List (String × DataTableColumnType) :=
  (List.range count).map fun index =>
    (.ofList (List.replicate (index + 1) 'a'), .string)

def nullRows (rows columns : Nat) : List (List DataTableCell) :=
  .replicate rows (.replicate columns .null)

theorem insertRowsBulk_partitions_twoRows : exampleColumns 2 ≠ [] ∧ (∃ inserted batches,
      insertRowsBulk exampleDates .sqlite (.replicate 2 .empty) (exampleColumns 2) = .ok inserted ∧
        Partitions 2 (nullRows 2 2) inserted batches) :=
  have someColumn : exampleColumns 2 ≠ [] := by decide
  have completed : List.mapM (completeRow exampleDates .sqlite (exampleColumns 2))
      (.replicate 2 .empty) = .ok (nullRows 2 2) := rfl
  ⟨someColumn, (insertRowsBulk_partitions_iff exampleDates .sqlite someColumn completed).mpr
    (by decide)⟩

/-- Of three rows with 401 columns two are inserted together. -/
theorem not_partitions_threeRows : ¬ ∃ inserted batches,
      insertRowsBulk exampleDates .sqlite (.replicate 3 .empty) (exampleColumns 401) =
          .ok inserted ∧
        Partitions 401 (nullRows 3 401) inserted batches := by
  have isInserted : insertRowsBulk exampleDates .sqlite (.replicate 3 .empty)
      (exampleColumns 401) = .ok ⟨[.values (nullRows 2 401), .values (nullRows 1 401)], 3⟩ := by
    decide +kernel
  rintro ⟨inserted, batches, isOther, partitions⟩
  cases isInserted.symm.trans isOther
  obtain rfl : [nullRows 2 401, nullRows 1 401] = batches :=
    map_injective_iff.mpr (fun _ _ => InsertQuery.values.inj) partitions.queries
  have bounded := partitions.bounded (nullRows 2 401) mem_cons_self
  revert bounded
  decide +kernel

end Example

end BulkInsert

end N8n
