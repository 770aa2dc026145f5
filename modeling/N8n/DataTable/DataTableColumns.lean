import N8n.Library.Machine
import N8n.Library.Numbering
import N8n.Library.OrderedMap

/-!
# Columns of a data table

The columns of a table are numbered from zero.  Transactions insert, move and
delete columns by shifting all indexes from a threshold on; the column of a
move or a deletion is read before its transaction begins.
-/

namespace N8n

open Numbering

inductive DataTableColumnType where
  | string
  | number
  | boolean
  | date
deriving DecidableEq

structure DataTableColumn where
  name : String
  type : DataTableColumnType
  index : ℚ

/-- What a request for a new column holds.  Any number is accepted as its
index. -/
structure DataTableCreateColumnSchema where
  name : String
  type : DataTableColumnType
  index : Option ℚ := none

inductive DataTableError where
  | systemColumnNameConflict (name : String)
  | testingColumnNameConflict (name : String)
  | columnNameConflict (name : String)
  | validation (message : String)
  | duplicateColumn (name : String)
  | noSuchColumn (name : String)

/-- The columns of a table by their ids, and the columns that the table of its
rows really has. -/
structure DataTableColumns where
  columns : OrderedMap Nat DataTableColumn := .empty
  nextId : Nat := 0
  ddlColumns : List String := []

inductive ColumnChange where
  | move (targetIndex : Nat)
  | delete
  | rename (newName : String)

inductive ColumnRequest where
  | addColumn (schema : DataTableCreateColumnSchema)
  | changeColumn (columnId : Nat) (change : ColumnChange)

/-- What a request awaits: that its column is read, or its transaction. -/
inductive ColumnPhase where
  | addsColumn (schema : DataTableCreateColumnSchema)
  | findsColumn (columnId : Nat) (change : ColumnChange)
  | movesColumn (columnId : Nat) (column : DataTableColumn) (targetIndex : Nat)
  | deletesColumn (columnId : Nat) (column : DataTableColumn)
  | renamesColumn (columnId : Nat) (column : DataTableColumn) (newName : String)

structure DataTable where
  stored : DataTableColumns := {}
  calls : OrderedMap Nat ColumnPhase := .empty
  nextCall : Nat := 0

/-- A call that `fails` ends with the transaction it awaits, which is rolled
back. -/
inductive ColumnEvent where
  | request (request : ColumnRequest)
  | answers (call : Nat)
  | fails (call : Nat)

def DATA_TABLE_SYSTEM_COLUMNS : List String := ["id", "createdAt", "updatedAt"]

def DATA_TABLE_SYSTEM_TESTING_COLUMN : String := "dryRunState"

def validateNotSystemColumn (columnName : String) : Except DataTableError Unit := do
  if columnName ∈ DATA_TABLE_SYSTEM_COLUMNS then
    throw (.systemColumnNameConflict columnName)
  if columnName = DATA_TABLE_SYSTEM_TESTING_COLUMN then
    throw (.testingColumnNameConflict columnName)

namespace DataTableColumns

def createDataTable (columns : List (String × DataTableColumnType)) : DataTableColumns :=
  { columns := {
      entries := columns.zipIdx.map fun ((name, type), index) =>
        (index, { name, type, index })
      nodup := by
        rw [List.map_map]
        exact (List.zipIdx_map_snd 0 columns).symm ▸ List.nodup_range' }
    nextId := columns.length
    ddlColumns := columns.map Prod.fst }

variable (table : DataTableColumns) (columnName : String)

def validateUniqueColumnName : Except DataTableError Unit := do
  if table.columns.values.any fun column => column.name = columnName then
    throw (.columnNameConflict columnName)

def addDdlColumn : Except DataTableError (List String) :=
  if columnName ∈ table.ddlColumns then .error (.duplicateColumn columnName)
  else .ok (table.ddlColumns ++ [columnName])

def dropColumnFromTable : Except DataTableError (List String) :=
  if columnName ∈ table.ddlColumns then
    .ok (table.ddlColumns.erase columnName)
  else .error (.noSuchColumn columnName)

def renameDdlColumn (oldName newName : String) : Except DataTableError (List String) :=
  if oldName ∉ table.ddlColumns then .error (.noSuchColumn oldName)
  else if newName ∈ table.ddlColumns then .error (.duplicateColumn newName)
  else .ok (table.ddlColumns.map fun name =>
    if name = oldName then newName else name)

variable (columns : OrderedMap Nat DataTableColumn)

def shiftColumns (lowestIndex delta : ℚ) : OrderedMap Nat DataTableColumn :=
  columns.mapValues fun column =>
    if lowestIndex ≤ column.index then
      { column with index := column.index + delta }
    else column

variable (schema : DataTableCreateColumnSchema)

/-- The index a new column gets, and the other columns. -/
def makeRoom : ℚ × OrderedMap Nat DataTableColumn :=
  match schema.index with
  | none => (table.columns.size, table.columns)
  | some index => (index, shiftColumns table.columns index 1)

def addColumn : Except DataTableError DataTableColumns := do
  validateNotSystemColumn schema.name
  table.validateUniqueColumnName schema.name
  let (index, columns) := table.makeRoom schema
  let ddlColumns ← table.addDdlColumn schema.name
  return {
    columns := columns.set table.nextId { name := schema.name, type := schema.type, index }
    nextId := table.nextId + 1
    ddlColumns }

variable (columnId : Nat) (column : DataTableColumn)

def deleteColumn : Except DataTableError DataTableColumns := do
  let columns := table.columns.delete columnId
  let ddlColumns ← table.dropColumnFromTable column.name
  return { table with
    columns := shiftColumns columns column.index (-1), ddlColumns }

/-- An update of a row that is gone changes nothing. -/
def updateColumn (change : DataTableColumn → DataTableColumn) : OrderedMap Nat DataTableColumn :=
  match columns.get? columnId with
  | none => columns
  | some column => columns.set columnId (change column)

def moveColumn (targetIndex : ℤ) : Except DataTableError DataTableColumns := do
  if targetIndex < 0 then
    throw (.validation "tried to move column to negative index")
  if targetIndex ≥ table.columns.size then
    throw (.validation "tried to move column to an index larger than column count")
  let columns := shiftColumns table.columns column.index (-1)
  let columns := shiftColumns columns targetIndex 1
  return { table with
    columns := updateColumn columns columnId fun moved =>
      { moved with index := targetIndex } }

def renameColumn (newName : String) : Except DataTableError DataTableColumns := do
  validateNotSystemColumn newName
  table.validateUniqueColumnName newName
  let columns := updateColumn table.columns columnId fun renamed =>
    { renamed with name := newName }
  let ddlColumns ← table.renameDdlColumn column.name newName
  return { table with columns, ddlColumns }

end DataTableColumns

def ColumnRequest.firstPhase : ColumnRequest → ColumnPhase
  | .addColumn schema => .addsColumn schema
  | .changeColumn columnId change => .findsColumn columnId change

def ColumnChange.phase (columnId : Nat) (column : DataTableColumn) : ColumnChange → ColumnPhase
  | .move targetIndex => .movesColumn columnId column targetIndex
  | .delete => .deletesColumn columnId column
  | .rename newName => .renamesColumn columnId column newName

namespace DataTable

section

variable (table : DataTable) (id : Nat)

def setPhase (phase : ColumnPhase) : DataTable :=
  { table with calls := table.calls.set id phase }

def endCall : DataTable :=
  { table with calls := table.calls.delete id }

/-- The transaction of a call is committed or rolled back. -/
def finish : Except DataTableError DataTableColumns → DataTable
  | .error _ => table.endCall id
  | .ok stored => { table.endCall id with stored }

def validateColumnExists (id columnId : Nat) (change : ColumnChange) : DataTable :=
  match table.stored.columns.get? columnId with
  | none => table.endCall id
  | some column => table.setPhase id (change.phase columnId column)

def answer : ColumnPhase → DataTable
  | .addsColumn schema => table.finish id (table.stored.addColumn schema)
  | .findsColumn columnId change =>
    table.validateColumnExists id columnId change
  | .movesColumn columnId column targetIndex =>
    table.finish id (table.stored.moveColumn columnId column targetIndex)
  | .deletesColumn columnId column =>
    table.finish id (table.stored.deleteColumn columnId column)
  | .renamesColumn columnId column newName =>
    table.finish id (table.stored.renameColumn columnId column newName)

end

def step : Machine DataTable ColumnEvent
  | table, .request request =>
    some { table.setPhase table.nextCall request.firstPhase with nextCall := table.nextCall + 1 }
  | table, .answers id =>
    (table.calls.get? id).map fun phase => table.answer id phase
  | table, .fails id => some (table.endCall id)

end DataTable

end N8n
