import N8n.DataTable.BulkInsert
import N8n.Library.Csv

/-!
# Export of a data table

The rows of a table as comma-separated values.  Whether a value is put in quotes
is decided value by value.
-/

namespace N8n

open List

/-- What values are as texts. -/
structure CsvTexts extends DateTexts where
  numberToString : ℚ → String
  dateToString : ℤ → String

namespace CsvTexts

variable (texts : CsvTexts)

/-- `String(value)` -/
def text : DataTableCell → String
  | .null => "null"
  | .string value => value
  | .number value => texts.numberToString value
  | .boolean value => if value then "true" else "false"
  | .date milliseconds => texts.dateToString milliseconds

def formatDateForCsv : DataTableCell → String
  | .date milliseconds => texts.toISOString milliseconds
  | .string date => ((texts.parse date).map texts.toISOString).getD date
  -- the types exclude other values
  | date => texts.text date

def formatValueForCsv (value : DataTableCell) (columnType : DataTableColumnType) : String :=
  match value with
  | .null => ""
  | .date _ | .string _ =>
    if columnType = .date then texts.formatDateForCsv value else texts.text value
  | value => texts.text value

end CsvTexts

/-- Spaces at the ends are put in quotes too, lest they are trimmed. -/
def escapeCsvValue (str : String) : String :=
  let chars := str.toList
  if ',' ∈ chars ∨ '"' ∈ chars ∨ '\n' ∈ chars ∨ '\r' ∈ chars ∨
      chars.head? = some ' ' ∨ chars.getLast? = some ' ' then
    .ofList ('"' :: Csv.doubleQuotes chars ++ ['"'])
  else str

variable (columns : List DataTableColumn)

def sortedColumns : List DataTableColumn :=
  columns.mergeSort fun first second => first.index ≤ second.index

def csvHeaders : List String :=
  "id" :: (sortedColumns columns).map (·.name) ++ ["createdAt", "updatedAt"]

section

variable (texts : CsvTexts)

def csvValues (columns : List DataTableColumn) (row : DataTableRow) : List String :=
  texts.text (row.cell "id") :: (sortedColumns columns).map (fun column =>
      texts.formatValueForCsv (row.cell column.name) column.type) ++
    [texts.formatDateForCsv (row.cell "createdAt"), texts.formatDateForCsv (row.cell "updatedAt")]

variable (rows : List DataTableRow)

section

variable (columns : List DataTableColumn)

def buildCsvContent : String :=
  "\n".intercalate ((csvHeaders columns :: rows.map (csvValues texts columns)).map
    fun values => ",".intercalate (values.map escapeCsvValue))

theorem reads_escapeCsvValue (str : String) : Csv.Reads (escapeCsvValue str) str := by
  rw [escapeCsvValue]
  split
  · exact Csv.reads_quoted str
  next safe =>
    apply Csv.reads_plain
    intro char mem special
    simp only [not_or] at safe
    simp only [mem_cons, not_mem_nil, or_false] at special
    rcases special with rfl | rfl | rfl | rfl
    · exact safe.1 mem
    · exact safe.2.1 mem
    · exact safe.2.2.1 mem
    · exact safe.2.2.2.1 mem

end

end

end N8n
