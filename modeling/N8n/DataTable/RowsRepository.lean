import N8n.DataTable.DataTableColumns
import N8n.Library.SqlCondition
import N8n.Library.Wildcards

/-!
# Rows of a data table

Filters and a search term become the conditions of a query, which are joined
one after the other without brackets.  How the database compares and prints
values is a parameter.
-/

namespace N8n

open Wildcard

/-- The pooled driver of SQLite and MariaDB are treated as SQLite and MySQL. -/
inductive DbType where
  | sqlite
  | mysql
  | postgres

inductive DataTableCell where
  | null
  | string (value : String)
  | number (value : ℚ)
  | boolean (value : Bool)
  | date (milliseconds : ℤ)
deriving DecidableEq

/-- The cells of a row by the names of their columns, those of the system
included. -/
abbrev DataTableRow := OrderedMap String DataTableCell

def DataTableRow.cell (row : DataTableRow) (columnName : String) : DataTableCell :=
  (row.get? columnName).getD .null

inductive FilterCondition where
  | eq
  | neq
  | like
  | ilike
  | gt
  | gte
  | lt
  | lte
deriving DecidableEq

structure DataTableFilterRecord where
  columnName : String
  condition : FilterCondition := .eq
  value : DataTableCell

inductive DataTableFilterType where
  | and
  | or

structure DataTableFilter where
  type : DataTableFilterType := .and
  filters : List DataTableFilterRecord := []

inductive SortDirection where
  | asc
  | desc

structure ListDataTableContentQueryDto where
  take : Option Nat := none
  skip : Option Nat := none
  filter : Option DataTableFilter := none
  sortBy : Option (String × SortDirection) := none
  search : Option String := none

/-- What the database does with values: how a stored one compares with a
parameter, what it is as a text, how letters are folded by `UPPER` or by
`ILIKE`, and how rows are sorted.  Folding does not touch the special
characters of a pattern. -/
structure Database where
  dbType : DbType
  compare : DataTableCell → DataTableCell → Ordering
  castText : DataTableCell → List Char
  fold : Char → Char
  fold_special : ∀ char, ∀ special ∈ ['%', '_', '\\'], fold char = special ↔ char = special
  order : Option (String × SortDirection) → DataTableRow → DataTableRow → Bool

def DataTableCell.text : DataTableCell → List Char
  | .string value => value.toList
  | _ => []

inductive SqlOperator where
  | equal
  | greater
  | greaterOrEqual
  | less
  | lessOrEqual

/-- A condition of a query.  The last two fold both sides, and the search is a
disjunction in brackets. -/
inductive SqlExpression where
  | isNull (columnName : String)
  | isNotNull (columnName : String)
  | compares (columnName : String) (operator : SqlOperator) (parameter : DataTableCell)
  | differsOrIsNull (columnName : String) (parameter : DataTableCell)
  | glob (columnName : String) (pattern : List Char)
  | like (columnName : String) (pattern : List Char)
  | foldedLike (columnName : String) (pattern : List Char)
  | searches (columnNames : List String) (pattern : List Char)

def SqlOperator.holds : SqlOperator → Ordering → Bool
  | .equal, ordering => ordering = .eq
  | .greater, ordering => ordering = .gt
  | .greaterOrEqual, ordering => ordering ≠ .lt
  | .less, ordering => ordering = .lt
  | .lessOrEqual, ordering => ordering ≠ .gt

namespace Database

def escapeCharacter : Char := '\\'

section

variable (db : Database)

/-- A comparison with `NULL` is unknown. -/
def evaluateCompares (operator : Ordering → Bool) (cell parameter : DataTableCell) : Truth :=
  if cell = .null ∨ parameter = .null then none
  else some (operator (db.compare cell parameter))

def evaluateMatch (pattern : List Wildcard) (text : DataTableCell → List Char)
    (cell : DataTableCell) : Truth :=
  if cell = .null then none else some (isMatch pattern (text cell))

def foldText (cell : DataTableCell) : List Char :=
  (db.castText cell).map db.fold

def evaluateFoldedLike (pattern : List Char) (cell : DataTableCell) : Truth :=
  evaluateMatch (likePattern escapeCharacter (pattern.map db.fold)) db.foldText cell

def evaluate (row : DataTableRow) : SqlExpression → Truth
  | .isNull columnName => some (row.cell columnName = .null)
  | .isNotNull columnName => some (row.cell columnName ≠ .null)
  | .compares columnName operator parameter =>
    db.evaluateCompares operator.holds (row.cell columnName) parameter
  | .differsOrIsNull columnName parameter =>
    (db.evaluateCompares (fun ordering => ordering ≠ .eq)
      (row.cell columnName) parameter).or (some (row.cell columnName = .null))
  | .glob columnName pattern =>
    evaluateMatch (globPattern .outside pattern) db.castText (row.cell columnName)
  | .like columnName pattern =>
    evaluateMatch (likePattern escapeCharacter pattern) db.castText (row.cell columnName)
  | .foldedLike columnName pattern =>
    db.evaluateFoldedLike pattern (row.cell columnName)
  | .searches columnNames pattern =>
    Truth.any (columnNames.map fun columnName =>
      db.evaluateFoldedLike pattern (row.cell columnName))

end

end Database

abbrev WhereClause := List (Connective × SqlExpression)

def escapeLikeSpecials (input : List Char) : List Char :=
  (input.flatMap fun char => if char = '\\' then ['\\', '\\'] else [char])
    |>.flatMap fun char => if char = '_' then ['\\', '_'] else [char]

def toSqliteGlobFromPercent (input : List Char) : List Char :=
  input.flatMap fun char =>
    if char = '%' then ['*']
    else if char = '[' then ['[', '[', ']']
    else if char = ']' then ['[', ']', ']']
    else if char = '*' then ['[', '*', ']']
    else if char = '?' then ['[', '?', ']']
    else [char]

variable (db : Database)

/-- The condition of a filter.  With `neq` a `NULL` is included. -/
def getConditionAndParams (filter : DataTableFilterRecord) : SqlExpression :=
  match filter.condition with
  | .eq =>
    if filter.value = .null then .isNull filter.columnName
    else .compares filter.columnName .equal filter.value
  | .neq =>
    if filter.value = .null then .isNotNull filter.columnName
    else .differsOrIsNull filter.columnName filter.value
  | .gt => .compares filter.columnName .greater filter.value
  | .gte => .compares filter.columnName .greaterOrEqual filter.value
  | .lt => .compares filter.columnName .less filter.value
  | .lte => .compares filter.columnName .lessOrEqual filter.value
  | .like =>
    match db.dbType with
    | .sqlite =>
      .glob filter.columnName (toSqliteGlobFromPercent filter.value.text)
    | .mysql | .postgres =>
      .like filter.columnName (escapeLikeSpecials filter.value.text)
  | .ilike => .foldedLike filter.columnName (escapeLikeSpecials filter.value.text)

/-- A single filter is always joined by `AND`. -/
def applyFilters (query : WhereClause) (filter : DataTableFilter) : WhereClause :=
  let conditions := filter.filters.map (getConditionAndParams db)
  match conditions with
  | [condition] => query ++ [(.and, condition)]
  | conditions =>
    query ++ conditions.map fun condition =>
      match filter.type with
      | .or => (.or, condition)
      | .and => (.and, condition)

/-- A term without a wildcard is searched anywhere in a text. -/
def searchTerm (rawSearch : List Char) : List Char :=
  if '%' ∈ rawSearch then rawSearch else '%' :: (rawSearch ++ ['%'])

def applySearch (query : WhereClause) (rawSearch : String)
    (columnNames : List String) : WhereClause :=
  if columnNames = [] then query
  else query ++ [(.and, .searches columnNames (escapeLikeSpecials (searchTerm rawSearch.toList)))]

/-- What `trim` removes. -/
def isTrimmed (char : Char) : Bool :=
  char.val ∈ ([9, 10, 11, 12, 13, 32, 160, 5760, 8232, 8233, 8239, 8287, 12288,
    65279] : List UInt32) || (8192 ≤ char.val && char.val ≤ 8202)

def isBlank (search : String) : Bool := search.toList.all isTrimmed

variable (dto : ListDataTableContentQueryDto)

def ListDataTableContentQueryDto.term? : Option String :=
  dto.search.filter fun search => !isBlank search

def whereOfQuery (columnNames : List String) : WhereClause :=
  let filtered := match dto.filter with
    | none => []
    | some filter => applyFilters db [] filter
  match dto.term? with
  | none => filtered
  | some search => applySearch filtered search columnNames

/-- The rows of which the conditions are true. -/
def Database.selects (query : WhereClause) (row : DataTableRow) : Bool :=
  JoinedCondition.evaluate (query.map fun (connective, expression) =>
      (connective, db.evaluate row expression)) = some true

structure ManyAndCount where
  count : Nat
  data : List DataTableRow

variable (rows : List DataTableRow)

/-- A page of the rows in their order.  No rows are taken off with `take` 0. -/
def applyPagination : List DataTableRow :=
  let skipped := (rows.mergeSort (db.order dto.sortBy)).drop (dto.skip.getD 0)
  match dto.take with
  | none | some 0 => skipped
  | some take => skipped.take take

def getManyAndCount (dto : ListDataTableContentQueryDto) (columnNames : List String) :
    ManyAndCount :=
  let selected := rows.filter (db.selects (whereOfQuery db dto columnNames))
  { count := selected.length
    data := applyPagination db dto selected }

/-- The columns that are set, the time of the update included. -/
def setCells (row : DataTableRow) (data : List (String × DataTableCell)) : DataTableRow :=
  data.foldl (fun row (columnName, value) => row.set columnName value) row

def updateRows (data : List (String × DataTableCell)) (filter : DataTableFilter) :
    List DataTableRow :=
  rows.map fun row =>
    if db.selects (applyFilters db [] filter) row then setCells row data
    else row

def deleteRows (filter : Option DataTableFilter) : List DataTableRow :=
  rows.filter fun row =>
    !db.selects (match filter with
      | none => []
      | some filter => applyFilters db [] filter) row

inductive DataTableFilterError where
  | unknownColumn (columnName : String)
  | invalidValue (columnName : String)
  | nullValue (condition : FilterCondition)
  | notString (condition : FilterCondition)

def DATA_TABLE_SYSTEM_COLUMN_TYPE_MAP : List (String × DataTableColumnType) :=
  [("id", .number), ("createdAt", .date), ("updatedAt", .date)]

variable (validateFieldType : DataTableColumnType → DataTableCell → Option DataTableCell)

variable (columns : List (String × DataTableColumnType))

section

variable (filter : DataTableFilterRecord)

/-- The values of filters are validated and changed to the types of their
columns.  `validateFieldType` gives the new value of a valid one. -/
def validateAndTransformValue : Except DataTableFilterError DataTableFilterRecord :=
  match (DATA_TABLE_SYSTEM_COLUMN_TYPE_MAP ++ columns).lookup filter.columnName with
  | none => .error (.unknownColumn filter.columnName)
  | some type =>
    if filter.value = .null then .ok filter
    else match validateFieldType type filter.value with
      | none => .error (.invalidValue filter.columnName)
      | some value => .ok { filter with value }

def checkFilterValue : Except DataTableFilterError DataTableFilterRecord :=
  match filter.condition with
  | .like | .ilike =>
    match filter.value with
    | .null => .error (.nullValue filter.condition)
    | .string value =>
      if '%' ∈ value.toList then .ok filter
      else .ok { filter with value := .string ("%" ++ value ++ "%") }
    | _ => .error (.notString filter.condition)
  | .gt | .gte | .lt | .lte =>
    if filter.value = .null then .error (.nullValue filter.condition)
    else .ok filter
  | .eq | .neq => .ok filter

end

variable (filter : DataTableFilter)

/-- What the filters say: their values have the types of their columns. -/
def transformFilters : Except DataTableFilterError DataTableFilter := do
  let filters ← filter.filters.mapM (validateAndTransformValue validateFieldType columns)
  return { filter with filters }

def checkFilters : Except DataTableFilterError DataTableFilter := do
  let filters ← filter.filters.mapM checkFilterValue
  return { filter with filters }

def validateAndTransformFilters : Except DataTableFilterError DataTableFilter := do
  checkFilters (← transformFilters validateFieldType columns filter)

def ListDataTableContentQueryDto.mapFilter (dto : ListDataTableContentQueryDto)
    (change : DataTableFilter → Except DataTableFilterError DataTableFilter) :
    Except DataTableFilterError ListDataTableContentQueryDto :=
  match dto.filter with
  | none => .ok dto
  | some filter =>
    (change filter).map fun filter => { dto with filter := some filter }

def getManyRowsAndCount (db : Database)
    (validateFieldType : DataTableColumnType → DataTableCell → Option DataTableCell)
    (columns : List (String × DataTableColumnType)) (rows : List DataTableRow)
    (dto : ListDataTableContentQueryDto) :
    Except DataTableFilterError ManyAndCount := do
  let transformedDto ← dto.mapFilter (validateAndTransformFilters validateFieldType columns)
  return getManyAndCount db rows transformedDto (columns.map Prod.fst)

end N8n
