import N8n.DataTable.RowsRepository
import N8n.Insights.InsightsCollectionService

/-!
# Insights by period

Raw insights are compacted into hours, these into days and these into weeks.  A
batch is aggregated into the rows of the longer periods, and its rows are
deleted.  Timestamps are milliseconds in the time zone of the database.
-/

namespace N8n

open OrderedMap

inductive PeriodUnit where
  | hour
  | day
  | week
deriving DecidableEq

def millisecondsPerHour : ℤ := 3600000

def millisecondsPerDay : ℤ := 86400000

/-- The day of the week of a day since 1970-01-01, where Sunday is 0. -/
def weekday (day : ℤ) : ℤ := (day + 4) % 7

/-- SQLite goes back six days and on to the next Monday, the others subtract
the days since Monday. -/
def mondayOf (dbType : DbType) (day : ℤ) : ℤ :=
  match dbType with
  | .sqlite => day - 6 + (1 - weekday (day - 6)) % 7
  | .mysql | .postgres => day - (weekday day - 1) % 7

def getPeriodStartExpr (dbType : DbType) (unit : PeriodUnit) (time : ℤ) : ℤ :=
  match unit with
  | .hour => time - time % millisecondsPerHour
  | .day => time - time % millisecondsPerDay
  | .week => mondayOf dbType (time / millisecondsPerDay) * millisecondsPerDay

structure InsightsRaw where
  metaId : Nat
  type : InsightType
  value : ℤ
  timestamp : ℤ
deriving DecidableEq

structure InsightsRawTable where
  rows : OrderedMap Nat InsightsRaw := .empty
  nextId : Nat := 0
  fresh : ∀ id row, rows.get? id = some row → id < nextId := by simp

/-- What the unique index is made of. -/
structure InsightsPeriod where
  metaId : Nat
  type : InsightType
  periodUnit : PeriodUnit
  periodStart : ℤ
deriving DecidableEq

structure InsightsByPeriod where
  id : Nat
  value : ℤ

structure InsightsByPeriodTable where
  rows : OrderedMap InsightsPeriod InsightsByPeriod := .empty
  nextId : Nat := 0
  fresh : ∀ period row, rows.get? period = some row → row.id < nextId := by simp
  unique : ∀ period other row otherRow, rows.get? period = some row →
    rows.get? other = some otherRow → row.id = otherRow.id →
    period = other := by simp

structure InsightsTables where
  raw : InsightsRawTable := {}
  byPeriod : InsightsByPeriodTable := {}

structure InsightsConfig where
  compactionBatchSize : Nat := 500
  compactionHourlyToDailyThresholdDays : Nat := 90
  compactionDailyToWeeklyThresholdDays : Nat := 180

/-- What the batch queries select of both tables. -/
structure InsightsBatchRow where
  id : Nat
  metaId : Nat
  type : InsightType
  value : ℤ
  periodStart : ℤ
deriving DecidableEq

structure InsightsBatch where
  rows : List InsightsBatchRow
  nodup : (rows.map (·.id)).Nodup
deriving DecidableEq

inductive CompactionStage where
  | rawToHour
  | hourToDay
  | dayToWeek
deriving DecidableEq

namespace InsightsRawTable

def insert (table : InsightsRawTable) (row : InsightsRaw) : InsightsRawTable where
  rows := table.rows.set table.nextId row
  nextId := table.nextId + 1
  fresh := by
    intro id other found
    rw [get?_set] at found
    split at found
    · omega
    · exact Nat.lt_succ_of_lt (table.fresh id other found)

def deleteIds (table : InsightsRawTable) (ids : List Nat) : InsightsRawTable where
  rows := table.rows.filter fun entry => entry.1 ∉ ids
  nextId := table.nextId
  fresh := by
    intro id row found
    have entry := get?_eq_some_iff.mp found
    exact table.fresh id row (get?_eq_some_iff.mpr (mem_entries_filter.mp entry).1)

end InsightsRawTable

namespace InsightsByPeriodTable

variable (table : InsightsByPeriodTable) (period : InsightsPeriod)

def setValue (row : InsightsByPeriod) (found : table.rows.get? period = some row)
    (value : ℤ) : InsightsByPeriodTable where
  rows := table.rows.set period { row with value }
  nextId := table.nextId
  fresh := by
    intro other otherRow otherFound
    rw [get?_set] at otherFound
    split at otherFound
    · cases otherFound
      exact table.fresh period row found
    · exact table.fresh other otherRow otherFound
  unique := by
    intro first second firstRow secondRow firstFound secondFound same
    rw [get?_set] at firstFound secondFound
    split at firstFound
    next isFirst =>
      cases firstFound
      split at secondFound
      next isSecond =>
        exact isFirst.symm.trans isSecond
      · exact isFirst ▸ table.unique period second row secondRow found secondFound same
    · split at secondFound
      next isSecond =>
        cases secondFound
        exact isSecond ▸ table.unique first period firstRow row firstFound found same
      · exact table.unique first second firstRow secondRow firstFound secondFound same

def insert (value : ℤ) : InsightsByPeriodTable where
  rows := table.rows.set period { id := table.nextId, value }
  nextId := table.nextId + 1
  fresh := by
    intro other otherRow otherFound
    rw [get?_set] at otherFound
    split at otherFound
    · cases otherFound
      exact Nat.lt_succ_self _
    · exact Nat.lt_succ_of_lt (table.fresh other otherRow otherFound)
  unique := by
    intro first second firstRow secondRow firstFound secondFound same
    rw [get?_set] at firstFound secondFound
    split at firstFound
    next isFirst =>
      cases firstFound
      split at secondFound
      next isSecond =>
        exact isFirst.symm.trans isSecond
      · have older := table.fresh second secondRow secondFound
        exact absurd same (Nat.ne_of_gt older)
    · split at secondFound
      · cases secondFound
        have older := table.fresh first firstRow firstFound
        exact absurd same (Nat.ne_of_lt older)
      · exact table.unique first second firstRow secondRow firstFound secondFound same

/-- `INSERT` and, on a conflict, `DO UPDATE SET value = value + excluded`. -/
def upsert (value : ℤ) : InsightsByPeriodTable :=
  match found : table.rows.get? period with
  | some row => table.setValue period row found (row.value + value)
  | none => table.insert period value

def deleteIds (ids : List Nat) : InsightsByPeriodTable where
  rows := table.rows.filter fun entry => entry.2.id ∉ ids
  nextId := table.nextId
  fresh := by
    intro period row found
    have entry := get?_eq_some_iff.mp found
    exact table.fresh period row (get?_eq_some_iff.mpr (mem_entries_filter.mp entry).1)
  unique := by
    intro first second firstRow secondRow firstFound secondFound
    have firstEntry := get?_eq_some_iff.mp firstFound
    have secondEntry := get?_eq_some_iff.mp secondFound
    apply table.unique
    · exact get?_eq_some_iff.mpr (mem_entries_filter.mp firstEntry).1
    · exact get?_eq_some_iff.mpr (mem_entries_filter.mp secondEntry).1

end InsightsByPeriodTable

namespace CompactionStage

def periodUnitToCompactInto : CompactionStage → PeriodUnit
  | .rawToHour => .hour
  | .hourToDay => .day
  | .dayToWeek => .week

/-- `none` for the table of raw insights. -/
def periodUnitToCompactFrom : CompactionStage → Option PeriodUnit
  | .rawToHour => none
  | .hourToDay => some .hour
  | .dayToWeek => some .day

/-- Rows of periods are compacted some days after their start. -/
def isSelected (stage : CompactionStage) (config : InsightsConfig) (today periodStart : ℤ) : Bool :=
  match stage with
  | .rawToHour => true
  | .hourToDay => periodStart < (today - config.compactionHourlyToDailyThresholdDays) *
        millisecondsPerDay
  | .dayToWeek => periodStart < (today - config.compactionDailyToWeeklyThresholdDays) *
        millisecondsPerDay

end CompactionStage

def rawBatchRow (entry : Nat × InsightsRaw) : InsightsBatchRow where
  id := entry.1
  metaId := entry.2.metaId
  type := entry.2.type
  value := entry.2.value
  periodStart := entry.2.timestamp

def periodBatchRow (entry : InsightsPeriod × InsightsByPeriod) : InsightsBatchRow where
  id := entry.2.id
  metaId := entry.1.metaId
  type := entry.1.type
  value := entry.2.value
  periodStart := entry.1.periodStart

namespace InsightsTables

variable (tables : InsightsTables)

section

variable (stage : CompactionStage)

def sourceRows : List InsightsBatchRow :=
  match stage.periodUnitToCompactFrom with
  | none => tables.raw.rows.entries.map rawBatchRow
  | some periodUnit =>
    (tables.byPeriod.rows.entries.filter fun entry =>
      entry.1.periodUnit = periodUnit).map periodBatchRow

/-- What the batch queries may select: rows with the first starts.  A limit of
0 is none. -/
def IsBatch (config : InsightsConfig) (today : ℤ) (batch : InsightsBatch) : Prop :=
  let selected := (tables.sourceRows stage).filter fun row =>
    stage.isSelected config today row.periodStart
  (∀ row ∈ batch.rows, row ∈ selected) ∧ batch.rows.length =
      (if config.compactionBatchSize = 0 then selected.length
        else min config.compactionBatchSize selected.length) ∧
    ∀ row ∈ batch.rows, ∀ other ∈ selected, other ∉ batch.rows → row.periodStart ≤ other.periodStart

instance (tables : InsightsTables) (stage : CompactionStage)
    (config : InsightsConfig) (today : ℤ) (batch : InsightsBatch) :
    Decidable (tables.IsBatch stage config today batch) :=
  inferInstanceAs (Decidable (_ ∧ _ ∧ _))

def deleteBatch (batch : InsightsBatch) : InsightsTables :=
  let ids := batch.rows.map (·.id)
  match stage.periodUnitToCompactFrom with
  | none => { tables with raw := tables.raw.deleteIds ids }
  | some _ => { tables with byPeriod := tables.byPeriod.deleteIds ids }

end

end InsightsTables

namespace InsightsBatch

variable (dbType : DbType) (stage : CompactionStage)

def target (row : InsightsBatchRow) : InsightsPeriod where
  metaId := row.metaId
  type := row.type
  periodUnit := stage.periodUnitToCompactInto
  periodStart := getPeriodStartExpr dbType stage.periodUnitToCompactInto row.periodStart

variable (batch : InsightsBatch)

def getAggregationQuery : List (InsightsPeriod × ℤ) :=
  (batch.rows.map (target dbType stage)).dedup.map fun period =>
    (period, ((batch.rows.filter fun row =>
      target dbType stage row = period).map (·.value)).sum)

def upsertEvents (table : InsightsByPeriodTable) : InsightsByPeriodTable :=
  (batch.getAggregationQuery dbType stage).foldl
    (fun table (period, value) => table.upsert period value) table

/-- What a transaction has done when it is committed. -/
def compact (tables : InsightsTables) : InsightsTables :=
  { tables with byPeriod :=
      batch.upsertEvents dbType stage tables.byPeriod }.deleteBatch stage batch

end InsightsBatch

end N8n
