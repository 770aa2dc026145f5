import N8n.Insights.InsightsCompactionService
import N8n.Library.Ledger

/-!
# Totals of insights

A ledger says in which row each inserted value is counted.  A transaction that
finds its batch as it has copied it moves the values of the batch on to longer
periods, so that all totals are preserved.
-/

namespace N8n

open Ledger List OrderedMap CompactionStage InsightsBatch

namespace PeriodUnit

def length : PeriodUnit → ℤ
  | .hour => millisecondsPerHour
  | .day => millisecondsPerDay
  | .week => 7 * millisecondsPerDay

end PeriodUnit

/-- The hour, day or week in which the start lies contains the time. -/
def InsightsPeriod.Contains (dbType : DbType) (period : InsightsPeriod) (time : ℤ) : Prop :=
  getPeriodStartExpr dbType period.periodUnit period.periodStart ≤ time ∧
    time < getPeriodStartExpr dbType period.periodUnit period.periodStart + period.periodUnit.length

def totalOf (metaId : Nat) (type : InsightType) (insights : List InsightsRaw) : ℤ :=
  ((insights.filter fun insight => insight.metaId = metaId ∧ insight.type = type).map (·.value)).sum

namespace InsightsTables

def total (tables : InsightsTables) (metaId : Nat) (type : InsightType) : ℤ :=
  totalOf metaId type tables.raw.rows.values + ((tables.byPeriod.rows.entries.filter fun entry =>
      entry.1.metaId = metaId ∧ entry.1.type = type).map (·.2.value)).sum

/-- The value may be counted at the place. -/
def Counts (dbType : DbType) (tables : InsightsTables) (insight : InsightsRaw) :
    InsightsPlace → Prop
  | .raw id => tables.raw.rows.get? id = some insight
  | .period period => period ∈ tables.byPeriod.rows.keys ∧
      period.metaId = insight.metaId ∧ period.type = insight.type ∧
      period.Contains dbType insight.timestamp

/-- Each value is counted in one place, and the rows have the sums. -/
structure Accounts (dbType : DbType) (tables : InsightsTables)
    (ledger : Ledger InsightsRaw InsightsPlace) : Prop where
  counts : ∀ entry ∈ ledger, tables.Counts dbType entry.1 entry.2
  raw : ∀ id row, tables.raw.rows.get? id = some row →
    row.value = ledger.countedAt InsightsRaw.value (.raw id)
  byPeriod : ∀ period row, tables.byPeriod.rows.get? period = some row →
    row.value = ledger.countedAt InsightsRaw.value (.period period)

/-- The totals are those of all inserted values, and each of these is counted
in a row of its time. -/
structure PreservesTotals (dbType : DbType) (tables : InsightsTables)
    (inserted : List InsightsRaw) : Prop where
  totals : ∀ metaId type, tables.total metaId type = totalOf metaId type inserted
  accounted : ∃ ledger : Ledger InsightsRaw InsightsPlace,
    ledger.map Prod.fst = inserted ∧ tables.Accounts dbType ledger

end InsightsTables

variable {dbType : DbType} {config : InsightsConfig} {stage : CompactionStage}

theorem mondayOf_eq (dbType : DbType) (day : ℤ) : mondayOf dbType day = day - (day + 3) % 7 := by
  cases dbType with
  | sqlite =>
    simp only [mondayOf, weekday]
    omega
  | mysql | postgres =>
    simp only [mondayOf, weekday]
    omega

theorem getPeriodStartExpr_bounds (dbType : DbType) (unit : PeriodUnit)
    (time : ℤ) : getPeriodStartExpr dbType unit time ≤ time ∧
      time < getPeriodStartExpr dbType unit time + unit.length := by
  cases unit <;> simp only [getPeriodStartExpr, PeriodUnit.length, mondayOf_eq,
      millisecondsPerHour, millisecondsPerDay] <;> omega

theorem getPeriodStartExpr_idem (dbType : DbType) (unit : PeriodUnit)
    (time : ℤ) : getPeriodStartExpr dbType unit (getPeriodStartExpr dbType unit time) =
        getPeriodStartExpr dbType unit time := by
  cases unit <;> simp only [getPeriodStartExpr, mondayOf_eq, millisecondsPerHour,
      millisecondsPerDay] <;> omega

variable {unit : PeriodUnit}

theorem getPeriodStartExpr_nested (dbType : DbType)
    (isSource : stage.periodUnitToCompactFrom = some unit) (time : ℤ) :
    getPeriodStartExpr dbType stage.periodUnitToCompactInto time ≤
        getPeriodStartExpr dbType unit time ∧
      getPeriodStartExpr dbType unit time + unit.length ≤
        getPeriodStartExpr dbType stage.periodUnitToCompactInto time +
          stage.periodUnitToCompactInto.length := by
  cases stage with
  | rawToHour => cases isSource
  | hourToDay | dayToWeek =>
    cases isSource
    simp only [getPeriodStartExpr, periodUnitToCompactInto,
      PeriodUnit.length, mondayOf_eq, millisecondsPerHour,
      millisecondsPerDay]
    omega

theorem periodUnitToCompactInto_ne (isSource : stage.periodUnitToCompactFrom = some unit) :
    stage.periodUnitToCompactInto ≠ unit := by
  cases stage with
  | rawToHour => cases isSource
  | hourToDay | dayToWeek =>
    cases isSource
    decide

namespace InsightsByPeriodTable

variable {table : InsightsByPeriodTable} {period : InsightsPeriod}

def valueAt (table : InsightsByPeriodTable) (period : InsightsPeriod) : ℤ :=
  ((table.rows.get? period).map (·.value)).getD 0

variable (sums : List (InsightsPeriod × ℤ))

def sumAt (period : InsightsPeriod) : ℤ :=
  ((sums.filter fun entry => entry.1 = period).map Prod.snd).sum

theorem sumAt_cons (first : InsightsPeriod × ℤ)
    (sums : List (InsightsPeriod × ℤ)) : sumAt (first :: sums) period =
      (if first.1 = period then first.2 else 0) + sumAt sums period := by
  by_cases same : first.1 = period
  · simp [same, sumAt]
  · simp [same, sumAt]

theorem upsert_rows (table : InsightsByPeriodTable) (period : InsightsPeriod)
    (value : ℤ) : ∃ row, (table.upsert period value).rows = table.rows.set period row ∧
      row.value = table.valueAt period + value ∧
      ((∃ old, table.rows.get? period = some old ∧ old.id = row.id) ∨ table.nextId ≤ row.id) ∧
      table.nextId ≤ (table.upsert period value).nextId := by
  rw [upsert]
  split
  next row found =>
    refine ⟨{ row with value := row.value + value }, rfl, ?_, .inl ⟨row, found, rfl⟩, le_refl _⟩
    rw [valueAt, found]
    rfl
  next found =>
    refine ⟨{ id := table.nextId, value }, rfl, ?_, .inr (le_refl _), Nat.le_succ _⟩
    rw [valueAt, found]
    exact (zero_add value).symm

/-- What upserts leave behind: the sums are added to the rows, and a row keeps
its id or has a new one. -/
structure Upserted (table : InsightsByPeriodTable)
    (sums : List (InsightsPeriod × ℤ)) (result : InsightsByPeriodTable) :
    Prop where
  keys : ∀ period, period ∈ result.rows.keys ↔ period ∈ table.rows.keys ∨ period ∈ sums.map Prod.fst
  value : ∀ period row, result.rows.get? period = some row →
    row.value = table.valueAt period + sumAt sums period
  ids : ∀ period row, result.rows.get? period = some row →
    (∃ old, table.rows.get? period = some old ∧ old.id = row.id) ∨ table.nextId ≤ row.id
  others : ∀ period, period ∉ sums.map Prod.fst → result.rows.get? period = table.rows.get? period
  nextId : table.nextId ≤ result.nextId

theorem upserted_foldl (table : InsightsByPeriodTable) : Upserted table sums
      (sums.foldl (fun table (period, value) => table.upsert period value) table) := by
  induction sums generalizing table with
  | nil =>
    constructor
    · simp
    · intro period row found
      rw [foldl_nil] at found
      rw [valueAt, found]
      exact (add_zero row.value).symm
    · exact fun period row found => .inl ⟨row, found, rfl⟩
    · exact fun period _ => rfl
    · exact le_refl _
  | cons first sums ih =>
    obtain ⟨period, value⟩ := first
    obtain ⟨row, rows, rowValue, rowId, nextId⟩ := table.upsert_rows period value
    have later := ih (table.upsert period value)
    have first (other : InsightsPeriod) : (table.upsert period value).rows.get? other =
          if period = other then some row else table.rows.get? other := by
      rw [rows, get?_set]
    have firstValue (other : InsightsPeriod) : (table.upsert period value).valueAt other =
          table.valueAt other + if period = other then value else 0 := by
      rw [valueAt, first]
      split
      next same =>
        rw [← same]
        exact rowValue
      · exact (add_zero _).symm
    constructor
    · intro other
      rw [foldl_cons, later.keys, rows, mem_keys_set, map_cons, mem_cons]
      exact ⟨fun known => by tauto, fun known => by tauto⟩
    · intro other otherRow found
      rw [later.value other otherRow found, firstValue, sumAt_cons, add_assoc]
    · intro other otherRow found
      rcases later.ids other otherRow found with ⟨old, oldFound, same⟩ | new
      · rw [first] at oldFound
        split at oldFound
        next isFirst =>
          cases oldFound
          rw [← same, ← isFirst]
          exact rowId
        · exact .inl ⟨old, oldFound, same⟩
      · exact .inr (le_trans nextId new)
    · intro other absent
      rw [map_cons, mem_cons, not_or] at absent
      rw [foldl_cons, later.others other absent.2, first, if_neg (Ne.symm absent.1)]
    · exact le_trans nextId later.nextId

end InsightsByPeriodTable

def CompactionStage.rowPlace (stage : CompactionStage) (row : InsightsBatchRow) : InsightsPlace :=
  match stage.periodUnitToCompactFrom with
  | none => .raw row.id
  | some periodUnit => .period
      { metaId := row.metaId
        type := row.type
        periodUnit
        periodStart := row.periodStart }

namespace InsightsTables

variable {tables : InsightsTables} {batch : InsightsBatch}
  {row : InsightsBatchRow} {place : InsightsPlace}
  {ledger : Ledger InsightsRaw InsightsPlace}

def batchRow? (tables : InsightsTables) : InsightsPlace → Option InsightsBatchRow
  | .raw id => (tables.raw.rows.get? id).map fun row => rawBatchRow (id, row)
  | .period period => (tables.byPeriod.rows.get? period).map fun row =>
    periodBatchRow (period, row)

/-- Where the values of a row are counted when it has been compacted. -/
def destination (dbType : DbType) (tables : InsightsTables)
    (stage : CompactionStage) (place : InsightsPlace) : InsightsPlace :=
  match tables.batchRow? place with
  | some row => .period (InsightsBatch.target dbType stage row)
  | none => place

theorem batchRow?_rowPlace (isSource : row ∈ tables.sourceRows stage) :
    tables.batchRow? (stage.rowPlace row) = some row := by
  rw [sourceRows] at isSource
  rw [CompactionStage.rowPlace]
  cases hasUnit : stage.periodUnitToCompactFrom with
  | none =>
    rw [hasUnit] at isSource
    obtain ⟨entry, mem, rfl⟩ := mem_map.mp isSource
    have found : tables.raw.rows.get? entry.1 = some entry.2 := get?_eq_some_iff.mpr mem
    change (tables.raw.rows.get? entry.1).map _ = _
    rw [found]
    rfl
  | some periodUnit =>
    rw [hasUnit] at isSource
    obtain ⟨⟨period, stored⟩, selected, rfl⟩ := mem_map.mp isSource
    obtain ⟨mem, isUnit⟩ := mem_filter.mp selected
    obtain ⟨metaId, type, unit, periodStart⟩ := period
    obtain rfl : unit = periodUnit := of_decide_eq_true isUnit
    have found : tables.byPeriod.rows.get?
        { metaId, type, periodUnit := unit, periodStart } = some stored :=
      get?_eq_some_iff.mpr mem
    change (tables.byPeriod.rows.get? _).map _ = _
    rw [periodBatchRow, found]
    rfl

theorem destination_rowPlace (isSource : row ∈ tables.sourceRows stage) :
    tables.destination dbType stage (stage.rowPlace row) =
      .period (InsightsBatch.target dbType stage row) := by
  rw [destination, batchRow?_rowPlace isSource]

theorem Accounts.value_eq (accounts : tables.Accounts dbType ledger)
    (found : tables.batchRow? place = some row) :
    row.value = ledger.countedAt InsightsRaw.value place := by
  cases place with
  | raw id =>
    obtain ⟨stored, isStored, rfl⟩ := Option.map_eq_some_iff.mp found
    exact accounts.raw id stored isStored
  | period period =>
    obtain ⟨stored, isStored, rfl⟩ := Option.map_eq_some_iff.mp found
    exact accounts.byPeriod period stored isStored

/-- The rows of the batch are as they have been copied. -/
def KeepsBatch (tables : InsightsTables) (stage : CompactionStage) (batch : InsightsBatch) : Prop :=
  ∀ row ∈ batch.rows, row ∈ tables.sourceRows stage

instance (tables : InsightsTables) (stage : CompactionStage)
    (batch : InsightsBatch) : Decidable (tables.KeepsBatch stage batch) :=
  inferInstanceAs (Decidable (∀ row ∈ batch.rows, _))

def sources (stage : CompactionStage) (batch : InsightsBatch) : List InsightsPlace :=
  batch.rows.map stage.rowPlace

theorem KeepsBatch.sources_nodup (keeps : tables.KeepsBatch stage batch) :
    (sources stage batch).Nodup := by
  apply List.Nodup.map_on
  · intro first firstListed second secondListed same
    have firstFound := batchRow?_rowPlace (keeps first firstListed)
    have secondFound := batchRow?_rowPlace (keeps second secondListed)
    rw [same, secondFound] at firstFound
    exact (Option.some.inj firstFound).symm
  · exact List.Nodup.of_map _ batch.nodup

theorem KeepsBatch.moved_eq (keeps : tables.KeepsBatch stage batch)
    (accounts : tables.Accounts dbType ledger) (period : InsightsPeriod) :
    (((sources stage batch).filter fun source =>
      tables.destination dbType stage source = .period period).map
        (ledger.countedAt InsightsRaw.value)).sum =
      ((batch.rows.filter fun row =>
        InsightsBatch.target dbType stage row = period).map (·.value)).sum := by
  rw [sources, filter_map, map_map]
  have sameRows : (batch.rows.filter ((fun source => decide
        (tables.destination dbType stage source = .period period)) ∘ stage.rowPlace)) =
      batch.rows.filter fun row =>
        InsightsBatch.target dbType stage row = period := by
    apply filter_congr
    intro row listed
    rw [Function.comp_apply, destination_rowPlace (keeps row listed)]
    simp
  rw [sameRows]
  congr 1
  apply map_congr_left
  intro row selected
  have listed := (mem_filter.mp selected).1
  exact (accounts.value_eq (batchRow?_rowPlace (keeps row listed))).symm

end InsightsTables

namespace InsightsBatch

open InsightsByPeriodTable

variable {batch : InsightsBatch} {period : InsightsPeriod}

theorem mem_aggregated : period ∈ (batch.getAggregationQuery dbType stage).map Prod.fst ↔
      ∃ row ∈ batch.rows, target dbType stage row = period := by
  rw [getAggregationQuery, map_map]
  change period ∈ List.map id _ ↔ _
  rw [map_id, mem_dedup, mem_map]

theorem sumAt_map_of_nodup (sum : InsightsPeriod → ℤ)
    {periods : List InsightsPeriod} (nodup : periods.Nodup) :
    sumAt (periods.map fun period => (period, sum period)) period =
      if period ∈ periods then sum period else 0 := by
  induction periods with
  | nil => rfl
  | cons first periods ih =>
    obtain ⟨absent, rest⟩ := nodup_cons.mp nodup
    rw [map_cons, sumAt_cons, ih rest]
    by_cases same : first = period
    · subst same
      simp [absent]
    · simp [same, Ne.symm same]

theorem sumAt_getAggregationQuery : sumAt (batch.getAggregationQuery dbType stage) period =
      ((batch.rows.filter fun row =>
        target dbType stage row = period).map (·.value)).sum := by
  rw [getAggregationQuery, sumAt_map_of_nodup _ (nodup_dedup _)]
  split
  · rfl
  next absent =>
    rw [filter_eq_nil_iff.mpr]
    · rfl
    · intro row listed
      rw [decide_eq_true_eq]
      rintro rfl
      exact absent (mem_dedup.mpr (mem_map_of_mem listed))

end InsightsBatch

namespace InsightsTables

variable {tables : InsightsTables} {batch : InsightsBatch}
  {row : InsightsBatchRow} {place : InsightsPlace}
  {ledger : Ledger InsightsRaw InsightsPlace}

theorem KeepsBatch.stored (keeps : tables.KeepsBatch stage batch)
    {unit : PeriodUnit} (isSource : stage.periodUnitToCompactFrom = some unit)
    (listed : row ∈ batch.rows) : ∃ period stored, tables.byPeriod.rows.get? period = some stored ∧
        stage.rowPlace row = .period period ∧ stored.id = row.id ∧
        period.periodUnit = unit := by
  have found := batchRow?_rowPlace (keeps row listed)
  rw [CompactionStage.rowPlace, isSource] at found ⊢
  obtain ⟨stored, isStored, same⟩ := Option.map_eq_some_iff.mp found
  exact ⟨_, stored, isStored, rfl, congrArg InsightsBatchRow.id same, rfl⟩

theorem get?_raw_compact (batch : InsightsBatch) (tables : InsightsTables)
    (id : Nat) : (batch.compact dbType stage tables).raw.rows.get? id =
      if .raw id ∈ sources stage batch then none
      else tables.raw.rows.get? id := by
  rw [compact, deleteBatch, sources]
  cases isSource : stage.periodUnitToCompactFrom with
  | none =>
    have isRaw : InsightsPlace.raw id ∈ batch.rows.map stage.rowPlace ↔
        id ∈ batch.rows.map (·.id) := by
      simp only [mem_map, CompactionStage.rowPlace, isSource, InsightsPlace.raw.injEq]
    change (tables.raw.rows.filter fun entry =>
      decide (entry.1 ∉ batch.rows.map (·.id))).get? id = _
    rw [get?_filter_keys tables.raw.rows (fun id => decide (id ∉ batch.rows.map (·.id)))]
    by_cases listed : id ∈ batch.rows.map (·.id)
    · rw [if_pos (isRaw.mpr listed)]
      simp [listed]
    · rw [if_neg (isRaw.not.mpr listed)]
      simp [listed]
  | some unit =>
    have notRaw : InsightsPlace.raw id ∉ batch.rows.map stage.rowPlace := by
      simp [CompactionStage.rowPlace, isSource]
    rw [if_neg notRaw]

theorem KeepsBatch.get?_byPeriod_compact
    (keeps : tables.KeepsBatch stage batch) (period : InsightsPeriod) :
    (batch.compact dbType stage tables).byPeriod.rows.get? period =
      if .period period ∈ sources stage batch then none
      else (batch.upsertEvents dbType stage tables.byPeriod).rows.get?
        period := by
  have upserted := InsightsByPeriodTable.upserted_foldl
    (batch.getAggregationQuery dbType stage) tables.byPeriod
  change InsightsByPeriodTable.Upserted _ _
    (batch.upsertEvents dbType stage tables.byPeriod) at upserted
  rw [compact, deleteBatch]
  cases isSource : stage.periodUnitToCompactFrom with
  | none =>
    have notPeriod : InsightsPlace.period period ∉ sources stage batch := by
      simp [sources, CompactionStage.rowPlace, isSource]
    rw [if_neg notPeriod]
  | some unit =>
    apply Option.ext
    intro row
    have kept : ((batch.upsertEvents dbType stage
        tables.byPeriod).deleteIds (batch.rows.map (·.id))).rows.get? period = some row ↔
        (batch.upsertEvents dbType stage tables.byPeriod).rows.get? period =
          some row ∧ row.id ∉ batch.rows.map (·.id) := by
      rw [get?_eq_some_iff, get?_eq_some_iff]
      exact mem_entries_filter.trans (by simp)
    change ((batch.upsertEvents dbType stage
      tables.byPeriod).deleteIds _).rows.get? period = some row ↔ _
    rw [kept]
    by_cases deleted : .period period ∈ sources stage batch
    · -- a row of the batch is no target, so it still has its id
      rw [if_pos deleted]
      obtain ⟨batchRow, listed, isPlace⟩ := mem_map.mp deleted
      obtain ⟨other, stored, isStored, otherPlace, sameId, hasUnit⟩ := keeps.stored isSource listed
      obtain rfl := InsightsPlace.period.inj (otherPlace.symm.trans isPlace)
      have noTarget : other ∉ (batch.getAggregationQuery dbType stage).map Prod.fst := by
        rw [mem_aggregated]
        rintro ⟨target, _, rfl⟩
        exact periodUnitToCompactInto_ne isSource hasUnit
      rw [upserted.others other noTarget, isStored]
      constructor
      · rintro ⟨same, absent⟩
        cases same
        exact absurd (mem_map.mpr ⟨batchRow, listed, sameId.symm⟩) absent
      · simp
    · rw [if_neg deleted]
      refine ⟨And.left, fun found => ⟨found, ?_⟩⟩
      intro isDeleted
      obtain ⟨batchRow, listed, sameId⟩ := mem_map.mp isDeleted
      obtain ⟨other, stored, isStored, otherPlace, storedId, _⟩ := keeps.stored isSource listed
      rcases upserted.ids period row found with ⟨old, isOld, oldId⟩ | new
      · have same := tables.byPeriod.unique period other old stored isOld
          isStored (by rw [oldId, storedId, ← sameId])
        exact deleted (mem_map.mpr ⟨batchRow, listed, same ▸ otherPlace⟩)
      · have older := tables.byPeriod.fresh other stored isStored
        omega

theorem target_not_source (row : InsightsBatchRow) :
    InsightsPlace.period (InsightsBatch.target dbType stage row) ∉ sources stage batch := by
  intro mem
  obtain ⟨other, _, same⟩ := mem_map.mp mem
  rw [CompactionStage.rowPlace] at same
  cases isSource : stage.periodUnitToCompactFrom with
  | none =>
    rw [isSource] at same
    cases same
  | some unit =>
    rw [isSource] at same
    have sameUnit := congrArg InsightsPeriod.periodUnit (InsightsPlace.period.inj same)
    exact periodUnitToCompactInto_ne isSource sameUnit.symm

variable {insight : InsightsRaw}

/-- A value may be counted in the period into which its row is compacted. -/
theorem Counts.target (counts : tables.Counts dbType insight (stage.rowPlace row))
    (isSource : row ∈ tables.sourceRows stage) :
    (InsightsBatch.target dbType stage row).metaId = insight.metaId ∧
      (InsightsBatch.target dbType stage row).type = insight.type ∧
      (InsightsBatch.target dbType stage row).Contains dbType
        insight.timestamp := by
  have found := batchRow?_rowPlace isSource
  cases hasUnit : stage.periodUnitToCompactFrom with
  | none =>
    rw [CompactionStage.rowPlace, hasUnit] at counts found
    have isInsight : tables.raw.rows.get? row.id = some insight := counts
    obtain ⟨stored, isStored, same⟩ := Option.map_eq_some_iff.mp found
    cases isInsight.symm.trans isStored
    rw [← same]
    refine ⟨rfl, rfl, ?_⟩
    have bounds := getPeriodStartExpr_bounds dbType stage.periodUnitToCompactInto insight.timestamp
    simp only [InsightsPeriod.Contains, InsightsBatch.target, getPeriodStartExpr_idem]
    exact bounds
  | some unit =>
    rw [CompactionStage.rowPlace, hasUnit] at counts
    obtain ⟨_, sameMetaId, sameType, fromStart, beforeEnd⟩ := counts
    refine ⟨sameMetaId, sameType, ?_⟩
    have nested := getPeriodStartExpr_nested dbType hasUnit row.periodStart
    simp only [InsightsPeriod.Contains, InsightsBatch.target, getPeriodStartExpr_idem]
    exact ⟨nested.1.trans fromStart, lt_of_lt_of_le beforeEnd nested.2⟩

theorem Accounts.valueAt_eq (accounts : tables.Accounts dbType ledger)
    (period : InsightsPeriod) : tables.byPeriod.valueAt period =
      ledger.countedAt InsightsRaw.value (.period period) := by
  rw [InsightsByPeriodTable.valueAt]
  cases found : tables.byPeriod.rows.get? period with
  | none =>
    symm
    apply countedAt_eq_zero
    intro entry listed isPlace
    have counts := accounts.counts entry listed
    rw [isPlace] at counts
    exact get?_eq_none_iff.mp found counts.1
  | some row => exact accounts.byPeriod period row found

/-- A transaction that finds its batch as it has copied it moves the values of
the batch on. -/
theorem Accounts.compact (accounts : tables.Accounts dbType ledger)
    (keeps : tables.KeepsBatch stage batch) :
    (batch.compact dbType stage tables).Accounts dbType
      (ledger.move (sources stage batch) (tables.destination dbType stage)) := by
  have upserted : InsightsByPeriodTable.Upserted tables.byPeriod _
      (batch.upsertEvents dbType stage tables.byPeriod) :=
    InsightsByPeriodTable.upserted_foldl _ _
  have inKeys (period : InsightsPeriod) (notSource : .period period ∉ sources stage batch)
      (known : period ∈ tables.byPeriod.rows.keys ∨
        ∃ row ∈ batch.rows, InsightsBatch.target dbType stage row = period) :
      period ∈ (batch.compact dbType stage tables).byPeriod.rows.keys := by
    rw [← mem_aggregated, ← upserted.keys] at known
    rw [← has_iff, has] at known ⊢
    rw [keeps.get?_byPeriod_compact, if_neg notSource]
    exact known
  constructor
  · intro moved mem
    obtain ⟨⟨insight, place⟩, listed, rfl⟩ := mem_map.mp mem
    have counts := accounts.counts _ listed
    change Counts dbType _ insight (if place ∈ sources stage batch then _ else place)
    by_cases isSource : place ∈ sources stage batch
    · rw [if_pos isSource]
      obtain ⟨row, rowListed, rfl⟩ := mem_map.mp isSource
      have rowSource := keeps row rowListed
      rw [destination_rowPlace rowSource]
      exact ⟨inKeys _ (target_not_source row) (.inr ⟨row, rowListed, rfl⟩),
        Counts.target counts rowSource⟩
    · rw [if_neg isSource]
      cases place with
      | raw id =>
        change (batch.compact dbType stage tables).raw.rows.get? id = _
        rw [get?_raw_compact, if_neg isSource]
        exact counts
      | period period =>
        exact ⟨inKeys period isSource (.inl counts.1), counts.2⟩
  · intro id row found
    rw [get?_raw_compact] at found
    split at found
    · cases found
    next notSource =>
      rw [countedAt_move keeps.sources_nodup notSource, filter_eq_nil_iff.mpr]
      · rw [accounts.raw id row found]
        exact (add_zero _).symm
      · intro source mem
        obtain ⟨batchRow, listed, rfl⟩ := mem_map.mp mem
        rw [destination_rowPlace (keeps batchRow listed)]
        simp
  · intro period row found
    rw [keeps.get?_byPeriod_compact] at found
    split at found
    · cases found
    next notSource =>
      rw [countedAt_move keeps.sources_nodup notSource,
        keeps.moved_eq accounts, ← accounts.valueAt_eq,
        ← sumAt_getAggregationQuery]
      exact upserted.value period row found

theorem totalOf_eq (metaId : Nat) (type : InsightType) (ledger : Ledger InsightsRaw InsightsPlace) :
    totalOf metaId type (ledger.map Prod.fst) = (ledger.map fun entry =>
      if entry.1.metaId = metaId ∧ entry.1.type = type then entry.1.value
      else 0).sum := by
  induction ledger with
  | nil => rfl
  | cons entry ledger ih =>
    rw [map_cons, map_cons, sum_cons, ← ih, totalOf, totalOf, filter_cons]
    by_cases isOf : entry.1.metaId = metaId ∧ entry.1.type = type
    · simp [isOf]
    · simp [isOf]

def placesOf (tables : InsightsTables) (metaId : Nat) (type : InsightType) : List InsightsPlace :=
  ((tables.raw.rows.entries.filter fun entry =>
    entry.2.metaId = metaId ∧ entry.2.type = type).map fun entry =>
      .raw entry.1) ++
  (tables.byPeriod.rows.entries.filter fun entry =>
    entry.1.metaId = metaId ∧ entry.1.type = type).map fun entry =>
      .period entry.1

theorem placesOf_nodup (tables : InsightsTables) (metaId : Nat)
    (type : InsightType) : (tables.placesOf metaId type).Nodup := by
  have distinct {κ α : Type} (map : OrderedMap κ α) (keep : κ × α → Bool)
      (place : κ → InsightsPlace) (injective : Function.Injective place) :
      ((map.entries.filter keep).map fun entry => place entry.1).Nodup := by
    have keys : ((map.entries.filter keep).map Prod.fst).Nodup :=
      map.keys_nodup.sublist (filter_sublist.map Prod.fst)
    have mapped := keys.map injective
    rwa [map_map] at mapped
  rw [placesOf, nodup_append]
  refine ⟨distinct _ _ _ fun _ _ => InsightsPlace.raw.inj,
    distinct _ _ _ fun _ _ => InsightsPlace.period.inj, ?_⟩
  rintro _ rawMem _ periodMem rfl
  obtain ⟨_, _, isRaw⟩ := mem_map.mp rawMem
  obtain ⟨_, _, isPeriod⟩ := mem_map.mp periodMem
  cases isRaw.trans isPeriod.symm

theorem Accounts.total_eq (accounts : tables.Accounts dbType ledger)
    (metaId : Nat) (type : InsightType) : tables.total metaId type =
      ((tables.placesOf metaId type).map (ledger.countedAt InsightsRaw.value)).sum := by
  rw [placesOf, map_append, sum_append, map_map, map_map,
    total, totalOf, values, filter_map, map_map]
  congr 2
  · apply map_congr_left
    intro entry selected
    exact accounts.raw entry.1 entry.2 (get?_eq_some_iff.mpr (mem_filter.mp selected).1)
  · apply map_congr_left
    intro entry selected
    exact accounts.byPeriod entry.1 entry.2 (get?_eq_some_iff.mpr (mem_filter.mp selected).1)

theorem Counts.mem_placesOf (counts : tables.Counts dbType insight place)
    (metaId : Nat) (type : InsightType) : place ∈ tables.placesOf metaId type ↔
      insight.metaId = metaId ∧ insight.type = type := by
  rw [placesOf, mem_append]
  cases place with
  | raw id =>
    have found : tables.raw.rows.get? id = some insight := counts
    constructor
    · rintro (mem | mem)
      · obtain ⟨entry, selected, same⟩ := mem_map.mp mem
        obtain ⟨listed, isOf⟩ := mem_filter.mp selected
        have other := get?_eq_some_iff.mpr listed
        rw [InsightsPlace.raw.inj same, found] at other
        cases other
        exact of_decide_eq_true isOf
      · obtain ⟨_, _, isPeriod⟩ := mem_map.mp mem
        cases isPeriod
    · intro isOf
      refine .inl (mem_map.mpr ⟨(id, insight), ?_, rfl⟩)
      exact mem_filter.mpr ⟨get?_eq_some_iff.mp found, decide_eq_true isOf⟩
  | period period =>
    obtain ⟨known, sameMetaId, sameType, _⟩ := counts
    rw [← sameMetaId, ← sameType]
    constructor
    · rintro (mem | mem)
      · obtain ⟨_, _, isRaw⟩ := mem_map.mp mem
        cases isRaw
      · obtain ⟨entry, selected, same⟩ := mem_map.mp mem
        obtain ⟨_, isOf⟩ := mem_filter.mp selected
        rw [InsightsPlace.period.inj same] at isOf
        exact of_decide_eq_true isOf
    · intro isOf
      obtain ⟨entry, listed, rfl⟩ := mem_map.mp known
      exact .inr (mem_map.mpr ⟨entry, mem_filter.mpr ⟨listed, decide_eq_true isOf⟩, rfl⟩)

theorem Accounts.preservesTotals (accounts : tables.Accounts dbType ledger) :
    tables.PreservesTotals dbType (ledger.map Prod.fst) := by
  refine ⟨?_, ledger, rfl, accounts⟩
  intro metaId type
  rw [accounts.total_eq, sum_countedAt (tables.placesOf_nodup _ _), totalOf_eq]
  congr 1
  apply map_congr_left
  intro entry listed
  simp only [(accounts.counts entry listed).mem_placesOf]

theorem Accounts.insertRaw (accounts : tables.Accounts dbType ledger) (row : InsightsRaw) :
    Accounts dbType { tables with raw := tables.raw.insert row }
      (ledger ++ [(row, .raw tables.raw.nextId)]) := by
  have unused : tables.raw.rows.get? tables.raw.nextId = none := by
    cases found : tables.raw.rows.get? tables.raw.nextId with
    | none => rfl
    | some other =>
      exact absurd (tables.raw.fresh _ other found) (Nat.lt_irrefl _)
  have stored (id : Nat) : (tables.raw.insert row).rows.get? id =
      if tables.raw.nextId = id then some row else tables.raw.rows.get? id :=
    get?_set _ _ _ _
  have last (place : InsightsPlace) :
      countedAt InsightsRaw.value [(row, .raw tables.raw.nextId)] place =
        if InsightsPlace.raw tables.raw.nextId = place then row.value else 0 :=
    add_zero _
  constructor
  · intro entry mem
    rcases mem_append.mp mem with listed | isLast
    · have counts := accounts.counts entry listed
      obtain ⟨insight, place⟩ := entry
      cases place with
      | raw id =>
        change (tables.raw.insert row).rows.get? id = some insight
        have known : tables.raw.rows.get? id = some insight := counts
        rw [stored, if_neg]
        · exact known
        · rintro rfl
          cases unused.symm.trans known
      | period period => exact counts
    · obtain rfl := mem_singleton.mp isLast
      exact get?_set_self _ _ _
  · intro id other found
    rw [countedAt_append, last]
    change (tables.raw.insert row).rows.get? id = some other at found
    rw [stored] at found
    split at found
    next isNew =>
      cases found
      rw [if_pos (congrArg InsightsPlace.raw isNew), countedAt_eq_zero]
      · exact (zero_add _).symm
      · intro entry listed isPlace
        have counts := accounts.counts entry listed
        rw [isPlace, ← isNew] at counts
        cases unused.symm.trans counts
    next notNew =>
      rw [if_neg fun same => notNew (InsightsPlace.raw.inj same), add_zero]
      exact accounts.raw id other found
  · intro period other found
    rw [countedAt_append, last, if_neg (by simp), add_zero]
    exact accounts.byPeriod period other found

end InsightsTables

namespace InsightsCompaction

variable {state next : InsightsCompaction} {event : CompactionEvent}

/-- A call that commits finds its batch as it has copied it. -/
def CommitKeepsBatch (tables : InsightsTables) (stage : CompactionStage) : CompactionPhase → Prop
  | .executes batch statement =>
    statement = .commits → tables.KeepsBatch stage batch
  | .begins | .copies => True

instance (tables : InsightsTables) (stage : CompactionStage) :
    ∀ phase, Decidable (CommitKeepsBatch tables stage phase)
  | .executes batch statement => inferInstanceAs (Decidable
      (statement = .commits → tables.KeepsBatch stage batch))
  | .begins => isTrue True.intro
  | .copies => isTrue True.intro

/-- A transaction that is committed finds its batch as it has copied it. -/
def KeepsBatches (state : InsightsCompaction) : CompactionEvent → Prop
  | .continues call => ∀ record ∈ state.calls.get? call,
      CommitKeepsBatch state.tables record.stage record.phase
  | .insertsRaw _ | .compactInsights _ | .copies _ _ _ | .fails _ => True

instance (state : InsightsCompaction) : ∀ event, Decidable (state.KeepsBatches event)
  | .continues call => inferInstanceAs (Decidable (∀ record ∈ state.calls.get? call,
        CommitKeepsBatch state.tables record.stage record.phase))
  | .insertsRaw _ => isTrue True.intro
  | .compactInsights _ => isTrue True.intro
  | .copies _ _ _ => isTrue True.intro
  | .fails _ => isTrue True.intro

theorem loops_tables (config : InsightsConfig) (state : InsightsCompaction)
    (call : Nat) (record : CompactionCall) (numberOfCompactedData : Nat) :
    (state.loops config call record numberOfCompactedData).tables = state.tables ∧
      (state.loops config call record numberOfCompactedData).inserted =
        state.inserted := by
  rw [loops]
  split
  · exact ⟨rfl, rfl⟩
  · split
    · exact ⟨rfl, rfl⟩
    · exact ⟨rfl, rfl⟩

inductive ChangesTables (dbType : DbType) (state : InsightsCompaction) :
    CompactionEvent → InsightsTables → List InsightsRaw → Prop
  | inserts (row : InsightsRaw) : ChangesTables dbType state (.insertsRaw row)
      { state.tables with raw := state.tables.raw.insert row }
      (state.inserted ++ [row])
  | commits {call : Nat} {record : CompactionCall} {batch : InsightsBatch}
      (found : state.calls.get? call = some record)
      (phase : record.phase = .executes batch .commits) :
      ChangesTables dbType state (.continues call)
        (batch.compact dbType record.stage state.tables) state.inserted
  | keeps (event : CompactionEvent) : ChangesTables dbType state event state.tables state.inserted

theorem changesTables_of_step (moved : step dbType config state event = some next) :
    ChangesTables dbType state event next.tables next.inserted := by
  cases event with
  | insertsRaw row =>
    cases moved
    exact .inserts row
  | compactInsights process =>
    cases moved
    exact .keeps _
  | copies call today batch =>
    obtain ⟨record, _, copied⟩ := Option.bind_eq_some_iff.mp moved
    obtain ⟨_, rfl⟩ := Machine.of_guarded copied
    exact .keeps _
  | continues call =>
    obtain ⟨record, found, continued⟩ := Option.bind_eq_some_iff.mp moved
    rw [continueCall] at continued
    split at continued
    · cases continued
      rw [begins]
      split
      · rw [(loops_tables _ _ _ _ _).1, (loops_tables _ _ _ _ _).2]
        exact .keeps _
      · exact .keeps _
    · cases continued
    next batch statement phase =>
      split at continued
      · cases continued
      · cases continued
        cases statement with
        | upserts | counts | deletes | drops => exact .keeps _
        | commits =>
          rw [execute, commit, (loops_tables _ _ _ _ _).1, (loops_tables _ _ _ _ _).2]
          exact .commits found phase
  | fails call =>
    obtain ⟨record, _, failed⟩ := Option.bind_eq_some_iff.mp moved
    rw [fail] at failed
    split at failed
    · cases failed
    · cases failed
      exact .keeps _
    · cases failed
      exact .keeps _

def Accounted (dbType : DbType) (state : InsightsCompaction) : Prop :=
  ∃ ledger : Ledger InsightsRaw InsightsPlace,
    ledger.map Prod.fst = state.inserted ∧ state.tables.Accounts dbType ledger

theorem Accounted.step (accounted : state.Accounted dbType) (keeps : state.KeepsBatches event)
    (moved : InsightsCompaction.step dbType config state event = some next) :
    next.Accounted dbType := by
  obtain ⟨ledger, inserted, accounts⟩ := accounted
  have changes := changesTables_of_step moved
  rw [Accounted]
  generalize next.tables = tables at changes ⊢
  generalize next.inserted = values at changes ⊢
  cases changes with
  | inserts row =>
    refine ⟨_, ?_, accounts.insertRaw row⟩
    rw [map_append, inserted]
    rfl
  | commits found phase =>
    rename_i call record batch
    obtain ⟨process, stage, recordPhase⟩ := record
    obtain rfl : recordPhase = _ := phase
    have keepsBatch : state.tables.KeepsBatch stage batch := keeps _ found rfl
    refine ⟨_, ?_, accounts.compact keepsBatch⟩
    rw [values_move, inserted]
  | keeps => exact ⟨ledger, inserted, accounts⟩

end InsightsCompaction

end N8n
