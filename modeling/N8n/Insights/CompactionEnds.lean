import N8n.Insights.PreservesTotals
import Mathlib.Data.Prod.Lex

/-!
# The end of a compaction

As long as no raw insights are inserted, a transaction either deletes rows or
is one of those whose rows others have deleted, of which no more arise.  So the
full batches come to an end, and with them the loops.
-/

namespace N8n

open InsightsTables List OrderedMap CompactionCall CompactionPhase InsightsBatch

variable {dbType : DbType} {config : InsightsConfig} {stage earlier : CompactionStage}

def CompactionStage.position : CompactionStage → Nat
  | .rawToHour => 0
  | .hourToDay => 1
  | .dayToWeek => 2

theorem CompactionStage.into_ne_from
    (isEarlier : earlier.position ≤ stage.position) {unit : PeriodUnit}
    (isSource : earlier.periodUnitToCompactFrom = some unit) :
    stage.periodUnitToCompactInto ≠ unit := by
  revert isEarlier isSource
  cases earlier <;> cases stage <;> cases unit <;> decide

namespace InsightsByPeriodTable

variable {unit : PeriodUnit}

theorem filter_upsert {period : InsightsPeriod}
    (ne : period.periodUnit ≠ unit) (table : InsightsByPeriodTable)
    (value : ℤ) : (table.upsert period value).rows.entries.filter
        (fun entry => entry.1.periodUnit = unit) =
      table.rows.entries.filter fun entry => entry.1.periodUnit = unit := by
  obtain ⟨row, rows, _⟩ := table.upsert_rows period value
  rw [rows]
  exact filter_entries_set row fun _ => decide_eq_false ne

theorem filter_foldl_upsert {sums : List (InsightsPeriod × ℤ)}
    (ne : ∀ sum ∈ sums, sum.1.periodUnit ≠ unit) (table : InsightsByPeriodTable) :
    (sums.foldl (fun table (period, value) => table.upsert period value)
      table).rows.entries.filter (fun entry => entry.1.periodUnit = unit) =
      table.rows.entries.filter fun entry => entry.1.periodUnit = unit := by
  induction sums generalizing table with
  | nil => rfl
  | cons first sums ih =>
    rw [foldl_cons, ih fun sum mem => ne sum (mem_cons_of_mem _ mem)]
    exact filter_upsert (ne first mem_cons_self) table first.2

end InsightsByPeriodTable

namespace InsightsTables

variable {tables : InsightsTables} {batch : InsightsBatch}

def sourceIds (tables : InsightsTables) (stage : CompactionStage) : List Nat :=
  (tables.sourceRows stage).map (·.id)

theorem sourceIds_raw (tables : InsightsTables) (isRaw : stage.periodUnitToCompactFrom = none) :
    tables.sourceIds stage = tables.raw.rows.keys := by
  rw [sourceIds, sourceRows, isRaw, map_map]
  rfl

variable {unit : PeriodUnit}

theorem sourceIds_period (tables : InsightsTables)
    (isSource : stage.periodUnitToCompactFrom = some unit) :
    tables.sourceIds stage = (tables.byPeriod.rows.entries.filter fun entry =>
      entry.1.periodUnit = unit).map fun entry => entry.2.id := by
  rw [sourceIds, sourceRows, isSource, map_map]
  rfl

/-- The targets of a batch have another unit than the rows of its stage and of
those before. -/
theorem filter_upsertEvents (dbType : DbType) (isEarlier : earlier.position ≤ stage.position)
    (isSource : earlier.periodUnitToCompactFrom = some unit)
    (batch : InsightsBatch) (table : InsightsByPeriodTable) :
    (batch.upsertEvents dbType stage table).rows.entries.filter
        (fun entry => entry.1.periodUnit = unit) =
      table.rows.entries.filter fun entry => entry.1.periodUnit = unit := by
  apply InsightsByPeriodTable.filter_foldl_upsert
  intro sum mem
  obtain ⟨row, _, isTarget⟩ := mem_aggregated.mp (mem_map_of_mem (f := Prod.fst) mem)
  rw [← isTarget]
  exact CompactionStage.into_ne_from isEarlier isSource

/-- A transaction only deletes rows of its stage and of those before. -/
theorem sourceIds_compact_sublist
    (isEarlier : earlier.position ≤ stage.position) (batch : InsightsBatch)
    (tables : InsightsTables) :
    ((batch.compact dbType stage tables).sourceIds earlier).Sublist (tables.sourceIds earlier) := by
  cases isEarlierSource : earlier.periodUnitToCompactFrom with
  | none =>
    rw [sourceIds_raw _ isEarlierSource, sourceIds_raw _ isEarlierSource,
      InsightsBatch.compact, deleteBatch]
    cases isSource : stage.periodUnitToCompactFrom with
    | none => exact filter_sublist.map Prod.fst
    | some unit => exact List.Sublist.refl _
  | some earlierUnit =>
    rw [sourceIds_period _ isEarlierSource, sourceIds_period _ isEarlierSource,
      ← filter_upsertEvents dbType isEarlier isEarlierSource batch
        tables.byPeriod, InsightsBatch.compact, deleteBatch]
    apply List.Sublist.map
    cases isSource : stage.periodUnitToCompactFrom with
    | none => exact List.Sublist.refl _
    | some unit => exact filter_sublist.filter _

theorem not_mem_sourceIds_compact {row : InsightsBatchRow} (listed : row ∈ batch.rows) :
    row.id ∉ (batch.compact dbType stage tables).sourceIds stage := by
  have isDeleted : row.id ∈ batch.rows.map (·.id) := mem_map_of_mem listed
  cases isSource : stage.periodUnitToCompactFrom with
  | none =>
    rw [sourceIds_raw _ isSource, InsightsBatch.compact, deleteBatch, isSource]
    intro mem
    obtain ⟨entry, selected, same⟩ := mem_map.mp mem
    have kept := of_decide_eq_true (mem_filter.mp selected).2
    exact kept (same ▸ isDeleted)
  | some unit =>
    rw [sourceIds_period _ isSource, InsightsBatch.compact, deleteBatch, isSource]
    intro mem
    obtain ⟨entry, selected, same⟩ := mem_map.mp mem
    have stored := (mem_filter.mp selected).1
    have kept := of_decide_eq_true (mem_filter.mp stored).2
    exact kept (same ▸ isDeleted)

theorem compact_of_rows_eq_nil (empty : batch.rows = [])
    (tables : InsightsTables) : batch.compact dbType stage tables = tables := by
  have noUpserts : batch.upsertEvents dbType stage tables.byPeriod =
      tables.byPeriod := by
    rw [upsertEvents, getAggregationQuery, empty]
    rfl
  rw [InsightsBatch.compact, noUpserts, deleteBatch, empty]
  split
  · rw [InsightsRawTable.deleteIds]
    congr 2
    apply ext_entries
    exact filter_eq_self.mpr (by simp)
  · rw [InsightsByPeriodTable.deleteIds]
    congr 2
    apply ext_entries
    exact filter_eq_self.mpr (by simp)

end InsightsTables

def CompactionEvent.call? : CompactionEvent → Option Nat
  | .copies call _ _ | .continues call | .fails call => some call
  | .insertsRaw _ | .compactInsights _ => none

/-- The steps that are left without another full batch. -/
def CompactionPhase.rank : CompactionPhase → Nat
  | .begins => 7
  | .copies => 6
  | .executes _ .upserts => 5
  | .executes _ .counts => 4
  | .executes _ .deletes => 3
  | .executes _ .drops => 2
  | .executes _ .commits => 1

theorem CompactionPhase.rank_pos (phase : CompactionPhase) : 0 < phase.rank := by
  cases phase with
  | begins | copies => decide
  | executes batch statement => cases statement <;> exact Nat.succ_pos _

def CompactionCall.rank (record : CompactionCall) : Nat :=
  (2 - record.stage.position) * 7 + record.phase.rank

/-- A call whose batch is not empty although none of its rows is left. -/
def CompactionCall.isStale (tables : InsightsTables) (stage : CompactionStage)
    (record : CompactionCall) : Bool :=
  match record.phase with
  | .executes batch _ => record.stage = stage && !batch.rows.isEmpty &&
      batch.rows.all fun row => row.id ∉ tables.sourceIds stage
  | .begins | .copies => false

namespace InsightsCompaction

variable {state next : InsightsCompaction} {event : CompactionEvent}
  {call : Nat} {record changed : CompactionCall} {batch : InsightsBatch}

def staleCalls (state : InsightsCompaction) (stage : CompactionStage) : Nat :=
  state.calls.entries.countP fun entry => entry.2.isStale state.tables stage

/-- How many rows of a stage are left and, while it is the same number, how
many batches of the stage are stale. -/
def backlog (state : InsightsCompaction) (stage : CompactionStage) : ℕ ×ₗ ℕ :=
  toLex ((state.tables.sourceIds stage).length, state.staleCalls stage)

/-- The calls of the next state are the same but for one that is not stale
unless it was. -/
def ChangesCall (state next : InsightsCompaction) (call : Nat) (record : CompactionCall) : Prop :=
  next.calls = state.calls.delete call ∨
    ∃ changed : CompactionCall, next.calls = state.calls.set call changed ∧
      ∀ stage, changed.isStale state.tables stage = true → record.isStale state.tables stage = true

theorem countP_set (calls : OrderedMap Nat CompactionCall) (call : Nat)
    (changed : CompactionCall) (counts : CompactionCall → Bool) :
    (calls.set call changed).entries.countP (fun entry => counts entry.2) =
      (calls.delete call).entries.countP (fun entry => counts entry.2) +
        if counts changed then 1 else 0 := by
  rw [(calls.entries_set_perm call changed).countP_eq, countP_cons]

theorem countP_of_get? {calls : OrderedMap Nat CompactionCall}
    (found : calls.get? call = some record) (counts : CompactionCall → Bool) :
    calls.entries.countP (fun entry => counts entry.2) =
      (calls.delete call).entries.countP (fun entry => counts entry.2) +
        if counts record then 1 else 0 := by
  rw [(entries_perm_of_get? found).countP_eq, countP_cons]

theorem ChangesCall.countP_le (changes : ChangesCall state next call record)
    (found : state.calls.get? call = some record) (stage : CompactionStage) :
    next.calls.entries.countP (fun entry => entry.2.isStale state.tables stage) ≤
      state.staleCalls stage := by
  rw [staleCalls, countP_of_get? found (·.isStale state.tables stage)]
  rcases changes with deleted | ⟨changed, isSet, stale⟩
  · rw [deleted]
    exact Nat.le_add_right _ _
  · rw [isSet, countP_set _ _ _ (·.isStale state.tables stage)]
    apply Nat.add_le_add_left
    split
    next isStale =>
      rw [if_pos (stale stage isStale)]
    · exact Nat.zero_le _

theorem staleCalls_of_sourceIds
    (same : next.tables.sourceIds stage = state.tables.sourceIds stage) :
    next.staleCalls stage = next.calls.entries.countP fun entry =>
      entry.2.isStale state.tables stage := by
  rw [staleCalls]
  congr 1
  funext entry
  rw [isStale, isStale, same]

theorem backlog_le (changes : ChangesCall state next call record)
    (found : state.calls.get? call = some record)
    (sublist : (next.tables.sourceIds stage).Sublist (state.tables.sourceIds stage)) :
    next.backlog stage ≤ state.backlog stage := by
  rw [backlog, backlog, Prod.Lex.toLex_le_toLex]
  rcases lt_or_eq_of_le sublist.length_le with less | sameLength
  · exact .inl less
  · right
    refine ⟨sameLength, ?_⟩
    rw [staleCalls_of_sourceIds (sublist.eq_of_length sameLength)]
    exact changes.countP_le found stage

variable {statement : CompactionStatement}

theorem backlog_lt (found : state.calls.get? call = some record)
    (phase : record.phase = .executes batch statement) (notEmpty : batch.rows ≠ [])
    (tables : next.tables = batch.compact dbType record.stage state.tables)
    (changes : next.calls = state.calls.delete call ∨
      ∃ changed : CompactionCall, next.calls = state.calls.set call changed ∧
        ∀ tables stage, changed.isStale tables stage = false) :
    next.backlog record.stage < state.backlog record.stage := by
  have sublist : (next.tables.sourceIds record.stage).Sublist
      (state.tables.sourceIds record.stage) := by
    rw [tables]
    exact sourceIds_compact_sublist (le_refl _) batch _
  rw [backlog, backlog, Prod.Lex.toLex_lt_toLex]
  rcases lt_or_eq_of_le sublist.length_le with less | sameLength
  · exact .inl less
  · -- no row has been deleted, so the batch was stale
    right
    refine ⟨sameLength, ?_⟩
    have same := sublist.eq_of_length sameLength
    have wasStale : record.isStale state.tables record.stage = true := by
      rw [isStale, phase]
      simp only [decide_true, Bool.true_and, Bool.and_eq_true,
        Bool.not_eq_true', isEmpty_eq_false_iff, all_eq_true,
        decide_eq_true_eq]
      refine ⟨notEmpty, fun row listed => ?_⟩
      rw [← same, tables]
      exact not_mem_sourceIds_compact listed
    rw [staleCalls_of_sourceIds same, staleCalls,
      countP_of_get? found (·.isStale state.tables record.stage),
      if_pos wasStale]
    rcases changes with deleted | ⟨changed, isSet, notStale⟩
    · rw [deleted]
      exact Nat.lt_succ_self _
    · rw [isSet, countP_set _ _ _ (·.isStale state.tables record.stage), notStale]
      exact Nat.lt_succ_self _

theorem loops_cases (config : InsightsConfig) (state : InsightsCompaction)
    (call : Nat) (record : CompactionCall) (numberOfCompactedData : Nat) :
    (state.loops config call record numberOfCompactedData).nextCall = state.nextCall ∧
      ((state.loops config call record numberOfCompactedData).calls = state.calls.delete call ∨
        ∃ stage, (state.loops config call record numberOfCompactedData).calls =
            state.calls.set call { record with stage, phase := .begins } ∧
          (numberOfCompactedData ≠ config.compactionBatchSize →
            stage.position = record.stage.position + 1)) := by
  rw [loops]
  split
  next isFull =>
    exact ⟨rfl, .inr ⟨record.stage, rfl, fun other => absurd isFull other⟩⟩
  · split
    next stage isNext =>
      refine ⟨rfl, .inr ⟨stage, rfl, fun _ => ?_⟩⟩
      cases same : record.stage with
      | rawToHour | hourToDay =>
        rw [same] at isNext
        cases isNext
        rfl
      | dayToWeek =>
        rw [same] at isNext
        cases isNext
    · exact ⟨rfl, .inl rfl⟩

/-- What a step that inserts nothing does to the calls. -/
inductive MovesCall (dbType : DbType) (state next : InsightsCompaction) :
    CompactionEvent → Prop
  | starts (process : Nat) (isNext : next = state.compactInsights process) :
      MovesCall dbType state next (.compactInsights process)
  | goesOn {event : CompactionEvent} {call : Nat} {record : CompactionCall}
      (isOf : event.call? = some call) (found : state.calls.get? call = some record)
      (tables : next.tables = state.tables)
      (nextCall : next.nextCall = state.nextCall)
      (changes : ChangesCall state next call record)
      (lower : ∀ changed, next.calls.get? call = some changed →
        changed.rank < record.rank) : MovesCall dbType state next event
  | commits {event : CompactionEvent} {call : Nat} {record : CompactionCall}
      {batch : InsightsBatch} {statement : CompactionStatement}
      (isOf : event.call? = some call) (found : state.calls.get? call = some record)
      (phase : record.phase = .executes batch statement)
      (notEmpty : batch.rows ≠ [])
      (tables : next.tables = batch.compact dbType record.stage state.tables)
      (nextCall : next.nextCall = state.nextCall)
      (changes : next.calls = state.calls.delete call ∨
        ∃ changed : CompactionCall, next.calls = state.calls.set call changed ∧
          ∀ tables stage, changed.isStale tables stage = false) :
      MovesCall dbType state next event

theorem MovesCall.of_set (isOf : event.call? = some call)
    (found : state.calls.get? call = some record)
    (tables : next.tables = state.tables)
    (nextCall : next.nextCall = state.nextCall)
    (calls : next.calls = state.calls.set call changed)
    (stale : ∀ stage, changed.isStale state.tables stage = true →
      record.isStale state.tables stage = true)
    (lower : changed.rank < record.rank) :
    MovesCall dbType state next event := by
  refine .goesOn isOf found tables nextCall (.inr ⟨changed, calls, stale⟩) ?_
  intro other otherFound
  rw [calls, get?_set_self] at otherFound
  cases otherFound
  exact lower

theorem MovesCall.of_delete (isOf : event.call? = some call)
    (found : state.calls.get? call = some record)
    (tables : next.tables = state.tables)
    (nextCall : next.nextCall = state.nextCall)
    (calls : next.calls = state.calls.delete call) :
    MovesCall dbType state next event := by
  refine .goesOn isOf found tables nextCall (.inl calls) ?_
  intro other otherFound
  rw [calls, get?_delete, if_pos rfl] at otherFound
  cases otherFound

variable {inner : InsightsCompaction} {numberOfCompactedData : Nat}

theorem MovesCall.of_loops (isOf : event.call? = some call)
    (found : state.calls.get? call = some record)
    (notFull : numberOfCompactedData ≠ config.compactionBatchSize)
    (tables : inner.tables = state.tables)
    (nextCall : inner.nextCall = state.nextCall)
    (calls : inner.calls = state.calls) :
    MovesCall dbType state (inner.loops config call record numberOfCompactedData) event := by
  obtain ⟨sameNext, deleted | ⟨stage, isSet, position⟩⟩ :=
    loops_cases config inner call record numberOfCompactedData
  · exact .of_delete isOf found ((loops_tables _ _ _ _ _).1.trans tables)
      (sameNext.trans nextCall) (deleted.trans (by rw [calls]))
  · refine .of_set isOf found ((loops_tables _ _ _ _ _).1.trans tables)
      (sameNext.trans nextCall) (isSet.trans (by rw [calls])) ?_ ?_
    · intro _ stale
      cases stale
    · have later := position notFull
      have bounded : stage.position ≤ 2 := by cases stage <;> decide
      have positive := record.phase.rank_pos
      simp only [CompactionCall.rank, later]
      rw [CompactionPhase.rank]
      omega

variable {today : ℤ}

theorem not_isStale_of_isBatch (isBatch : state.tables.IsBatch record.stage config today batch)
    (stage : CompactionStage) :
    ({ record with phase := .executes batch .upserts } :
      CompactionCall).isStale state.tables stage = false := by
  rw [isStale]
  simp only [Bool.and_eq_false_iff, decide_eq_false_iff_not, Bool.not_eq_false']
  by_cases same : record.stage = stage
  · cases rows : batch.rows with
    | nil => exact .inl (.inr rfl)
    | cons first rest =>
      right
      have listed : first ∈ batch.rows := by rw [rows]; exact mem_cons_self
      have isSource := (mem_filter.mp (isBatch.1 first listed)).1
      have known : first.id ∈ state.tables.sourceIds stage := mem_map_of_mem (same ▸ isSource)
      simp [known]
  · exact .inl (.inl same)

theorem movesCall_of_execute (notZero : config.compactionBatchSize ≠ 0)
    (isOf : event.call? = some call) (found : state.calls.get? call = some record)
    (phase : record.phase = .executes batch statement) :
    MovesCall dbType state (state.execute dbType config call record batch statement) event := by
  have setStatement {later : CompactionStatement}
      (lower : (executes batch later).rank < (executes batch statement).rank) :
      MovesCall dbType state (state.setCall call { record with phase := .executes batch later })
        event := by
    refine .of_set isOf found rfl rfl rfl ?_ ?_
    · intro stage stale
      rw [isStale, phase]
      exact stale
    · rw [CompactionCall.rank, CompactionCall.rank, phase]
      exact Nat.add_lt_add_left lower _
  cases statement with
  | upserts | counts | deletes | drops => exact setStatement (Nat.lt_succ_self _)
  | commits =>
    by_cases empty : batch.rows = []
    · refine .of_loops isOf found ?_ ?_ rfl rfl
      · rw [empty]
        exact Ne.symm notZero
      · exact compact_of_rows_eq_nil empty _
    · obtain ⟨sameNext, changes⟩ := loops_cases config ({ state with
          tables := batch.compact dbType record.stage state.tables }.resetFlag
            record.process) call record batch.rows.length
      refine .commits isOf found phase empty (loops_tables _ _ _ _ _).1 sameNext ?_
      rcases changes with deleted | ⟨stage, isSet, _⟩
      · exact .inl deleted
      · exact .inr ⟨_, isSet, fun _ _ => rfl⟩

theorem movesCall_of_step (notZero : config.compactionBatchSize ≠ 0)
    (moved : step dbType config state event = some next)
    (insertsNothing : ∀ row, event ≠ .insertsRaw row) :
    MovesCall dbType state next event := by
  cases event with
  | insertsRaw row => exact absurd rfl (insertsNothing row)
  | compactInsights process =>
    exact .starts process (Option.some.inj moved).symm
  | copies call today batch =>
    obtain ⟨record, found, copied⟩ := Option.bind_eq_some_iff.mp moved
    rw [copy] at copied
    split at copied
    next copying =>
      obtain ⟨phase, isBatch⟩ := copying
      cases copied
      refine .of_set rfl found rfl rfl rfl ?_ ?_
      · intro stage stale
        rw [not_isStale_of_isBatch isBatch] at stale
        cases stale
      · rw [CompactionCall.rank, CompactionCall.rank, phase]
        exact Nat.lt_succ_self _
    · cases copied
  | continues call =>
    obtain ⟨record, found, continued⟩ := Option.bind_eq_some_iff.mp moved
    rw [continueCall] at continued
    split at continued
    next phase =>
      cases continued
      rw [begins]
      split
      · exact .of_loops rfl found (Ne.symm notZero) rfl rfl rfl
      · refine .of_set rfl found rfl rfl rfl ?_ ?_
        · intro _ stale
          cases stale
        · rw [CompactionCall.rank, CompactionCall.rank, phase]
          exact Nat.lt_succ_self _
    · cases continued
    next batch statement phase =>
      split at continued
      · cases continued
      · cases continued
        exact movesCall_of_execute notZero rfl found phase
  | fails call =>
    obtain ⟨record, found, failed⟩ := Option.bind_eq_some_iff.mp moved
    rw [fail] at failed
    split at failed
    · cases failed
    · cases failed
      exact .of_delete rfl found rfl rfl rfl
    · cases failed
      exact .of_delete rfl found rfl rfl rfl

/-- Calls are numbered in their order. -/
def Numbers (state : InsightsCompaction) : Prop :=
  ∀ call record, state.calls.get? call = some record → call < state.nextCall

theorem Numbers.of_changes (numbers : state.Numbers) (nextCall : next.nextCall = state.nextCall)
    (found : state.calls.get? call = some record)
    (changes : next.calls = state.calls.delete call ∨
      ∃ changed, next.calls = state.calls.set call changed) :
    next.Numbers := by
  intro other otherRecord otherFound
  rw [nextCall]
  rcases changes with deleted | ⟨changed, isSet⟩
  · rw [deleted, get?_delete] at otherFound
    split at otherFound
    · cases otherFound
    · exact numbers other otherRecord otherFound
  · rw [isSet, get?_set] at otherFound
    split at otherFound
    next same =>
      exact same ▸ numbers call record found
    · exact numbers other otherRecord otherFound

theorem Numbers.step (numbers : state.Numbers)
    (moved : InsightsCompaction.step dbType config state event = some next)
    (notZero : config.compactionBatchSize ≠ 0) : next.Numbers := by
  by_cases inserts : ∃ row, event = .insertsRaw row
  · obtain ⟨row, rfl⟩ := inserts
    cases moved
    exact numbers
  · cases movesCall_of_step notZero moved fun row same => inserts ⟨row, same⟩ with
    | starts process isNext =>
      subst isNext
      intro other otherRecord otherFound
      change (state.calls.set _ _).get? other = _ at otherFound
      rw [get?_set] at otherFound
      split at otherFound
      next same =>
        exact same ▸ Nat.lt_succ_self _
      · exact Nat.lt_succ_of_lt (numbers other otherRecord otherFound)
    | goesOn isOf found tables nextCall changes lower
    | commits isOf found phase notEmpty tables nextCall changes =>
      refine numbers.of_changes nextCall found (changes.imp_right ?_)
      exact fun ⟨changed, isSet, _⟩ => ⟨changed, isSet⟩

/-- The steps of a call that are left without another full batch; a call that
has not begun has more of them than any other. -/
def remaining (state : InsightsCompaction) (call : Nat) : Nat :=
  match state.calls.get? call with
  | some record => record.rank
  | none => if call < state.nextCall then 0 else 22

/-- The backlogs of the stages and, while they are the same, the steps of a
call. -/
def measure (call : Nat) (state : InsightsCompaction) : (ℕ ×ₗ ℕ) ×ₗ (ℕ ×ₗ ℕ) ×ₗ (ℕ ×ₗ ℕ) ×ₗ ℕ :=
  toLex (state.backlog .rawToHour, toLex (state.backlog .hourToDay,
    toLex (state.backlog .dayToWeek, state.remaining call)))

theorem measure_le (backlogs : ∀ stage, next.backlog stage ≤ state.backlog stage)
    (steps : next.remaining call ≤ state.remaining call) :
    next.measure call ≤ state.measure call := by
  apply Prod.Lex.toLex_mono
  refine ⟨backlogs .rawToHour, Prod.Lex.toLex_mono ?_⟩
  refine ⟨backlogs .hourToDay, Prod.Lex.toLex_mono ?_⟩
  exact ⟨backlogs .dayToWeek, steps⟩

theorem measure_lt (backlogs : ∀ stage, next.backlog stage ≤ state.backlog stage)
    (steps : next.remaining call < state.remaining call) :
    next.measure call < state.measure call := by
  apply Prod.Lex.toLex_strictMono
  apply Prod.mk_lt_mk_of_le_of_lt (backlogs .rawToHour)
  apply Prod.Lex.toLex_strictMono
  apply Prod.mk_lt_mk_of_le_of_lt (backlogs .hourToDay)
  apply Prod.Lex.toLex_strictMono
  exact Prod.mk_lt_mk_of_le_of_lt (backlogs .dayToWeek) steps

theorem measure_lt_of_backlog (earlier : ∀ earlier, earlier.position ≤ stage.position →
      next.backlog earlier ≤ state.backlog earlier)
    (lower : next.backlog stage < state.backlog stage) :
    next.measure call < state.measure call := by
  cases stage with
  | rawToHour => exact Prod.Lex.toLex_lt_toLex.mpr (.inl lower)
  | hourToDay =>
    apply Prod.Lex.toLex_strictMono
    apply Prod.mk_lt_mk_of_le_of_lt (earlier .rawToHour (by decide))
    exact Prod.Lex.toLex_lt_toLex.mpr (.inl lower)
  | dayToWeek =>
    apply Prod.Lex.toLex_strictMono
    apply Prod.mk_lt_mk_of_le_of_lt (earlier .rawToHour (by decide))
    apply Prod.Lex.toLex_strictMono
    apply Prod.mk_lt_mk_of_le_of_lt (earlier .hourToDay (by decide))
    exact Prod.Lex.toLex_lt_toLex.mpr (.inl lower)

theorem remaining_of_get? (found : state.calls.get? call = some record) :
    state.remaining call = record.rank := by
  rw [remaining, found]

theorem CompactionCall.rank_pos (record : CompactionCall) : 0 < record.rank :=
  Nat.add_pos_right _ record.phase.rank_pos

theorem remaining_of_changes {other : Nat} (ne : other ≠ call)
    (nextCall : next.nextCall = state.nextCall)
    (changes : ChangesCall state next call record) :
    next.remaining other = state.remaining other := by
  have sameCall : next.calls.get? other = state.calls.get? other := by
    rcases changes with deleted | ⟨changed, isSet, _⟩
    · rw [deleted, get?_delete, if_neg (Ne.symm ne)]
    · rw [isSet, get?_set_ne _ _ (Ne.symm ne)]
  rw [remaining, remaining, sameCall, nextCall]

theorem measure_of_step (notZero : config.compactionBatchSize ≠ 0)
    (numbers : state.Numbers) (moved : step dbType config state event = some next)
    (insertsNothing : ∀ row, event ≠ .insertsRaw row) (call : Nat) :
    next.measure call ≤ state.measure call ∧
      (event.call? = some call → next.measure call < state.measure call) := by
  cases movesCall_of_step notZero moved insertsNothing with
  | starts process isNext =>
    subst isNext
    refine ⟨measure_le ?_ ?_, fun isCall => by cases isCall⟩
    · intro stage
      rw [backlog, backlog, Prod.Lex.toLex_le_toLex]
      refine .inr ⟨rfl, ?_⟩
      have notFound : state.calls.get? state.nextCall = none := by
        cases found : state.calls.get? state.nextCall with
        | none => rfl
        | some record =>
          exact absurd (numbers _ record found) (Nat.lt_irrefl _)
      change (state.calls.set _ _).entries.countP
        (fun entry => entry.2.isStale state.tables stage) ≤ _
      rw [countP_set _ _ _ (·.isStale state.tables stage), delete_eq_self notFound]
      exact le_refl _
    · rw [remaining, remaining]
      change (match (state.calls.set state.nextCall { process }).get? call with
        | some record => record.rank
        | none => if call < state.nextCall + 1 then 0 else 22) ≤ _
      rw [get?_set]
      by_cases same : state.nextCall = call
      · subst same
        cases found : state.calls.get? state.nextCall with
        | none =>
          simp only [Nat.lt_irrefl, if_false]
          exact Nat.le_succ 21
        | some record =>
          exact absurd (numbers _ record found) (Nat.lt_irrefl _)
      · rw [if_neg same]
        split
        · exact le_refl _
        · split
          · exact Nat.zero_le _
          next notBegun =>
            rw [if_neg]
            omega
  | goesOn isOf found tables nextCall changes lower =>
    rename_i other record
    have backlogs (stage : CompactionStage) :
        next.backlog stage ≤ state.backlog stage := by
      apply backlog_le changes found
      rw [tables]
    have lowered : next.remaining other < state.remaining other := by
      rw [remaining_of_get? found, remaining]
      cases nextFound : next.calls.get? other with
      | some changed => exact lower changed nextFound
      | none =>
        rw [nextCall]
        simp only [numbers other record found, if_true]
        exact CompactionCall.rank_pos record
    by_cases same : call = other
    · subst same
      exact ⟨(measure_lt backlogs lowered).le, fun _ => measure_lt backlogs lowered⟩
    · refine ⟨measure_le backlogs ?_, ?_⟩
      · exact (remaining_of_changes same nextCall changes).le
      · intro isCall
        exact absurd (Option.some.inj (isCall.symm.trans isOf)) same
  | commits isOf found phase notEmpty tables nextCall changes =>
    have lowered : next.measure call < state.measure call := by
      refine measure_lt_of_backlog ?_ (backlog_lt found phase notEmpty tables changes)
      intro earlier isEarlier
      apply backlog_le (changes.imp_right ?_) found
      · rw [tables]
        exact sourceIds_compact_sublist isEarlier _ _
      · rintro ⟨changed, isSet, notStale⟩
        refine ⟨changed, isSet, fun stage stale => ?_⟩
        rw [notStale] at stale
        cases stale
    exact ⟨lowered.le, fun _ => lowered⟩

/-- If from some time on no raw insights are inserted, each call makes only
finitely many steps. -/
theorem ends_of_insertsNothing (notZero : config.compactionBatchSize ≠ 0)
    {states : ℕ → InsightsCompaction} {events : ℕ → CompactionEvent}
    (runs : (step dbType config).RunsForever states events)
    (numbers : (states 0).Numbers) {start : ℕ}
    (insertsNothing : ∀ time, start ≤ time → ∀ row, events time ≠ .insertsRaw row) (call : Nat) :
    ∃ bound, ∀ time, bound ≤ time → ¬ (events time).call? = some call := by
  apply Machine.ends_of_measure
    (fun event : CompactionEvent => event.call? = some call) (measure call)
    start
  intro time isLate
  have numbered := runs.invariant Numbers
    (fun _ _ _ numbers moved => numbers.step moved notZero) numbers time
  exact measure_of_step notZero numbered (runs time) (insertsNothing time isLate) call

/-- The ids of a batch are of rows of its unit, if the rows are still there. -/
def Owns (tables : InsightsTables) (stage : CompactionStage) (batch : InsightsBatch) : Prop :=
  ∀ unit, stage.periodUnitToCompactFrom = some unit → ∀ row ∈ batch.rows,
    row.id < tables.byPeriod.nextId ∧
      ∀ period stored, tables.byPeriod.rows.get? period = some stored →
        stored.id = row.id → period.periodUnit = unit

variable {tables : InsightsTables}

theorem owns_of_isBatch (isBatch : tables.IsBatch stage config today batch) :
    Owns tables stage batch := by
  intro unit isSource row listed
  have keeps : tables.KeepsBatch stage batch := fun row listed =>
    (mem_filter.mp (isBatch.1 row listed)).1
  obtain ⟨period, stored, isStored, _, sameId, hasUnit⟩ := keeps.stored isSource listed
  refine ⟨sameId ▸ tables.byPeriod.fresh period stored isStored, ?_⟩
  intro other otherStored otherFound otherId
  have same := tables.byPeriod.unique other period otherStored stored
    otherFound isStored (otherId.trans sameId.symm)
  rw [same]
  exact hasUnit

theorem Owns.compact {other : InsightsBatch} (owns : Owns tables earlier batch) :
    Owns (other.compact dbType stage tables) earlier batch := by
  have upserted : InsightsByPeriodTable.Upserted tables.byPeriod _
      (other.upsertEvents dbType stage tables.byPeriod) :=
    InsightsByPeriodTable.upserted_foldl _ _
  have kept : ∀ period stored,
      (other.compact dbType stage tables).byPeriod.rows.get? period = some stored →
      (other.upsertEvents dbType stage tables.byPeriod).rows.get? period = some stored := by
    intro period stored found
    rw [InsightsBatch.compact, InsightsTables.deleteBatch] at found
    cases isSource : stage.periodUnitToCompactFrom with
    | none =>
      rw [isSource] at found
      exact found
    | some unit =>
      rw [isSource] at found
      have entry := get?_eq_some_iff.mp found
      exact get?_eq_some_iff.mpr (mem_entries_filter.mp entry).1
  have nextId : (other.compact dbType stage tables).byPeriod.nextId =
      (other.upsertEvents dbType stage tables.byPeriod).nextId := by
    rw [InsightsBatch.compact, InsightsTables.deleteBatch]
    split <;> rfl
  intro unit isSource row listed
  obtain ⟨known, ofUnit⟩ := owns unit isSource row listed
  refine ⟨nextId ▸ lt_of_lt_of_le known upserted.nextId, ?_⟩
  intro period stored found sameId
  rcases upserted.ids period stored (kept period stored found) with
    ⟨old, isOld, oldId⟩ | new
  · exact ofUnit period old isOld (oldId.trans sameId)
  · exact absurd (sameId ▸ known) (Nat.not_lt.mpr new)

/-- The transactions own what they have copied. -/
def OwnsBatches (state : InsightsCompaction) : Prop :=
  ∀ call record batch statement, state.calls.get? call = some record →
    record.phase = .executes batch statement →
    Owns state.tables record.stage batch

theorem OwnsBatches.of_tables (owns : state.OwnsBatches)
    (kept : ∀ stage batch, Owns state.tables stage batch → Owns next.tables stage batch)
    (calls : next.calls = state.calls.delete call ∨
      ∃ changed : CompactionCall, next.calls = state.calls.set call changed ∧
        ∀ batch statement, changed.phase = .executes batch statement →
          Owns next.tables changed.stage batch) : next.OwnsBatches := by
  intro other record batch statement found phase
  rcases calls with deleted | ⟨changed, isSet, owned⟩
  · rw [deleted, get?_delete] at found
    split at found
    · cases found
    · exact kept _ _ (owns other record batch statement found phase)
  · rw [isSet, get?_set] at found
    split at found
    · cases found
      exact owned batch statement phase
    · exact kept _ _ (owns other record batch statement found phase)

theorem OwnsBatches.of_loops (owns : state.OwnsBatches)
    (kept : ∀ stage batch, Owns state.tables stage batch →
      Owns inner.tables stage batch) (calls : inner.calls = state.calls) :
    (inner.loops config call record numberOfCompactedData).OwnsBatches := by
  rw [← (loops_tables config inner call record numberOfCompactedData).1] at kept
  apply owns.of_tables kept
  rw [← calls]
  rcases (loops_cases config inner call record numberOfCompactedData).2 with
    deleted | ⟨stage, isSet, _⟩
  · exact .inl deleted
  · exact .inr ⟨_, isSet, fun _ _ phase => by cases phase⟩

theorem OwnsBatches.step (owns : state.OwnsBatches)
    (moved : InsightsCompaction.step dbType config state event = some next) :
    next.OwnsBatches := by
  cases event with
  | insertsRaw row =>
    cases moved
    exact owns
  | compactInsights process =>
    cases moved
    refine owns.of_tables (fun _ _ owned => owned) (.inr ⟨_, rfl, ?_⟩)
    intro _ _ phase
    cases phase
  | copies call today batch =>
    obtain ⟨record, _, copied⟩ := Option.bind_eq_some_iff.mp moved
    obtain ⟨copying, rfl⟩ := Machine.of_guarded copied
    refine owns.of_tables (fun _ _ owned => owned) (.inr ⟨_, rfl, ?_⟩)
    intro other statement phase
    cases phase
    exact owns_of_isBatch copying.2
  | continues call =>
    obtain ⟨record, found, continued⟩ := Option.bind_eq_some_iff.mp moved
    rw [continueCall] at continued
    split at continued
    · cases continued
      rw [begins]
      split
      · exact owns.of_loops (fun _ _ owned => owned) rfl
      · refine owns.of_tables (fun _ _ owned => owned) (.inr ⟨_, rfl, ?_⟩)
        intro _ _ phase
        cases phase
    · cases continued
    next batch statement phase =>
      split at continued
      · cases continued
      · cases continued
        cases statement with
        | upserts | counts | deletes | drops =>
          refine owns.of_tables (fun _ _ owned => owned) (.inr ⟨_, rfl, ?_⟩)
          intro other statement otherPhase
          cases otherPhase
          exact owns call record batch _ found phase
        | commits => exact owns.of_loops (fun _ _ owned => owned.compact) rfl
  | fails call =>
    obtain ⟨record, _, failed⟩ := Option.bind_eq_some_iff.mp moved
    rw [fail] at failed
    split at failed
    · cases failed
    · cases failed
      exact owns.of_tables (fun _ _ owned => owned) (.inl rfl)
    · cases failed
      exact owns.of_tables (fun _ _ owned => owned) (.inl rfl)

theorem exists_isBatch (tables : InsightsTables) (stage : CompactionStage)
    (config : InsightsConfig) (today : ℤ) :
    ∃ batch, tables.IsBatch stage config today batch := by
  have idsNodup : ((tables.sourceRows stage).map (·.id)).Nodup := by
    change (tables.sourceIds stage).Nodup
    cases isSource : stage.periodUnitToCompactFrom with
    | none =>
      rw [sourceIds_raw _ isSource]
      exact tables.raw.rows.keys_nodup
    | some unit =>
      rw [sourceIds_period _ isSource]
      apply List.Nodup.map_on
      · intro first firstListed second secondListed same
        have firstFound := get?_eq_some_iff.mpr (mem_filter.mp firstListed).1
        have secondFound := get?_eq_some_iff.mpr (mem_filter.mp secondListed).1
        have samePeriod := tables.byPeriod.unique _ _ _ _ firstFound secondFound same
        rw [samePeriod, secondFound] at firstFound
        exact Prod.ext samePeriod (Option.some.inj firstFound).symm
      · exact (List.Nodup.of_map Prod.fst tables.byPeriod.rows.keys_nodup).filter _
  let selected := (tables.sourceRows stage).filter fun row =>
    stage.isSelected config today row.periodStart
  let sorted := selected.mergeSort fun first second =>
    first.periodStart ≤ second.periodStart
  let size := if config.compactionBatchSize = 0 then selected.length
    else min config.compactionBatchSize selected.length
  have permuted : sorted.Perm selected := mergeSort_perm _ _
  have isSorted : sorted.Pairwise fun first second =>
      first.periodStart ≤ second.periodStart := by
    have pairwise : sorted.Pairwise fun first second =>
        decide (first.periodStart ≤ second.periodStart) = true := by
      apply pairwise_mergeSort
      · intro first second third below above
        rw [decide_eq_true_eq] at below above ⊢
        exact below.trans above
      · intro first second
        rw [Bool.or_eq_true, decide_eq_true_eq, decide_eq_true_eq]
        exact le_total _ _
    exact pairwise.imp fun below => of_decide_eq_true below
  have sortedNodup : (sorted.map (·.id)).Nodup := ((permuted.map _).nodup_iff).mpr
      (idsNodup.sublist (filter_sublist.map _))
  have sizeLe : size ≤ sorted.length := by
    rw [permuted.length_eq]
    change (if _ then _ else _) ≤ _
    split
    · exact le_refl _
    · exact min_le_right _ _
  refine ⟨⟨sorted.take size, sortedNodup.sublist ((take_sublist _ _).map _)⟩, ?_, ?_, ?_⟩
  · intro row listed
    exact permuted.mem_iff.mp (mem_of_mem_take listed)
  · exact length_take_of_le sizeLe
  · intro row listed other isSelected notListed
    have inSorted := permuted.mem_iff.mpr isSelected
    rw [← take_append_drop size sorted, mem_append] at inSorted
    rw [← take_append_drop size sorted, pairwise_append] at isSorted
    exact isSorted.2.2 row listed other (inSorted.resolve_left notListed)

/-- A step of a call that is no failure. -/
def CanContinue (dbType : DbType) (config : InsightsConfig) (state : InsightsCompaction) : Prop :=
  ∃ event next, event.call? ≠ none ∧ (∀ call, event ≠ .fails call) ∧
    step dbType config state event = some next

theorem canContinue_of_not_waits (found : state.calls.get? call = some record)
    (phase : record.phase = .executes batch statement)
    (free : state.waits dbType call record = false) :
    state.CanContinue dbType config := by
  refine ⟨.continues call, state.execute dbType config call record batch statement,
    by simp [CompactionEvent.call?], by simp, ?_⟩
  change (state.calls.get? call).bind _ = _
  rw [found, Option.bind_some, continueCall, phase]
  simp [free]

theorem exists_locked_of_waits (blocked : state.waits dbType call record = true) :
    ∃ other otherRecord place, state.calls.get? other = some otherRecord ∧
      place ∈ record.needed dbType state.tables ∧
      place ∈ otherRecord.locked dbType state.tables := by
  obtain ⟨⟨other, otherRecord⟩, listed, conflict⟩ := any_eq_true.mp blocked
  rw [Bool.and_eq_true, any_eq_true] at conflict
  obtain ⟨_, place, needed, locked⟩ := conflict
  exact ⟨other, otherRecord, place, get?_eq_some_iff.mpr listed, needed, of_decide_eq_true locked⟩

/-- A call other than one that upserts or deletes never waits. -/
theorem canContinue_or_writes (found : state.calls.get? call = some record) :
    state.CanContinue dbType config ∨ ∃ batch, record.phase = .executes batch .upserts ∨
        record.phase = .executes batch .deletes := by
  have neverWaits {batch : InsightsBatch} {statement : CompactionStatement}
      (phase : record.phase = .executes batch statement)
      (nothing : record.needed dbType state.tables = []) :
      state.CanContinue dbType config := by
    apply canContinue_of_not_waits found phase
    rw [waits, nothing]
    simp
  cases phase : record.phase with
  | begins =>
    left
    refine ⟨.continues call, state.begins config call record,
      by simp [CompactionEvent.call?], by simp, ?_⟩
    change (state.calls.get? call).bind _ = _
    rw [found, Option.bind_some, continueCall, phase]
  | copies =>
    left
    obtain ⟨batch, isBatch⟩ := exists_isBatch state.tables record.stage config 0
    refine ⟨.copies call 0 batch,
      state.setCall call { record with phase := .executes batch .upserts },
      by simp [CompactionEvent.call?], by simp, ?_⟩
    change (state.calls.get? call).bind _ = _
    rw [found, Option.bind_some, copy, if_pos ⟨phase, isBatch⟩]
  | executes batch statement =>
    cases statement with
    | upserts => exact .inr ⟨batch, .inl rfl⟩
    | deletes => exact .inr ⟨batch, .inr rfl⟩
    | counts | drops | commits =>
      left
      apply neverWaits phase
      rw [CompactionCall.needed, phase]

theorem earlier_of_deletes (owns : state.OwnsBatches) (found : state.calls.get? call = some record)
    (phase : record.phase = .executes batch .deletes)
    {otherRecord : CompactionCall} {otherBatch : InsightsBatch}
    (otherPhase : otherRecord.phase = .executes otherBatch .deletes)
    {place : InsightsPlace} (needed : place ∈ record.needed dbType state.tables)
    (locked : place ∈ otherRecord.locked dbType state.tables) :
    otherRecord.stage.position < record.stage.position := by
  rw [CompactionCall.needed, phase] at needed
  rw [CompactionCall.locked, otherPhase] at locked
  obtain ⟨target, _, rfl⟩ := mem_map.mp
    (show place ∈ CompactionCall.targets dbType otherRecord.stage otherBatch by
      simpa [CompactionStatement.hasUpserted, CompactionStatement.hasDeleted] using locked)
  simp only [InsightsTables.found] at needed
  cases isSource : record.stage.periodUnitToCompactFrom with
  | none =>
    rw [isSource] at needed
    obtain ⟨_, _, isRaw⟩ := mem_map.mp needed
    cases isRaw
  | some unit =>
    rw [isSource] at needed
    obtain ⟨entry, selected, same⟩ := mem_map.mp needed
    obtain ⟨listed, inBatch⟩ := mem_filter.mp selected
    obtain ⟨row, rowListed, sameId⟩ := mem_map.mp (of_decide_eq_true inBatch)
    have hasUnit := (owns call record batch _ found phase unit isSource row
      rowListed).2 entry.1 entry.2 (get?_eq_some_iff.mpr listed) sameId.symm
    rw [InsightsPlace.period.inj same] at hasUnit
    by_contra notEarlier
    exact CompactionStage.into_ne_from (Nat.not_lt.mp notEarlier) isSource hasUnit

theorem canContinue_of_calls (owns : state.OwnsBatches)
    (found : state.calls.get? call = some record) :
    state.CanContinue dbType config := by
  by_contra stuck
  have writes {other : Nat} {otherRecord : CompactionCall}
      (otherFound : state.calls.get? other = some otherRecord) :
      ∃ otherBatch, otherRecord.phase = .executes otherBatch .upserts ∨
        otherRecord.phase = .executes otherBatch .deletes :=
    (canContinue_or_writes otherFound).resolve_left stuck
  have blocked {other : Nat} {otherRecord : CompactionCall}
      {otherBatch : InsightsBatch} {statement : CompactionStatement}
      (otherFound : state.calls.get? other = some otherRecord)
      (phase : otherRecord.phase = .executes otherBatch statement) :
      state.waits dbType other otherRecord = true := by
    by_contra free
    exact stuck (canContinue_of_not_waits otherFound phase (Bool.eq_false_iff.mpr free))
  -- only a call that has upserted holds locks, and it is about to delete
  have deletes {other : Nat} {otherRecord : CompactionCall}
      {otherBatch : InsightsBatch} {statement : CompactionStatement}
      (otherFound : state.calls.get? other = some otherRecord)
      (phase : otherRecord.phase = .executes otherBatch statement) :
      ∃ holder holderRecord holderBatch place, state.calls.get? holder = some holderRecord ∧
        holderRecord.phase = .executes holderBatch .deletes ∧
        place ∈ otherRecord.needed dbType state.tables ∧
        place ∈ holderRecord.locked dbType state.tables := by
    obtain ⟨holder, holderRecord, place, holderFound, needed, locked⟩ :=
      exists_locked_of_waits (blocked otherFound phase)
    obtain ⟨holderBatch, upserts | isDeleting⟩ := writes holderFound
    · rw [CompactionCall.locked, upserts] at locked
      simp [CompactionStatement.hasUpserted, CompactionStatement.hasDeleted] at locked
    · exact ⟨holder, holderRecord, holderBatch, place, holderFound, isDeleting, needed, locked⟩
  -- among the deletions there is none of the first stage
  have none (position : Nat) : ∀ other otherRecord otherBatch,
      state.calls.get? other = some otherRecord →
      otherRecord.phase = .executes otherBatch .deletes →
      otherRecord.stage.position = position → False := by
    induction position using Nat.strong_induction_on with
    | h position ih =>
      intro other otherRecord otherBatch otherFound phase same
      obtain ⟨holder, holderRecord, holderBatch, place, holderFound,
        isDeleting, needed, locked⟩ := deletes otherFound phase
      have isEarlier := earlier_of_deletes owns otherFound phase isDeleting needed locked
      exact ih _ (same ▸ isEarlier) holder holderRecord holderBatch holderFound isDeleting rfl
  obtain ⟨batch, phase⟩ := writes found
  have executes : ∃ statement, record.phase = .executes batch statement :=
    phase.elim (fun phase => ⟨_, phase⟩) fun phase => ⟨_, phase⟩
  obtain ⟨statement, phase⟩ := executes
  obtain ⟨holder, holderRecord, holderBatch, _, holderFound, isDeleting, _⟩ := deletes found phase
  exact none _ holder holderRecord holderBatch holderFound isDeleting rfl

/-- The tables with the values that they count, before any compaction. -/
def start (tables : InsightsTables)
    (ledger : Ledger InsightsRaw InsightsPlace) : InsightsCompaction :=
  { tables, inserted := ledger.map Prod.fst }

/-- Whenever no transaction is in progress, the totals are preserved. -/
def PreservesTotals (dbType : DbType) (state : InsightsCompaction) : Prop :=
  state.isInTransaction = false → state.tables.PreservesTotals dbType state.inserted

/-- When no more raw insights are inserted, each call makes finitely many steps,
and as long as there are calls one of them can go on. -/
structure Terminates (dbType : DbType) (config : InsightsConfig)
    (initial : InsightsCompaction) : Prop where
  ends : ∀ states events, (step dbType config).RunsForever states events →
    states 0 = initial → ∀ start : ℕ,
      (∀ time, start ≤ time → ∀ row, events time ≠ .insertsRaw row) →
      ∀ call, ∃ bound, ∀ time, bound ≤ time → ¬ (events time).call? = some call
  goesOn : ∀ events state, (step dbType config).run initial events =
    some state → ∀ call record, state.calls.get? call = some record →
      state.CanContinue dbType config

theorem Accounted.preservesTotals (accounted : state.Accounted dbType) :
    state.PreservesTotals dbType := by
  intro _
  obtain ⟨ledger, inserted, accounts⟩ := accounted
  rw [← inserted]
  exact accounts.preservesTotals

theorem terminates_start (notZero : config.compactionBatchSize ≠ 0)
    (tables : InsightsTables) (ledger : Ledger InsightsRaw InsightsPlace) :
    Terminates dbType config (start tables ledger) := by
  constructor
  · intro states events runs isStart time quiet call
    refine ends_of_insertsNothing notZero runs ?_ quiet call
    intro other record found
    rw [isStart] at found
    cases found
  · intro events state reached call record found
    refine canContinue_of_calls ?_ found
    apply Machine.invariant_of_run OwnsBatches (fun _ _ _ owns moved => owns.step moved) _ reached
    intro other record batch statement found
    cases found

/-- If each transaction finds its batch as it has copied it, the totals of all
values are preserved, and compactions come to an end. -/
theorem preservesTotals_of_keepsBatches (dbType : DbType)
    (config : InsightsConfig) {tables : InsightsTables}
    {ledger : Ledger InsightsRaw InsightsPlace}
    (accounts : tables.Accounts dbType ledger) {events : List CompactionEvent}
    (keeps : (step dbType config).Meets KeepsBatches (start tables ledger) events) :
    (step dbType config).Always (PreservesTotals dbType) (start tables ledger) events ∧
      (config.compactionBatchSize ≠ 0 → Terminates dbType config (start tables ledger)) := by
  constructor
  · have accounted : (start tables ledger).Accounted dbType := ⟨ledger, rfl, accounts⟩
    refine Machine.always_of_meets ?_ ?_ accounted keeps
    · exact fun _ _ _ accounted kept stepped => accounted.step kept stepped
    · exact fun _ accounted => accounted.preservesTotals
  · exact fun notZero => terminates_start notZero tables ledger

def sampleInsight : InsightsRaw where
  metaId := 1
  type := .success
  value := 1
  timestamp := 4000000

def sampleBatch : InsightsBatch where
  rows := [rawBatchRow (0, sampleInsight)]
  nodup := nodup_singleton _

def transaction (call : Nat) : List CompactionEvent :=
  .copies call 0 sampleBatch :: List.replicate 5 (.continues call)

theorem preservesTotals_transaction : ∃ last,
    (step .sqlite {}).run (start {} []) (.insertsRaw sampleInsight ::
      .compactInsights 0 :: .continues 0 :: transaction 0) = some last ∧
    last.tables.PreservesTotals .sqlite [sampleInsight] := by
  have accounts : InsightsTables.Accounts .sqlite {} [] := ⟨by simp, by simp, by simp⟩
  have preserves := (preservesTotals_of_keepsBatches .sqlite {} accounts
    (show (step .sqlite {}).Meets KeepsBatches (start {} [])
      (.insertsRaw sampleInsight :: .compactInsights 0 :: .continues 0 ::
        transaction 0) by decide +kernel)).1
  have reached : ((step .sqlite {}).run (start {} []) (.insertsRaw sampleInsight ::
      .compactInsights 0 :: .continues 0 :: transaction 0)).isSome := by
    decide +kernel
  obtain ⟨last, isLast⟩ := Option.isSome_iff_exists.mp reached
  refine ⟨last, isLast, ?_⟩
  have facts : ∀ state ∈ (step .sqlite {}).run (start {} [])
      (.insertsRaw sampleInsight :: .compactInsights 0 :: .continues 0 :: transaction 0),
      state.isInTransaction = false ∧ state.inserted = [sampleInsight] := by
    decide +kernel
  obtain ⟨isIdle, inserted⟩ := facts last isLast
  rw [← inserted]
  exact preserves _ (prefix_refl _) last isLast isIdle

/-- Two processes compact the same raw insight: it is counted twice. -/
theorem counted_twice : ∃ last, (step .sqlite {}).run (start {} []) ([.insertsRaw sampleInsight,
      .compactInsights 0, .compactInsights 1, .continues 0, .continues 1,
      .copies 1 0 sampleBatch] ++ transaction 0 ++ List.replicate 5 (.continues 1)) = some last ∧
    ¬ last.PreservesTotals .sqlite := by
  have facts : ∀ state ∈ (step .sqlite {}).run (start {} [])
      ([.insertsRaw sampleInsight, .compactInsights 0, .compactInsights 1,
        .continues 0, .continues 1, .copies 1 0 sampleBatch] ++
          transaction 0 ++ List.replicate 5 (.continues 1)),
      state.isInTransaction = false ∧ state.tables.total 1 .success ≠
        totalOf 1 .success state.inserted := by
    decide +kernel
  have reached : ((step .sqlite {}).run (start {} [])
      ([.insertsRaw sampleInsight, .compactInsights 0, .compactInsights 1,
        .continues 0, .continues 1, .copies 1 0 sampleBatch] ++
          transaction 0 ++ List.replicate 5 (.continues 1))).isSome := by
    decide +kernel
  obtain ⟨last, isLast⟩ := Option.isSome_iff_exists.mp reached
  refine ⟨last, isLast, fun preserves => ?_⟩
  obtain ⟨isIdle, ne⟩ := facts last isLast
  exact ne ((preserves isIdle).totals 1 .success)

end InsightsCompaction

end N8n
