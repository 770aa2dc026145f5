import N8n.Insights.InsightsByPeriod
import Mathlib.Data.Finset.Erase
import Mathlib.Data.Finset.Insert

/-!
# Compaction of insights

Any number of processes run `compactInsights`, each with one transaction at a
time.  What a transaction writes is seen by others when it is committed; until
then they wait for the rows it has written.
-/

namespace N8n

/-- Where values are counted, and what a transaction locks: a raw row, or a
value of the unique index. -/
inductive InsightsPlace where
  | raw (id : Nat)
  | period (period : InsightsPeriod)
deriving DecidableEq

inductive CompactionStatement where
  | upserts
  | counts
  | deletes
  | drops
  | commits
deriving DecidableEq

/-- What a call does next: it looks at the flag of its process, copies a batch
into the temporary table, or executes another statement of its transaction. -/
inductive CompactionPhase where
  | begins
  | copies
  | executes (batch : InsightsBatch) (next : CompactionStatement)
deriving DecidableEq

structure CompactionCall where
  process : Nat
  stage : CompactionStage := .rawToHour
  phase : CompactionPhase := .begins

/-- The committed tables, the calls in progress and the processes whose flag is
set.  `inserted` lists the raw insights that were ever inserted. -/
structure InsightsCompaction where
  tables : InsightsTables := {}
  calls : OrderedMap Nat CompactionCall := .empty
  nextCall : Nat := 0
  isRunningCompaction : Finset Nat := ∅
  inserted : List InsightsRaw := []

inductive CompactionEvent where
  | insertsRaw (row : InsightsRaw)
  | compactInsights (process : Nat)
  | copies (call : Nat) (today : ℤ) (batch : InsightsBatch)
  | continues (call : Nat)
  | fails (call : Nat)

namespace CompactionStage

def next? : CompactionStage → Option CompactionStage
  | .rawToHour => some .hourToDay
  | .hourToDay => some .dayToWeek
  | .dayToWeek => none

end CompactionStage

namespace CompactionStatement

def hasUpserted : CompactionStatement → Bool
  | .upserts => false
  | .counts | .deletes | .drops | .commits => true

def hasDeleted : CompactionStatement → Bool
  | .upserts | .counts | .deletes => false
  | .drops | .commits => true

end CompactionStatement

/-- The rows that `DELETE` finds. -/
def InsightsTables.found (tables : InsightsTables) (stage : CompactionStage)
    (batch : InsightsBatch) : List InsightsPlace :=
  let ids := batch.rows.map (·.id)
  match stage.periodUnitToCompactFrom with
  | none => (tables.raw.rows.keys.filter fun id => id ∈ ids).map .raw
  | some _ => (tables.byPeriod.rows.entries.filter fun entry =>
    entry.2.id ∈ ids).map fun entry => .period entry.1

namespace CompactionCall

variable (dbType : DbType) (tables : InsightsTables)

def targets (stage : CompactionStage) (batch : InsightsBatch) : List InsightsPlace :=
  batch.rows.map fun row => .period (InsightsBatch.target dbType stage row)

/-- The rows that a transaction has written. -/
def locked (call : CompactionCall) : List InsightsPlace :=
  match call.phase with
  | .executes batch next =>
    (if next.hasUpserted then targets dbType call.stage batch else []) ++
      if next.hasDeleted then tables.found call.stage batch else []
  | .begins | .copies => []

/-- The rows that the next statement writes. -/
def needed (call : CompactionCall) : List InsightsPlace :=
  match call.phase with
  | .executes batch .upserts => targets dbType call.stage batch
  | .executes batch .deletes => tables.found call.stage batch
  | _ => []

end CompactionCall

namespace InsightsCompaction

variable (dbType : DbType) (config : InsightsConfig) (state : InsightsCompaction) (call : Nat)
  (record : CompactionCall)

/-- The next statement waits for a row that another transaction has written. -/
def waits : Bool :=
  state.calls.entries.any fun (other, otherRecord) => other ≠ call &&
    (record.needed dbType state.tables).any fun place =>
      place ∈ otherRecord.locked dbType state.tables

def setCall : InsightsCompaction :=
  { state with calls := state.calls.set call record }

def insertRaw (row : InsightsRaw) : InsightsCompaction :=
  { state with
    tables := { state.tables with raw := state.tables.raw.insert row }
    inserted := state.inserted ++ [row] }

variable (process : Nat)

def compactInsights : InsightsCompaction :=
  { state with
    calls := state.calls.set state.nextCall { process }
    nextCall := state.nextCall + 1 }

/-- The loops of `compactInsights` go on with the same stage after a full batch
and with the next one otherwise. -/
def loops (numberOfCompactedData : Nat) : InsightsCompaction :=
  if numberOfCompactedData = config.compactionBatchSize then
    state.setCall call { record with phase := .begins }
  else match record.stage.next? with
    | some stage => state.setCall call { record with stage, phase := .begins }
    | none => { state with calls := state.calls.delete call }

def setFlag : InsightsCompaction :=
  { state with isRunningCompaction := insert process state.isRunningCompaction }

def resetFlag : InsightsCompaction :=
  { state with isRunningCompaction := state.isRunningCompaction.erase process }

/-- A compaction is skipped if one is running in the process. -/
def begins : InsightsCompaction :=
  if record.process ∈ state.isRunningCompaction then
    state.loops config call record 0
  else (state.setFlag record.process).setCall call { record with phase := .copies }

variable (batch : InsightsBatch)

def commit : InsightsCompaction :=
  InsightsCompaction.loops config ({ state with
      tables := batch.compact dbType record.stage state.tables }.resetFlag
        record.process) call record batch.rows.length

def execute : CompactionStatement → InsightsCompaction
  | .upserts => state.setCall call { record with phase := .executes batch .counts }
  | .counts => state.setCall call { record with phase := .executes batch .deletes }
  | .deletes => state.setCall call { record with phase := .executes batch .drops }
  | .drops => state.setCall call { record with phase := .executes batch .commits }
  | .commits => state.commit dbType config call record batch

def continueCall : Option InsightsCompaction :=
  match record.phase with
  | .begins => some (state.begins config call record)
  | .copies => none
  | .executes batch next =>
    if state.waits dbType call record then none
    else some (state.execute dbType config call record batch next)

/-- A failed transaction is rolled back, and the call rejects. -/
def fail : Option InsightsCompaction :=
  match record.phase with
  | .begins => none
  | .copies | .executes _ _ =>
    some { state.resetFlag record.process with
      calls := state.calls.delete call }

def copy (today : ℤ) (batch : InsightsBatch) : Option InsightsCompaction :=
  if record.phase = .copies ∧ state.tables.IsBatch record.stage config today batch then
    some (state.setCall call { record with phase := .executes batch .upserts })
  else none

def step : Machine InsightsCompaction CompactionEvent := fun state event =>
  match event with
  | .insertsRaw row => some (state.insertRaw row)
  | .compactInsights process => some (state.compactInsights process)
  | .copies call today batch => do
    state.copy config call (← state.calls.get? call) today batch
  | .continues call => do
    state.continueCall dbType config call (← state.calls.get? call)
  | .fails call => do
    state.fail call (← state.calls.get? call)

/-- A transaction has copied rows and is not over. -/
def isInTransaction : Bool :=
  state.calls.values.any fun record =>
    match record.phase with
    | .executes _ _ => true
    | .begins | .copies => false

end InsightsCompaction

end N8n
