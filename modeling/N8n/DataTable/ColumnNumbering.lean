import N8n.DataTable.DataTableColumns
import Mathlib.Tactic.NormNum

/-!
# The columns stay numbered

A transaction keeps the numbers of the columns if it shifts them from the place
that it opens or closes on, and only then.
-/

namespace N8n

open Numbering List OrderedMap

namespace DataTableColumns

def indexes (columns : OrderedMap Nat DataTableColumn) : List ℚ :=
  columns.values.map DataTableColumn.index

section

variable (table : DataTableColumns)

def IsNumbered : Prop := Numbered (indexes table.columns)

def acceptsNewName (columnName : String) : Bool :=
  columnName ∉ DATA_TABLE_SYSTEM_COLUMNS && columnName ≠ DATA_TABLE_SYSTEM_TESTING_COLUMN &&
    !(table.columns.values.any fun column => column.name = columnName) &&
    columnName ∉ table.ddlColumns

/-- The transaction gives a new column a whole index up to the number of
columns, and the index of a column that was read earlier still parts the other
columns as the column does.  A column that is gone must not be moved, and may
be deleted only if it had the highest index. -/
def keepsNumbers : ColumnPhase → Prop
  | .addsColumn schema => table.acceptsNewName schema.name = true →
      ∀ index ∈ schema.index, index.isInt = true ∧ 0 ≤ index ∧ index ≤ table.columns.size
  | .movesColumn columnId column targetIndex =>
    targetIndex < table.columns.size →
    ∃ current ∈ table.columns.get? columnId, Parts current.index column.index
      (indexes (table.columns.delete columnId))
  | .deletesColumn columnId column => column.name ∈ table.ddlColumns →
      (∃ current ∈ table.columns.get? columnId, Parts current.index
        column.index (indexes (table.columns.delete columnId))) ∨
      table.columns.get? columnId = none ∧ ∀ index ∈ indexes table.columns, ¬ column.index ≤ index
  | .findsColumn _ _ | .renamesColumn _ _ _ => True

end

instance (table : DataTableColumns) : ∀ phase, Decidable (table.keepsNumbers phase)
  | .addsColumn schema => inferInstanceAs (Decidable (_ → ∀ index ∈ schema.index, _))
  | .movesColumn columnId column _ => inferInstanceAs (Decidable (_ →
      ∃ current ∈ table.columns.get? columnId, Parts current.index column.index _))
  | .deletesColumn columnId column => inferInstanceAs (Decidable (_ →
      (∃ current ∈ table.columns.get? columnId, Parts current.index
        column.index _) ∨ _ ∧ ∀ index ∈ indexes table.columns, _))
  | .findsColumn _ _ => isTrue trivial
  | .renamesColumn _ _ _ => isTrue trivial

/-- Columns other than one that is moved keep their relative order. -/
def KeepsOrder (columns next : OrderedMap Nat DataTableColumn) (moved : Option Nat) : Prop :=
  ∀ first second, some first ≠ moved → some second ≠ moved →
    ∀ firstBefore secondBefore firstAfter secondAfter, columns.get? first = some firstBefore →
      columns.get? second = some secondBefore →
      next.get? first = some firstAfter →
      next.get? second = some secondAfter →
      (firstAfter.index < secondAfter.index ↔ firstBefore.index < secondBefore.index)

/-- A transaction that is committed puts the new or moved column at its index
and keeps the order of all others. -/
def PutsInPlace (table next : DataTableColumns) : ColumnPhase → Prop
  | .addsColumn schema =>
    KeepsOrder table.columns next.columns none ∧
    (table.acceptsNewName schema.name = true →
      ∃ column, next.columns.get? table.nextId = some column ∧
        column.name = schema.name ∧ column.type = schema.type ∧
        column.index = schema.index.getD table.columns.size)
  | .movesColumn columnId _ targetIndex =>
    KeepsOrder table.columns next.columns (some columnId) ∧
    (targetIndex < table.columns.size →
      ∃ column, next.columns.get? columnId = some column ∧ column.index = targetIndex)
  | .findsColumn _ _ | .deletesColumn _ _ | .renamesColumn _ _ _ =>
    KeepsOrder table.columns next.columns none

variable {table next : DataTableColumns} {columns : OrderedMap Nat DataTableColumn} {columnId : Nat}
  {column : DataTableColumn}

theorem length_indexes (columns : OrderedMap Nat DataTableColumn) :
    (indexes columns).length = columns.size := by
  rw [indexes, length_map, values, length_map, size]

theorem indexes_shift_up (columns : OrderedMap Nat DataTableColumn) (lowestIndex : ℚ) :
    indexes (shiftColumns columns lowestIndex 1) = (indexes columns).map (raise lowestIndex) := by
  rw [indexes, shiftColumns, values_mapValues, indexes, map_map, map_map]
  apply map_congr_left
  intro column _
  rw [Function.comp_apply, Function.comp_apply, raise]
  split
  · rfl
  · rfl

theorem indexes_shift_down (columns : OrderedMap Nat DataTableColumn) (lowestIndex : ℚ) :
    indexes (shiftColumns columns lowestIndex (-1)) =
      (indexes columns).map (lower lowestIndex) := by
  rw [indexes, shiftColumns, values_mapValues, indexes, map_map, map_map]
  apply map_congr_left
  intro column _
  rw [Function.comp_apply, Function.comp_apply, lower]
  split
  · exact (sub_eq_add_neg _ _).symm
  · rfl

theorem delete_shiftColumns (columns : OrderedMap Nat DataTableColumn)
    (lowestIndex delta : ℚ) (columnId : Nat) :
    (shiftColumns columns lowestIndex delta).delete columnId =
      shiftColumns (columns.delete columnId) lowestIndex delta :=
  delete_mapValues _ _ _

theorem indexes_perm_of_get? (found : columns.get? columnId = some column) :
    (indexes columns).Perm (column.index :: indexes (columns.delete columnId)) := by
  have perm := entries_perm_of_get? found
  exact (perm.map Prod.snd).map DataTableColumn.index

theorem indexes_set_perm (columns : OrderedMap Nat DataTableColumn)
    (columnId : Nat) (column : DataTableColumn) :
    (indexes (columns.set columnId column)).Perm
      (column.index :: indexes (columns.delete columnId)) := by
  have perm := entries_set_perm columns columnId column
  exact (perm.map Prod.snd).map DataTableColumn.index

theorem mem_indexes (found : columns.get? columnId = some column) :
    column.index ∈ indexes columns := by
  apply mem_map_of_mem
  exact mem_values_of_mem_entries (get?_eq_some_iff.mp found)

theorem get?_shiftColumns (columns : OrderedMap Nat DataTableColumn)
    (lowestIndex delta : ℚ) (columnId : Nat) :
    (shiftColumns columns lowestIndex delta).get? columnId =
      (columns.get? columnId).map fun column =>
        if lowestIndex ≤ column.index then
          { column with index := column.index + delta }
        else column :=
  get?_mapValues _ _ _

theorem IsNumbered.exists_place (numbered : Numbered (indexes columns))
    (found : columns.get? columnId = some column) :
    ∃ place : Nat, (place : ℚ) = column.index ∧ ∀ other otherColumn, other ≠ columnId →
        columns.get? other = some otherColumn →
        otherColumn.index ≠ (place : ℚ) := by
  have apart := numbered.congr (indexes_perm_of_get? found).symm
  obtain ⟨nodup, bounded⟩ := numbered_iff.mp apart
  obtain ⟨place, _, same⟩ := bounded column.index (.head _)
  refine ⟨place, same, fun other otherColumn ne foundOther equal => ?_⟩
  apply (nodup_cons.mp nodup).1
  rw [← same, ← equal]
  apply mem_indexes
  rw [get?_delete, if_neg (Ne.symm ne)]
  exact foundOther

theorem updateColumn_of_get? (found : columns.get? columnId = some column)
    (change : DataTableColumn → DataTableColumn) :
    updateColumn columns columnId change = columns.set columnId (change column) := by
  rw [updateColumn, found]

variable {current : DataTableColumn} {targetIndex : Nat}
  {change : DataTableColumn → DataTableColumn}

theorem numbered_move_iff (numbered : Numbered (indexes columns))
    (found : columns.get? columnId = some current) (lowestIndex : ℚ)
    (inRange : targetIndex < columns.size)
    (changes : ∀ moved, (change moved).index = targetIndex) :
    Numbered (indexes (updateColumn (shiftColumns
      (shiftColumns columns lowestIndex (-1)) targetIndex 1) columnId change)) ↔
      Parts current.index lowestIndex (indexes (columns.delete columnId)) := by
  have isThere : ∃ moved, (shiftColumns (shiftColumns columns lowestIndex (-1))
      targetIndex 1).get? columnId = some moved := by
    rw [get?_shiftColumns, get?_shiftColumns, found]
    exact ⟨_, rfl⟩
  obtain ⟨moved, isMoved⟩ := isThere
  have apart := numbered.congr (indexes_perm_of_get? found).symm
  rw [updateColumn_of_get? isMoved,
    numbered_congr (indexes_set_perm _ columnId (change moved)), changes,
    delete_shiftColumns, delete_shiftColumns, indexes_shift_up,
    indexes_shift_down]
  constructor
  · intro inserted
    exact apart.parts_of_lower inserted.of_insert.1
  · intro parts
    apply (apart.remove parts).insert
    have size := (indexes_perm_of_get? found).length_eq
    rw [length_indexes, length_cons] at size
    rw [length_map]
    omega

theorem not_numbered_move (missing : columns.get? columnId = none)
    (lowestIndex : ℚ) (inRange : targetIndex < columns.size)
    (change : DataTableColumn → DataTableColumn) :
    ¬ Numbered (indexes (updateColumn (shiftColumns
      (shiftColumns columns lowestIndex (-1)) targetIndex 1) columnId change)) := by
  rw [updateColumn, get?_shiftColumns, get?_shiftColumns, missing]
  simp only [Option.map_none]
  rw [indexes_shift_up]
  apply not_numbered_raise
  rw [indexes_shift_down, length_map, length_indexes]
  exact inRange

theorem numbered_delete_iff (numbered : Numbered (indexes columns))
    (found : columns.get? columnId = some current) (lowestIndex : ℚ) :
    Numbered (indexes (shiftColumns (columns.delete columnId) lowestIndex (-1))) ↔
      Parts current.index lowestIndex (indexes (columns.delete columnId)) := by
  have apart := numbered.congr (indexes_perm_of_get? found).symm
  rw [indexes_shift_down]
  exact ⟨apart.parts_of_lower, apart.remove⟩

theorem numbered_delete_missing_iff (numbered : Numbered (indexes columns))
    (missing : columns.get? columnId = none) (lowestIndex : ℚ) :
    Numbered (indexes (shiftColumns (columns.delete columnId) lowestIndex (-1))) ↔
      ∀ index ∈ indexes columns, ¬ lowestIndex ≤ index := by
  rw [delete_eq_self missing, indexes_shift_down]
  constructor
  · exact numbered.lower_all
  · intro above
    have same : (indexes columns).map (lower lowestIndex) = indexes columns := by
      apply (map_congr_left fun index mem => ?_).trans (map_id _)
      rw [lower, if_neg (above index mem), id]
    rw [same]
    exact numbered

theorem numbered_add_iff (numbered : Numbered (indexes columns))
    (missing : columns.get? columnId = none) (added : DataTableColumn) :
    Numbered (indexes ((shiftColumns columns added.index 1).set columnId added)) ↔
      added.index.isInt = true ∧ 0 ≤ added.index ∧ added.index ≤ columns.size := by
  rw [numbered_congr (indexes_set_perm _ columnId added), delete_shiftColumns,
    delete_eq_self missing, indexes_shift_up]
  constructor
  · intro inserted
    obtain ⟨place, le, same⟩ := inserted.of_insert.2
    rw [length_indexes] at le
    rw [← same]
    exact ⟨rfl, Nat.cast_nonneg place, Nat.cast_le.mpr le⟩
  · rintro ⟨isInt, notNegative, le⟩
    obtain ⟨place, same⟩ : ∃ place : Nat, (place : ℚ) = added.index := by
      have whole := Rat.eq_num_of_isInt isInt
      have numerator := Rat.num_nonneg.mpr notNegative
      refine ⟨added.index.num.toNat, ?_⟩
      rw [← Int.cast_natCast, Int.toNat_of_nonneg numerator]
      exact whole.symm
    rw [← same] at le ⊢
    apply numbered.insert
    rw [length_indexes]
    exact Nat.cast_le.mp le

theorem keepsOrder_shift_up (columns : OrderedMap Nat DataTableColumn)
    (lowestIndex : ℚ) (moved : Option Nat) :
    KeepsOrder columns (shiftColumns columns lowestIndex 1) moved := by
  intro first second _ _ firstBefore secondBefore firstAfter secondAfter
    isFirst isSecond isFirstAfter isSecondAfter
  rw [get?_shiftColumns, isFirst] at isFirstAfter
  rw [get?_shiftColumns, isSecond] at isSecondAfter
  cases isFirstAfter
  cases isSecondAfter
  have raised (column : DataTableColumn) : (if lowestIndex ≤ column.index then
        { column with index := column.index + 1 } else column).index =
        raise lowestIndex column.index := by
    rw [raise]
    split
    · rfl
    · rfl
  rw [raised, raised]
  exact raise_lt_raise_iff

theorem keepsOrder_shift_down (numbered : Numbered (indexes columns))
    (found : columns.get? columnId = some current) {lowestIndex : ℚ}
    (parts : Parts current.index lowestIndex (indexes (columns.delete columnId))) :
    KeepsOrder columns (shiftColumns columns lowestIndex (-1)) (some columnId) := by
  intro first second firstNe secondNe firstBefore secondBefore firstAfter
    secondAfter isFirst isSecond isFirstAfter isSecondAfter
  rw [get?_shiftColumns, isFirst] at isFirstAfter
  rw [get?_shiftColumns, isSecond] at isSecondAfter
  cases isFirstAfter
  cases isSecondAfter
  have lowered (column : DataTableColumn) : (if lowestIndex ≤ column.index then
        { column with index := column.index + -1 } else column).index =
        lower lowestIndex column.index := by
    rw [lower]
    split
    · exact (sub_eq_add_neg _ _).symm
    · rfl
  rw [lowered, lowered]
  obtain ⟨gap, isGap, apart⟩ := IsNumbered.exists_place numbered found
  have place (other : Nat) (column : DataTableColumn) (ne : some other ≠ some columnId)
      (isColumn : columns.get? other = some column) :
      ∃ place : Nat, (place : ℚ) = column.index ∧ place ≠ gap ∧
        (lowestIndex ≤ (place : ℚ) ↔ (gap : ℚ) < place) := by
    obtain ⟨place, same, _⟩ := IsNumbered.exists_place numbered isColumn
    have otherNe : other ≠ columnId := fun equal => ne (equal ▸ rfl)
    refine ⟨place, same, ?_, ?_⟩
    · rintro rfl
      exact apart other column otherNe isColumn same.symm
    · rw [isGap, same]
      apply parts
      apply mem_indexes
      rw [get?_delete, if_neg (Ne.symm otherNe)]
      exact isColumn
  obtain ⟨firstPlace, firstSame, firstApart, firstParted⟩ := place first firstBefore firstNe isFirst
  obtain ⟨secondPlace, secondSame, secondApart, secondParted⟩ :=
    place second secondBefore secondNe isSecond
  rw [← firstSame, ← secondSame]
  exact lower_lt_lower_iff firstParted secondParted firstApart secondApart

variable {moved : Option Nat} {last : OrderedMap Nat DataTableColumn}

theorem KeepsOrder.trans {middle : OrderedMap Nat DataTableColumn}
    (first : KeepsOrder columns middle moved)
    (second : KeepsOrder middle last moved)
    (kept : ∀ id, (columns.get? id).isSome = true →
      (last.get? id).isSome = true → (middle.get? id).isSome = true) :
    KeepsOrder columns last moved := by
  intro one two oneNe twoNe oneBefore twoBefore oneAfter twoAfter isOne isTwo isOneAfter isTwoAfter
  obtain ⟨oneMiddle, isOneMiddle⟩ := Option.isSome_iff_exists.mp
    (kept one (by rw [isOne]; rfl) (by rw [isOneAfter]; rfl))
  obtain ⟨twoMiddle, isTwoMiddle⟩ := Option.isSome_iff_exists.mp
    (kept two (by rw [isTwo]; rfl) (by rw [isTwoAfter]; rfl))
  rw [second one two oneNe twoNe _ _ _ _ isOneMiddle isTwoMiddle isOneAfter isTwoAfter]
  exact first one two oneNe twoNe _ _ _ _ isOne isTwo isOneMiddle isTwoMiddle

theorem keepsOrder_of_same (same : ∀ id before after, some id ≠ moved →
      columns.get? id = some before → last.get? id = some after →
      after.index = before.index) :
    KeepsOrder columns last moved := by
  intro one two oneNe twoNe oneBefore twoBefore oneAfter twoAfter isOne isTwo isOneAfter isTwoAfter
  rw [same one _ _ oneNe isOne isOneAfter, same two _ _ twoNe isTwo isTwoAfter]

variable {schema : DataTableCreateColumnSchema}

theorem addColumn_of_accepts (accepts : table.acceptsNewName schema.name = true) :
    table.addColumn schema = .ok {
      columns := (table.makeRoom schema).2.set table.nextId
        { name := schema.name, type := schema.type
          index := (table.makeRoom schema).1 }
      nextId := table.nextId + 1
      ddlColumns := table.ddlColumns ++ [schema.name] } := by
  simp only [acceptsNewName, Bool.and_eq_true, Bool.not_eq_true', decide_eq_true_eq] at accepts
  obtain ⟨⟨⟨notSystem, notTesting⟩, unique⟩, noDdlColumn⟩ := accepts
  rw [addColumn, validateNotSystemColumn, if_neg notSystem, if_neg notTesting,
    validateUniqueColumnName, unique, addDdlColumn, if_neg noDdlColumn]
  rfl

theorem addColumn_of_not_accepts (refuses : table.acceptsNewName schema.name = false) :
    ∃ error, table.addColumn schema = .error error := by
  rw [addColumn, validateNotSystemColumn]
  by_cases isSystem : schema.name ∈ DATA_TABLE_SYSTEM_COLUMNS
  · rw [if_pos isSystem]
    exact ⟨_, rfl⟩
  · rw [if_neg isSystem]
    by_cases isTesting : schema.name = DATA_TABLE_SYSTEM_TESTING_COLUMN
    · rw [if_pos isTesting]
      exact ⟨_, rfl⟩
    · rw [if_neg isTesting, validateUniqueColumnName]
      cases taken : table.columns.values.any fun column => column.name = schema.name with
      | true => exact ⟨_, rfl⟩
      | false =>
        have isDdlColumn : schema.name ∈ table.ddlColumns := by
          simpa [acceptsNewName, isSystem, isTesting, taken] using refuses
        rw [addDdlColumn, if_pos isDdlColumn]
        exact ⟨_, rfl⟩

theorem moveColumn_of_lt (inRange : targetIndex < table.columns.size) :
    table.moveColumn columnId column targetIndex = .ok { table with
      columns := updateColumn (shiftColumns
        (shiftColumns table.columns column.index (-1)) targetIndex 1) columnId
          fun moved => { moved with index := targetIndex } } := by
  have notNegative : ¬ (targetIndex : ℤ) < 0 := Int.not_lt.mpr (by omega)
  have notAbove : ¬ (targetIndex : ℤ) ≥ table.columns.size := by omega
  rw [moveColumn, if_neg notNegative, if_neg notAbove]
  rfl

theorem moveColumn_of_not_lt {targetIndex : Nat} (outOfRange : ¬ targetIndex < table.columns.size) :
    ∃ error, table.moveColumn columnId column targetIndex = .error error := by
  have notNegative : ¬ (targetIndex : ℤ) < 0 := Int.not_lt.mpr (by omega)
  have isAbove : (targetIndex : ℤ) ≥ table.columns.size := by omega
  rw [moveColumn, if_neg notNegative, if_pos isAbove]
  exact ⟨_, rfl⟩

theorem deleteColumn_of_mem (isDdlColumn : column.name ∈ table.ddlColumns) :
    table.deleteColumn columnId column = .ok { table with
      columns := shiftColumns (table.columns.delete columnId) column.index (-1)
      ddlColumns := table.ddlColumns.erase column.name } := by
  rw [deleteColumn, dropColumnFromTable, if_pos isDdlColumn]
  rfl

theorem deleteColumn_of_not_mem (noDdlColumn : column.name ∉ table.ddlColumns) :
    ∃ error, table.deleteColumn columnId column = .error error := by
  rw [deleteColumn, dropColumnFromTable, if_neg noDdlColumn]
  exact ⟨_, rfl⟩

theorem renameColumn_eq_ok {newName : String}
    (renamed : table.renameColumn columnId column newName = .ok next) :
    next.columns = updateColumn table.columns columnId
      (fun renamed => { renamed with name := newName }) ∧
      next.nextId = table.nextId := by
  simp only [renameColumn, bind, Except.bind] at renamed
  split at renamed
  · cases renamed
  · split at renamed
    · cases renamed
    · split at renamed
      · cases renamed
      · cases renamed
        exact ⟨rfl, rfl⟩

/-- What is stored behind a transaction. -/
def committed (table : DataTableColumns) : ColumnPhase → DataTableColumns
  | .addsColumn schema => (table.addColumn schema).toOption.getD table
  | .findsColumn _ _ => table
  | .movesColumn columnId column targetIndex =>
    (table.moveColumn columnId column targetIndex).toOption.getD table
  | .deletesColumn columnId column =>
    (table.deleteColumn columnId column).toOption.getD table
  | .renamesColumn columnId column newName =>
    (table.renameColumn columnId column newName).toOption.getD table

theorem stored_finish (table : DataTable) (id : Nat)
    (result : Except DataTableError DataTableColumns) :
    (table.finish id result).stored = result.toOption.getD table.stored := by
  cases result with
  | error => rfl
  | ok => rfl

theorem stored_answer (table : DataTable) (id : Nat) (phase : ColumnPhase) :
    (table.answer id phase).stored = table.stored.committed phase := by
  cases phase with
  | findsColumn columnId change =>
    rw [DataTable.answer, DataTable.validateColumnExists]
    split
    · rfl
    · rfl
  | addsColumn schema | movesColumn columnId column targetIndex
  | deletesColumn columnId column | renamesColumn columnId column newName => exact stored_finish _ _ _

structure Sound (table : DataTableColumns) : Prop where
  numbered : table.IsNumbered
  fresh : ∀ id column, table.columns.get? id = some column → id < table.nextId

theorem Sound.next_missing (sound : Sound table) : table.columns.get? table.nextId = none := by
  cases found : table.columns.get? table.nextId with
  | none => rfl
  | some column => exact absurd (sound.fresh _ _ found) (Nat.lt_irrefl _)

theorem isNumbered_add_iff (sound : Sound table) (schema : DataTableCreateColumnSchema) :
    (table.committed (.addsColumn schema)).IsNumbered ↔
      table.keepsNumbers (.addsColumn schema) := by
  rw [committed, keepsNumbers]
  cases accepts : table.acceptsNewName schema.name with
  | false =>
    obtain ⟨error, failed⟩ := addColumn_of_not_accepts accepts
    rw [failed]
    exact ⟨fun _ isTrue => (Bool.false_ne_true isTrue).elim, fun _ => sound.numbered⟩
  | true =>
    rw [addColumn_of_accepts accepts, imp_iff_right rfl]
    cases given : schema.index with
    | none =>
      refine ⟨fun _ => nofun, fun _ => ?_⟩
      rw [IsNumbered, makeRoom, given]
      change Numbered (indexes (table.columns.set _ _))
      rw [numbered_congr (indexes_set_perm _ _ _), delete_eq_self sound.next_missing]
      have pushed := Numbered.push sound.numbered
      rw [length_indexes] at pushed
      exact pushed
    | some index =>
      rw [IsNumbered, makeRoom, given]
      simp only [Option.mem_some_iff, forall_eq']
      exact numbered_add_iff sound.numbered sound.next_missing
        { name := schema.name, type := schema.type, index }

theorem isNumbered_move_iff (sound : Sound table) (columnId : Nat)
    (column : DataTableColumn) (targetIndex : Nat) :
    (table.committed (.movesColumn columnId column targetIndex)).IsNumbered ↔
      table.keepsNumbers (.movesColumn columnId column targetIndex) := by
  rw [committed, keepsNumbers]
  by_cases inRange : targetIndex < table.columns.size
  · rw [moveColumn_of_lt inRange]
    cases found : table.columns.get? columnId with
    | none =>
      refine ⟨fun isNumbered => ?_, fun keeps => ?_⟩
      · exact absurd isNumbered (not_numbered_move found _ inRange _)
      · obtain ⟨current, mem, _⟩ := keeps inRange
        cases mem
    | some current =>
      rw [IsNumbered, imp_iff_right inRange]
      simp only [Option.mem_some_iff, exists_eq_left']
      exact numbered_move_iff sound.numbered found _ inRange fun _ => rfl
  · obtain ⟨error, failed⟩ := @moveColumn_of_not_lt table columnId column _ inRange
    rw [failed]
    exact ⟨fun _ isLess => absurd isLess inRange, fun _ => sound.numbered⟩

theorem isNumbered_delete_iff (sound : Sound table) (columnId : Nat) (column : DataTableColumn) :
    (table.committed (.deletesColumn columnId column)).IsNumbered ↔
      table.keepsNumbers (.deletesColumn columnId column) := by
  rw [committed, keepsNumbers]
  by_cases isDdlColumn : column.name ∈ table.ddlColumns
  · rw [deleteColumn_of_mem isDdlColumn, imp_iff_right isDdlColumn]
    cases found : table.columns.get? columnId with
    | none =>
      simp only [Option.not_mem_none, false_and, exists_false, false_or, true_and]
      exact numbered_delete_missing_iff sound.numbered found _
    | some current =>
      simp only [Option.mem_some_iff, exists_eq_left', reduceCtorEq, false_and, or_false]
      exact numbered_delete_iff sound.numbered found _
  · obtain ⟨error, failed⟩ := @deleteColumn_of_not_mem table columnId column isDdlColumn
    rw [failed]
    exact ⟨fun _ mem => absurd mem isDdlColumn, fun _ => sound.numbered⟩

theorem indexes_updateColumn (keeps : ∀ column, (change column).index = column.index) :
    (indexes (updateColumn columns columnId change)).Perm (indexes columns) := by
  rw [updateColumn]
  split
  · exact List.Perm.refl _
  next column found =>
    apply (indexes_set_perm _ _ _).trans
    rw [keeps]
    exact (indexes_perm_of_get? found).symm

theorem isNumbered_rename (sound : Sound table) (columnId : Nat)
    (column : DataTableColumn) (newName : String) :
    (table.committed (.renamesColumn columnId column newName)).IsNumbered := by
  rw [committed]
  cases renamed : table.renameColumn columnId column newName with
  | error => exact sound.numbered
  | ok next =>
    change Numbered (indexes next.columns)
    rw [(renameColumn_eq_ok renamed).1]
    exact sound.numbered.congr (indexes_updateColumn fun _ => rfl)

theorem isNumbered_committed_iff (sound : Sound table) (phase : ColumnPhase) :
    (table.committed phase).IsNumbered ↔ table.keepsNumbers phase := by
  cases phase with
  | addsColumn schema => exact isNumbered_add_iff sound schema
  | findsColumn columnId change =>
    exact ⟨fun _ => trivial, fun _ => sound.numbered⟩
  | movesColumn columnId column targetIndex =>
    exact isNumbered_move_iff sound columnId column targetIndex
  | deletesColumn columnId column =>
    exact isNumbered_delete_iff sound columnId column
  | renamesColumn columnId column newName =>
    exact ⟨fun _ => trivial, fun _ => isNumbered_rename sound columnId column newName⟩

section

variable (columns : OrderedMap Nat DataTableColumn)

@[simp] theorem isSome_get?_shiftColumns (lowestIndex delta : ℚ) (id : Nat) :
    ((shiftColumns columns lowestIndex delta).get? id).isSome = (columns.get? id).isSome := by
  rw [get?_shiftColumns, Option.isSome_map]

@[simp] theorem isSome_get?_updateColumn (columnId : Nat)
    (change : DataTableColumn → DataTableColumn) (id : Nat) :
    ((updateColumn columns columnId change).get? id).isSome = (columns.get? id).isSome := by
  rw [updateColumn]
  split
  · rfl
  next column found =>
    rw [get?_set]
    split
    next same =>
      rw [← same, found]
      rfl
    · rfl

theorem isSome_makeRoom (table : DataTableColumns)
    (schema : DataTableCreateColumnSchema) (id : Nat) :
    ((table.makeRoom schema).2.get? id).isSome = (table.columns.get? id).isSome := by
  rw [makeRoom]
  split
  · rfl
  · exact isSome_get?_shiftColumns _ _ _ _

theorem fresh_committed (sound : Sound table) (phase : ColumnPhase) (id : Nat)
    (isColumn : ((table.committed phase).columns.get? id).isSome = true) :
    id < (table.committed phase).nextId := by
  have before {id : Nat} (isSome : (table.columns.get? id).isSome = true) : id < table.nextId := by
    obtain ⟨column, found⟩ := Option.isSome_iff_exists.mp isSome
    exact sound.fresh id column found
  cases phase with
  | findsColumn columnId change => exact before isColumn
  | addsColumn schema =>
    rw [committed] at isColumn ⊢
    cases accepts : table.acceptsNewName schema.name with
    | false =>
      obtain ⟨error, failed⟩ := addColumn_of_not_accepts accepts
      rw [failed] at isColumn ⊢
      exact before isColumn
    | true =>
      rw [addColumn_of_accepts accepts] at isColumn ⊢
      change id < table.nextId + 1
      change (((table.makeRoom schema).2.set table.nextId _).get? id).isSome = true at isColumn
      rw [get?_set] at isColumn
      split at isColumn
      · omega
      · rw [isSome_makeRoom] at isColumn
        exact Nat.lt_succ_of_lt (before isColumn)
  | movesColumn columnId column targetIndex =>
    rw [committed] at isColumn ⊢
    by_cases inRange : targetIndex < table.columns.size
    · rw [moveColumn_of_lt inRange] at isColumn ⊢
      change ((updateColumn _ _ _).get? id).isSome = true at isColumn
      rw [isSome_get?_updateColumn, isSome_get?_shiftColumns, isSome_get?_shiftColumns] at isColumn
      exact before isColumn
    · obtain ⟨error, failed⟩ := @moveColumn_of_not_lt table columnId column _ inRange
      rw [failed] at isColumn ⊢
      exact before isColumn
  | deletesColumn columnId column =>
    rw [committed] at isColumn ⊢
    by_cases isDdlColumn : column.name ∈ table.ddlColumns
    · rw [deleteColumn_of_mem isDdlColumn] at isColumn ⊢
      apply before
      change ((shiftColumns (table.columns.delete columnId) _ _).get? id).isSome = true at isColumn
      rw [isSome_get?_shiftColumns, get?_delete] at isColumn
      split at isColumn
      · cases isColumn
      · exact isColumn
    · obtain ⟨error, failed⟩ := @deleteColumn_of_not_mem table columnId column isDdlColumn
      rw [failed] at isColumn ⊢
      exact before isColumn
  | renamesColumn columnId column newName =>
    rw [committed] at isColumn ⊢
    cases renamed : table.renameColumn columnId column newName with
    | error =>
      rw [renamed] at isColumn
      exact before isColumn
    | ok next =>
      rw [renamed] at isColumn
      obtain ⟨columns, nextId⟩ := renameColumn_eq_ok renamed
      change id < next.nextId
      change (next.columns.get? id).isSome = true at isColumn
      rw [columns, isSome_get?_updateColumn] at isColumn
      rw [nextId]
      exact before isColumn

theorem Sound.committed (sound : Sound table) {phase : ColumnPhase}
    (keeps : table.keepsNumbers phase) : Sound (table.committed phase) :=
  ⟨(isNumbered_committed_iff sound phase).mpr keeps, fun id column found =>
    fresh_committed sound phase id (by rw [found]; rfl)⟩

theorem keepsOrder_refl (moved : Option Nat) : KeepsOrder columns columns moved :=
  keepsOrder_of_same fun _ _ _ _ before after =>
    congrArg _ (Option.some.inj (after.symm.trans before))

end

theorem putsInPlace_add (sound : Sound table) (schema : DataTableCreateColumnSchema) :
    PutsInPlace table (table.committed (.addsColumn schema)) (.addsColumn schema) := by
  rw [committed, PutsInPlace]
  cases accepts : table.acceptsNewName schema.name with
  | false =>
    obtain ⟨error, failed⟩ := addColumn_of_not_accepts accepts
    rw [failed]
    exact ⟨keepsOrder_refl _ _, nofun⟩
  | true =>
    rw [addColumn_of_accepts accepts]
    have room : KeepsOrder table.columns (table.makeRoom schema).2 none := by
      rw [makeRoom]
      split
      · exact keepsOrder_refl _ _
      · exact keepsOrder_shift_up _ _ _
    constructor
    · intro first second firstNe secondNe firstBefore secondBefore firstAfter
        secondAfter isFirst isSecond isFirstAfter isSecondAfter
      have old {id : Nat} {before after : DataTableColumn}
          (isBefore : table.columns.get? id = some before)
          (isAfter : ((table.makeRoom schema).2.set table.nextId
            { name := schema.name, type := schema.type
              index := (table.makeRoom schema).1 }).get? id = some after) :
          (table.makeRoom schema).2.get? id = some after := by
        rw [get?_set_ne] at isAfter
        · exact isAfter
        · exact Nat.ne_of_gt (sound.fresh id before isBefore)
      exact room first second firstNe secondNe _ _ _ _ isFirst isSecond
        (old isFirst isFirstAfter) (old isSecond isSecondAfter)
    · intro _
      refine ⟨_, get?_set_self _ _ _, rfl, rfl, ?_⟩
      rw [makeRoom]
      cases schema.index with
      | none => rfl
      | some index => rfl

theorem putsInPlace_move (sound : Sound table)
    (keeps : table.keepsNumbers (.movesColumn columnId column targetIndex)) :
    PutsInPlace table (table.committed (.movesColumn columnId column targetIndex))
      (.movesColumn columnId column targetIndex) := by
  rw [committed, PutsInPlace]
  by_cases inRange : targetIndex < table.columns.size
  · rw [moveColumn_of_lt inRange]
    obtain ⟨current, found, parts⟩ := keeps inRange
    have shifted := (keepsOrder_shift_down sound.numbered found parts).trans
      (keepsOrder_shift_up _ targetIndex _) fun id isColumn _ => by
        rw [isSome_get?_shiftColumns]
        exact isColumn
    have isThere : ∃ moved, (shiftColumns (shiftColumns table.columns
        column.index (-1)) targetIndex 1).get? columnId = some moved := by
      rw [get?_shiftColumns, get?_shiftColumns, found]
      exact ⟨_, rfl⟩
    obtain ⟨moved, isMoved⟩ := isThere
    change KeepsOrder _ (updateColumn _ _ _) _ ∧ (_ → ∃ column,
      (updateColumn _ _ _).get? columnId = some column ∧ _)
    rw [updateColumn_of_get? isMoved]
    constructor
    · apply shifted.trans
      · apply keepsOrder_of_same
        intro id before after notMoved isBefore isAfter
        rw [get?_set_ne] at isAfter
        · exact congrArg _ (Option.some.inj (isAfter.symm.trans isBefore))
        · rintro rfl
          exact notMoved rfl
      · intro id isColumn _
        simpa using isColumn
    · exact fun _ => ⟨_, get?_set_self _ _ _, rfl⟩
  · obtain ⟨error, failed⟩ := @moveColumn_of_not_lt table columnId column _ inRange
    rw [failed]
    exact ⟨keepsOrder_refl _ _, fun isLess => absurd isLess inRange⟩

theorem putsInPlace_delete (sound : Sound table)
    (keeps : table.keepsNumbers (.deletesColumn columnId column)) :
    PutsInPlace table (table.committed (.deletesColumn columnId column))
      (.deletesColumn columnId column) := by
  rw [committed, PutsInPlace]
  by_cases isDdlColumn : column.name ∈ table.ddlColumns
  · rw [deleteColumn_of_mem isDdlColumn]
    change KeepsOrder _ (shiftColumns (table.columns.delete columnId) _ _) _
    rw [← delete_shiftColumns]
    rcases keeps isDdlColumn with ⟨current, found, parts⟩ | ⟨missing, highest⟩
    · have shifted := keepsOrder_shift_down sound.numbered found parts
      intro first second _ _ firstBefore secondBefore firstAfter secondAfter
        isFirst isSecond isFirstAfter isSecondAfter
      rw [get?_delete] at isFirstAfter isSecondAfter
      split at isFirstAfter
      · cases isFirstAfter
      next firstNe =>
        split at isSecondAfter
        · cases isSecondAfter
        next secondNe =>
          exact shifted first second (fun same => firstNe (Option.some.inj same).symm)
            (fun same => secondNe (Option.some.inj same).symm) _ _ _ _
            isFirst isSecond isFirstAfter isSecondAfter
    · rw [delete_shiftColumns, delete_eq_self missing]
      apply keepsOrder_of_same
      intro id before after _ isBefore isAfter
      rw [get?_shiftColumns, isBefore, Option.map_some,
        if_neg (highest _ (mem_indexes isBefore))] at isAfter
      exact congrArg _ (Option.some.inj isAfter).symm
  · obtain ⟨error, failed⟩ := @deleteColumn_of_not_mem table columnId column isDdlColumn
    rw [failed]
    exact keepsOrder_refl _ _

theorem putsInPlace_rename (table : DataTableColumns) (columnId : Nat)
    (column : DataTableColumn) (newName : String) :
    PutsInPlace table (table.committed (.renamesColumn columnId column newName))
      (.renamesColumn columnId column newName) := by
  rw [committed, PutsInPlace]
  cases renamed : table.renameColumn columnId column newName with
  | error => exact keepsOrder_refl _ _
  | ok next =>
    change KeepsOrder _ next.columns _
    rw [(renameColumn_eq_ok renamed).1]
    apply keepsOrder_of_same
    intro id before after _ isBefore isAfter
    rw [updateColumn] at isAfter
    split at isAfter
    · exact congrArg _ (Option.some.inj (isAfter.symm.trans isBefore))
    next stored found =>
      rw [get?_set] at isAfter
      split at isAfter
      next same =>
        subst same
        obtain rfl := Option.some.inj (found.symm.trans isBefore)
        cases isAfter
        rfl
      · exact congrArg _ (Option.some.inj (isAfter.symm.trans isBefore))

theorem putsInPlace_committed (sound : Sound table) {phase : ColumnPhase}
    (keeps : table.keepsNumbers phase) :
    PutsInPlace table (table.committed phase) phase := by
  cases phase with
  | addsColumn schema => exact putsInPlace_add sound schema
  | findsColumn columnId change => exact keepsOrder_refl _ _
  | movesColumn columnId column targetIndex =>
    exact putsInPlace_move sound keeps
  | deletesColumn columnId column => exact putsInPlace_delete sound keeps
  | renamesColumn columnId column newName =>
    exact putsInPlace_rename table columnId column newName

end DataTableColumns

namespace DataTable

open DataTableColumns

/-- The condition of a transaction that is about to be committed. -/
def KeepsNumbers (table : DataTable) : ColumnEvent → Prop
  | .answers id => ∀ phase ∈ table.calls.get? id, table.stored.keepsNumbers phase
  | .request _ | .fails _ => True

instance : ∀ (table : DataTable) (event : ColumnEvent), Decidable (KeepsNumbers table event)
  | table, .answers id => inferInstanceAs (Decidable
      (∀ phase ∈ table.calls.get? id, table.stored.keepsNumbers phase))
  | _, .request _ => isTrue trivial
  | _, .fails _ => isTrue trivial

def PutsInPlace (table : DataTable) : ColumnEvent → Prop
  | .answers id => ∀ phase ∈ table.calls.get? id, ∀ next, step table (.answers id) = some next →
        DataTableColumns.PutsInPlace table.stored next.stored phase
  | .request _ | .fails _ => True

section

variable (columns : List (String × DataTableColumnType))

def start : DataTable :=
  { stored := createDataTable columns }

theorem start_sound : Sound (start columns).stored := by
  have places : (columns.zipIdx.map Prod.snd) = List.range columns.length := by
    rw [zipIdx_map_snd, range_eq_range']
  constructor
  · have listed : indexes (createDataTable columns).columns =
        (List.range columns.length).map Nat.cast := by
      rw [← places, map_map, indexes, values, createDataTable, map_map, map_map]
      rfl
    change Numbered (indexes (createDataTable columns).columns)
    rw [Numbered, listed, length_map, length_range]
  · intro id column found
    have mem := mem_keys_of_mem_entries (get?_eq_some_iff.mp found)
    have keys : (createDataTable columns).columns.keys = List.range columns.length := by
      rw [← places, OrderedMap.keys, createDataTable, map_map]
      rfl
    change id ∈ (createDataTable columns).columns.keys at mem
    rw [keys] at mem
    exact mem_range.mp mem

end

variable {table next : DataTable} {event : ColumnEvent}

theorem stored_of_step (moved : step table event = some next) :
    next.stored = table.stored ∨ ∃ id phase, event = .answers id ∧
      table.calls.get? id = some phase ∧
      next.stored = table.stored.committed phase := by
  cases event with
  | request request | fails id =>
    cases moved
    exact .inl rfl
  | answers id =>
    obtain ⟨phase, found, rfl⟩ := Option.map_eq_some_iff.mp moved
    exact .inr ⟨id, phase, rfl, found, stored_answer table id phase⟩

theorem sound_of_step (sound : Sound table.stored) (keeps : KeepsNumbers table event)
    (moved : step table event = some next) : Sound next.stored := by
  rcases stored_of_step moved with same | ⟨id, phase, rfl, found, changed⟩
  · rw [same]
    exact sound
  · rw [changed]
    exact sound.committed (keeps phase found)

theorem keepsNumbers_of_step (sound : Sound table.stored) (moved : step table event = some next)
    (numbered : next.stored.IsNumbered) : KeepsNumbers table event := by
  cases event with
  | answers id =>
    intro phase found
    obtain ⟨other, isOther, rfl⟩ := Option.map_eq_some_iff.mp moved
    obtain rfl := Option.some.inj (isOther.symm.trans found)
    rw [stored_answer] at numbered
    exact (isNumbered_committed_iff sound other).mp numbered
  | request request => trivial
  | fails id => trivial

theorem putsInPlace_of_keepsNumbers (sound : Sound table.stored)
    (keeps : KeepsNumbers table event) : PutsInPlace table event := by
  cases event with
  | answers id =>
    intro phase found next moved
    obtain ⟨other, isOther, rfl⟩ := Option.map_eq_some_iff.mp moved
    obtain rfl := Option.some.inj (isOther.symm.trans found)
    rw [stored_answer]
    exact putsInPlace_committed sound (keeps other found)
  | request request => trivial
  | fails id => trivial

/-- The columns stay numbered throughout a run, and moved and new columns come
to their places, exactly if all transactions meet the condition. -/
theorem numbered_iff_keepsNumbers
    (columns : List (String × DataTableColumnType)) {events : List ColumnEvent}
    {last : DataTable} (reached : step.run (start columns) events = some last) :
    step.Always (fun table => table.stored.IsNumbered) (start columns) events ∧
        step.Meets PutsInPlace (start columns) events ↔
      step.Meets KeepsNumbers (start columns) events := by
  have holds := start_sound columns
  constructor
  · rintro ⟨always, _⟩
    exact (Machine.always_iff_meets
      (fun _ _ _ sound keeps stepped => sound_of_step sound keeps stepped)
      (fun _ sound => sound.numbered)
      (fun _ _ _ sound stepped numbered =>
        keepsNumbers_of_step sound stepped numbered) holds reached).mp always
  · intro meets
    constructor
    · exact Machine.always_of_meets
        (fun _ _ _ sound keeps stepped => sound_of_step sound keeps stepped)
        (fun _ sound => sound.numbered) holds meets
    · exact Machine.Meets.of_invariant (fun table => Sound table.stored)
        (fun _ _ _ sound keeps stepped => sound_of_step sound keeps stepped)
        (fun _ _ sound keeps => putsInPlace_of_keepsNumbers sound keeps) holds
        meets

/-- Columns are added, moved, renamed and deleted one after the other. -/
def sampleEvents : List ColumnEvent :=
  [.request (.addColumn { name := "c", type := .date, index := some 1 }),
    .answers 0, .request (.changeColumn 0 (.move 2)), .answers 1, .answers 1,
    .request (.changeColumn 1 (.rename "d")), .answers 2, .answers 2,
    .request (.changeColumn 2 .delete), .answers 3, .answers 3]

def sampleColumns : List (String × DataTableColumnType) :=
  [("a", .string), ("b", .number)]

theorem numbered_sampleEvents : (step.run (start sampleColumns) sampleEvents).isSome = true ∧
      step.Always (fun table => table.stored.IsNumbered) (start sampleColumns) sampleEvents ∧
      step.Meets PutsInPlace (start sampleColumns) sampleEvents := by
  have reaches : (step.run (start sampleColumns) sampleEvents).isSome =
      true := by
    decide +kernel
  obtain ⟨last, reached⟩ := Option.isSome_iff_exists.mp reaches
  refine ⟨reaches, (numbered_iff_keepsNumbers _ reached).mpr ?_⟩
  decide +kernel

/-- An index behind the next one is accepted for a new column. -/
def gapEvents : List ColumnEvent :=
  [.request (.addColumn { name := "c", type := .date, index := some 5 }), .answers 0]

/-- Two moves of a column overlap. -/
def overlapEvents : List ColumnEvent :=
  [.request (.changeColumn 2 (.move 0)), .request (.changeColumn 2 (.move 2)),
    .answers 0, .answers 1, .answers 0, .answers 1]

theorem not_numbered :
    ¬ step.Always (fun table => table.stored.IsNumbered) (start sampleColumns) gapEvents ∧
      ¬ step.Always (fun table => table.stored.IsNumbered)
        (start (sampleColumns ++ [("c", .date)])) overlapEvents := by
  constructor
  · intro always
    have numbered := always gapEvents prefix_rfl _ rfl
    revert numbered
    unfold IsNumbered Numbered
    decide +kernel
  · intro always
    have numbered := always overlapEvents prefix_rfl _ rfl
    revert numbered
    unfold IsNumbered Numbered
    decide +kernel

end DataTable

end N8n
