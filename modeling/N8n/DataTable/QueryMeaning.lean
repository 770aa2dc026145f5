import N8n.DataTable.RowsRepository
import N8n.Library.FoldExcept

/-!
# What the queries of a data table select

Each condition is true of the rows that its filter describes.  Filters alone
select what they say; a search term is joined to the last filter only when the
filters are alternatives.
-/

namespace N8n

open Wildcard JoinedCondition List DataTableFilter Database ListDataTableContentQueryDto

def DataTableFilterRecord.isMetBy (db : Database)
    (filter : DataTableFilterRecord) (cell : DataTableCell) : Bool :=
  let ordering := db.compare cell filter.value
  match filter.condition with
  | .eq =>
    if filter.value = .null then cell = .null
    else cell ≠ .null && ordering = .eq
  | .neq =>
    if filter.value = .null then cell ≠ .null
    else cell = .null || ordering ≠ .eq
  | .gt => cell ≠ .null && ordering = .gt
  | .gte => cell ≠ .null && ordering ≠ .lt
  | .lt => cell ≠ .null && ordering = .lt
  | .lte => cell ≠ .null && ordering ≠ .gt
  | .like => cell ≠ .null && isMatch (searchPattern filter.value.text) (db.castText cell)
  | .ilike => cell ≠ .null &&
      isMatch (searchPattern (filter.value.text.map db.fold)) (db.foldText cell)

def DataTableFilterRecord.means (db : Database)
    (filter : DataTableFilterRecord) (row : DataTableRow) : Bool :=
  filter.isMetBy db (row.cell filter.columnName)

/-- All filters are met or, if there are any, one of the alternatives. -/
def DataTableFilter.means (db : Database) (filter : DataTableFilter) (row : DataTableRow) : Bool :=
  match filter.type with
  | .and => filter.filters.all fun record => record.means db row
  | .or => filter.filters.isEmpty || filter.filters.any fun record => record.means db row

def containsTerm (db : Database) (columnNames : List String) (search : String)
    (row : DataTableRow) : Bool :=
  columnNames.any fun columnName => row.cell columnName ≠ .null &&
    isMatch (searchPattern (search.toList.map db.fold)) (db.foldText (row.cell columnName))

/-- What a query asks for. -/
def ListDataTableContentQueryDto.means (db : Database)
    (dto : ListDataTableContentQueryDto) (columnNames : List String)
    (row : DataTableRow) : Bool :=
  dto.filter.all (fun filter => filter.means db row) &&
    dto.term?.all fun search => containsTerm db columnNames search row

variable {db : Database} {row : DataTableRow} {cell : DataTableCell}

theorem escapeLikeSpecials_eq (input : List Char) :
    escapeLikeSpecials input = escapeLike '\\' input := by
  rw [escapeLikeSpecials, escapeLike, flatMap_assoc]
  apply flatMap_congr
  intro char _
  by_cases isEscape : char = '\\'
  · subst isEscape
    rfl
  · rw [if_neg isEscape, flatMap_singleton]
    by_cases isUnderscore : char = '_'
    · rw [if_pos isUnderscore, if_pos (.inr isUnderscore), isUnderscore]
    · rw [if_neg isUnderscore, if_neg (not_or.mpr ⟨isEscape, isUnderscore⟩)]

theorem toSqliteGlobFromPercent_eq (input : List Char) :
    toSqliteGlobFromPercent input = globOfPercent input := by
  apply flatMap_congr
  intro char _
  split
  · rfl
  · split
    next same =>
      subst same
      rfl
    · split
      next same =>
        subst same
        rfl
      · split
        next same =>
          subst same
          rfl
        · split
          next same =>
            subst same
            rfl
          next first second third fourth =>
            rw [if_neg (by simp [first, second, third, fourth])]

/-- `GLOB` and `LIKE` read of an encoded pattern what `%` makes of the pattern,
with each operator's own comparison of characters. -/
theorem encodedPatterns_match (same : Char → Char → Bool) (pattern text : List Char) :
    (isMatch (globPattern .outside (toSqliteGlobFromPercent pattern)) text =
        true ↔ MatchesPercent (fun char other => char = other) pattern text) ∧
      (isMatch (likePatternBy same '\\' (escapeLikeSpecials pattern)) text = true ↔
        MatchesPercent (fun char other => same char other = true) pattern text) := by
  constructor
  · rw [toSqliteGlobFromPercent_eq, globPattern_globOfPercent]
    have agrees : (fun char other : Char => char = other) =
        fun char other => decide (other = char) = true := by
      funext char other
      exact propext ⟨fun equal => decide_eq_true equal.symm,
        fun equal => (of_decide_eq_true equal).symm⟩
    rw [agrees]
    exact isMatch_percentPatternBy fun char other => decide (other = char)
  · rw [escapeLikeSpecials_eq, likePatternBy_escapeLike same (by decide)]
    exact isMatch_percentPatternBy same

theorem map_fold_escapeLike (db : Database) (input : List Char) :
    (escapeLike '\\' input).map db.fold = escapeLike '\\' (input.map db.fold) := by
  have escape := db.fold_special
  induction input with
  | nil => rfl
  | cons char rest ih =>
    rw [escapeLike_cons, map_append, ih, map_cons, escapeLike_cons]
    congr 1
    simp only [escape char '\\' (by decide), escape char '_' (by decide)]
    split
    · rw [map_cons, map_singleton, (escape '\\' '\\' (by decide)).mpr rfl]
    · rfl

theorem map_fold_addPercents (db : Database) (input : List Char) :
    (addPercents input).map db.fold = addPercents (input.map db.fold) := by
  have percent := db.fold_special
  have keeps : '%' ∈ input.map db.fold ↔ '%' ∈ input := by
    rw [mem_map]
    constructor
    · rintro ⟨char, mem, same⟩
      rw [percent char '%' (by decide)] at same
      exact same ▸ mem
    · exact fun mem =>
        ⟨'%', mem, (percent '%' '%' (by decide)).mpr rfl⟩
  rw [addPercents, addPercents]
  by_cases mem : '%' ∈ input
  · rw [if_pos mem, if_pos (keeps.mpr mem)]
  · rw [if_neg mem, if_neg (keeps.not.mpr mem), map_cons, map_append, map_singleton,
      (percent '%' '%' (by decide)).mpr rfl]

theorem evaluateFoldedLike_eq (db : Database) (pattern : List Char) (cell : DataTableCell) :
    db.evaluateFoldedLike (escapeLikeSpecials (addPercents pattern)) cell =
      evaluateMatch (searchPattern (pattern.map db.fold)) db.foldText
        cell := by
  rw [evaluateFoldedLike, escapeLikeSpecials_eq, map_fold_escapeLike, escapeCharacter,
    likePattern_escapeLike (by decide), map_fold_addPercents,
    percentPattern_addPercents]

theorem evaluateMatch_eq_true {pattern : List Wildcard} {text : DataTableCell → List Char} :
    evaluateMatch pattern text cell = some true ↔
      (decide (cell ≠ .null) && isMatch pattern (text cell)) = true := by
  rw [evaluateMatch]
  split
  next isNull =>
    simp [isNull]
  next notNull =>
    simp [notNull]

theorem evaluateCompares_eq_true {operator : Ordering → Bool}
    {parameter : DataTableCell} (notNull : parameter ≠ .null) :
    db.evaluateCompares operator cell parameter = some true ↔
      (decide (cell ≠ .null) && operator (db.compare cell parameter)) =
        true := by
  rw [evaluateCompares]
  split
  next isNull =>
    have cellNull := isNull.resolve_right notNull
    simp [cellNull]
  next known =>
    have cellNotNull := (not_or.mp known).1
    simp [cellNotNull]

variable {said filter : DataTableFilterRecord}

theorem checkFilterValue_pattern (checked : checkFilterValue said = .ok filter)
    (isPattern : said.condition = .like ∨ said.condition = .ilike) :
    filter.columnName = said.columnName ∧ filter.condition = said.condition ∧
      filter.value.text = addPercents said.value.text := by
  have accepted : ∃ value, said.value = .string value ∧
      (if '%' ∈ value.toList then (.ok said : Except DataTableFilterError _)
        else .ok { said with value := .string ("%" ++ value ++ "%") }) = .ok filter := by
    obtain ⟨columnName, condition, value⟩ := said
    rcases isPattern with rfl | rfl
    · cases value with
      | string text => exact ⟨text, rfl, checked⟩
      | _ => cases checked
    · cases value with
      | string text => exact ⟨text, rfl, checked⟩
      | _ => cases checked
  obtain ⟨value, isString, accepted⟩ := accepted
  rw [isString, DataTableCell.text, addPercents]
  split at accepted
  next hasPercent =>
    cases accepted
    rw [isString, DataTableCell.text, if_pos hasPercent]
    exact ⟨rfl, rfl, rfl⟩
  next noPercent =>
    cases accepted
    rw [if_neg noPercent]
    refine ⟨rfl, rfl, ?_⟩
    simp [DataTableCell.text]

theorem checkFilterValue_comparison (checked : checkFilterValue said = .ok filter)
    (isComparison : said.condition ∈ [.gt, .gte, .lt, .lte]) :
    filter = said ∧ said.value ≠ .null := by
  have accepted : (if said.value = .null then .error (.nullValue said.condition)
      else (.ok said : Except DataTableFilterError _)) = .ok filter := by
    rw [checkFilterValue] at checked
    cases condition : said.condition with
    | gt | gte | lt | lte =>
      rw [condition] at checked
      exact checked
    | eq | neq | like | ilike =>
      rw [condition] at isComparison
      exact absurd isComparison (by decide)
  split at accepted
  · cases accepted
  next notNull =>
    exact ⟨(Except.ok.inj accepted).symm, notNull⟩

theorem evaluate_comparison_iff {operator : SqlOperator} (notNull : said.value ≠ .null)
    (isMet : ∀ cell, said.isMetBy db cell = (decide (cell ≠ .null) &&
      operator.holds (db.compare cell said.value))) :
    db.evaluate row (.compares said.columnName operator said.value) =
        some true ↔ said.means db row = true := by
  rw [Database.evaluate, evaluateCompares_eq_true notNull, DataTableFilterRecord.means, isMet]

theorem evaluate_condition_iff (checked : checkFilterValue said = .ok filter) :
    db.evaluate row (getConditionAndParams db filter) = some true ↔ said.means db row = true := by
  cases condition : said.condition with
  | eq =>
    rw [checkFilterValue, condition] at checked
    cases checked
    rw [getConditionAndParams, condition]
    by_cases isNull : said.value = .null
    · simp [isNull, Database.evaluate, DataTableFilterRecord.means,
        DataTableFilterRecord.isMetBy, condition]
    · simp only [isNull, if_false]
      apply evaluate_comparison_iff isNull
      intro cell
      simp only [DataTableFilterRecord.isMetBy, condition, isNull, if_false]
      rfl
  | neq =>
    rw [checkFilterValue, condition] at checked
    cases checked
    rw [getConditionAndParams, condition]
    by_cases isNull : said.value = .null
    · simp [isNull, Database.evaluate, DataTableFilterRecord.means,
        DataTableFilterRecord.isMetBy, condition]
    · simp only [isNull, if_false]
      rw [Database.evaluate, Truth.or_eq_true,
        evaluateCompares_eq_true isNull, DataTableFilterRecord.means,
        DataTableFilterRecord.isMetBy, condition]
      by_cases cellNull : row.cell said.columnName = .null
      · simp [cellNull, isNull]
      · simp [cellNull, isNull]
  | gt | gte | lt | lte =>
    obtain ⟨rfl, notNull⟩ := checkFilterValue_comparison checked (by simp [condition])
    rw [getConditionAndParams, condition]
    apply evaluate_comparison_iff notNull
    intro cell
    rw [DataTableFilterRecord.isMetBy, condition]
    rfl
  | like =>
    obtain ⟨column, sameCondition, pattern⟩ := checkFilterValue_pattern checked (.inl condition)
    have matched (patternOf : List Wildcard) (same : patternOf = percentPattern filter.value.text) :
        evaluateMatch patternOf db.castText (row.cell filter.columnName) = some true ↔
          said.means db row = true := by
      rw [evaluateMatch_eq_true, same, pattern, percentPattern_addPercents,
        column, DataTableFilterRecord.means, DataTableFilterRecord.isMetBy,
        condition]
    rw [getConditionAndParams, sameCondition, condition]
    cases db.dbType with
    | sqlite =>
      apply matched
      rw [toSqliteGlobFromPercent_eq, globPattern_globOfPercent]
    | mysql | postgres =>
      apply matched
      rw [escapeLikeSpecials_eq, escapeCharacter, likePattern_escapeLike (by decide)]
  | ilike =>
    obtain ⟨column, sameCondition, pattern⟩ := checkFilterValue_pattern checked (.inr condition)
    rw [getConditionAndParams, sameCondition, condition, Database.evaluate,
      pattern, evaluateFoldedLike_eq, evaluateMatch_eq_true, column,
      DataTableFilterRecord.means, DataTableFilterRecord.isMetBy, condition]

/-- The truth values of the conditions of a filter. -/
def DataTableFilter.truths (db : Database) (filter : DataTableFilter)
    (row : DataTableRow) : List Truth :=
  filter.filters.map fun record =>
    db.evaluate row (getConditionAndParams db record)

variable {saidFilter checkedFilter : DataTableFilter}

theorem checkFilters_eq_ok (checked : checkFilters saidFilter = .ok checkedFilter) :
    checkedFilter.type = saidFilter.type ∧
      List.Forall₂ (fun said record => checkFilterValue said = .ok record)
        saidFilter.filters checkedFilter.filters := by
  obtain ⟨filters, mapped, checked⟩ := Except.bind_eq_ok_iff.mp checked
  cases checked
  exact ⟨rfl, mapM_eq_ok_iff.mp mapped⟩

theorem truths_eq (checked : checkFilters saidFilter = .ok checkedFilter)
    (db : Database) (row : DataTableRow) :
    (checkedFilter.truths db row).map (fun truth => decide (truth = some true)) =
      saidFilter.filters.map fun record => record.means db row := by
  have related := (checkFilters_eq_ok checked).2
  rw [truths, map_map]
  generalize saidFilter.filters = said at related
  generalize checkedFilter.filters = records at related
  induction related with
  | nil => rfl
  | cons first _ ih =>
    rw [map_cons, map_cons, ih]
    congr 1
    rw [Function.comp_apply, Bool.eq_iff_iff, decide_eq_true_eq]
    exact evaluate_condition_iff first

def DataTableFilter.connective (filter : DataTableFilter) : Connective :=
  match filter.type with
  | .and => .and
  | .or => if filter.filters.length = 1 then .and else .or

theorem applyFilters_map (db : Database) (row : DataTableRow) (filter : DataTableFilter) :
    (applyFilters db [] filter).map (fun joined =>
        (joined.1, db.evaluate row joined.2)) =
      (filter.truths db row).map (Prod.mk filter.connective) := by
  obtain ⟨type, filters⟩ := filter
  rw [truths, map_map]
  match filters with
  | [] => rfl
  | [record] =>
    cases type with
    | and => rfl
    | or => rfl
  | first :: second :: rest =>
    cases type with
    | and | or =>
      change ((first :: second :: rest).map _ |>.map _).map _ = _
      rw [map_map, map_map]
      rfl

theorem forall_truths_iff (checked : checkFilters saidFilter = .ok checkedFilter) :
    (∀ truth ∈ checkedFilter.truths db row, truth = some true) ↔
      saidFilter.filters.all (fun record => record.means db row) = true := by
  have same := congrArg (List.all · id) (truths_eq checked db row)
  simp only [all_map, Function.comp_def, id] at same
  rw [← same, all_eq_true]
  simp only [decide_eq_true_eq]

theorem exists_truths_iff (checked : checkFilters saidFilter = .ok checkedFilter) :
    some true ∈ checkedFilter.truths db row ↔
      saidFilter.filters.any (fun record => record.means db row) = true := by
  have same := congrArg (List.any · id) (truths_eq checked db row)
  simp only [any_map, Function.comp_def, id] at same
  rw [← same, any_eq_true]
  simp

theorem selects_applyFilters (checked : checkFilters saidFilter = .ok checkedFilter) :
    db.selects (applyFilters db [] checkedFilter) row = saidFilter.means db row := by
  have length := (checkFilters_eq_ok checked).2.length_eq
  rw [selects, applyFilters_map, Bool.eq_iff_iff, decide_eq_true_eq,
    DataTableFilter.connective, (checkFilters_eq_ok checked).1,
    DataTableFilter.means]
  cases saidFilter.type with
  | and =>
    change JoinedCondition.evaluate (List.map (Prod.mk .and) _) = _ ↔ _
    rw [evaluate_and, forall_truths_iff checked]
  | or =>
    have truths : (checkedFilter.truths db row).length =
        saidFilter.filters.length := by
      rw [truths, length_map, length]
    rw [Bool.or_eq_true, ← exists_truths_iff checked, List.isEmpty_iff]
    simp only
    split
    next single =>
      obtain ⟨truth, isTruth⟩ := length_eq_one_iff.mp (truths.trans (length.trans single))
      have notEmpty : saidFilter.filters ≠ [] := by
        intro empty
        rw [empty] at length
        rw [← length] at single
        cases single
      rw [evaluate_and, isTruth]
      simp [notEmpty, eq_comm]
    · by_cases empty : saidFilter.filters = []
      · rw [empty, length_nil, length_eq_zero_iff] at truths
        rw [truths]
        simp [JoinedCondition.evaluate, empty]
      · have notEmpty : checkedFilter.truths db row ≠ [] := by
          intro none
          rw [none] at truths
          exact empty (length_eq_zero_iff.mp truths.symm)
        rw [evaluate_or notEmpty]
        simp [empty]

/-- The alternatives that a search term is not joined to. -/
def DataTableFilter.unsearched (filter : DataTableFilter) : List DataTableFilterRecord :=
  match filter.type with
  | .and => []
  | .or => filter.filters.dropLast

theorem exists_dropLast_iff (checked : checkFilters saidFilter = .ok checkedFilter) :
    some true ∈ (checkedFilter.truths db row).dropLast ↔
      saidFilter.filters.dropLast.any (fun record => record.means db row) =
        true := by
  have same := congrArg (fun list => list.dropLast.any id) (truths_eq checked db row)
  simp only [← map_dropLast, any_map, Function.comp_def, id] at same
  rw [← same, any_eq_true]
  simp

theorem evaluate_searches_iff (db : Database) (row : DataTableRow)
    (columnNames : List String) (search : String) :
    db.evaluate row (.searches columnNames
        (escapeLikeSpecials (searchTerm search.toList))) = some true ↔
      containsTerm db columnNames search row = true := by
  rw [Database.evaluate, Truth.any_eq_true, mem_map, containsTerm, any_eq_true]
  apply exists_congr
  intro columnName
  apply and_congr_right
  intro _
  change db.evaluateFoldedLike (escapeLikeSpecials (addPercents search.toList)) _ = _ ↔ _
  rw [evaluateFoldedLike_eq, evaluateMatch_eq_true]

theorem evaluate_joined_iff (checked : checkFilters saidFilter =
    .ok checkedFilter) (added : Truth) :
    JoinedCondition.evaluate ((checkedFilter.truths db row).map
            (Prod.mk checkedFilter.connective) ++ [(.and, added)]) =
          some true ↔
      saidFilter.unsearched.any (fun record => record.means db row) = true ∨
        saidFilter.means db row = true ∧ added = some true := by
  have length : (checkedFilter.truths db row).length =
      saidFilter.filters.length := by
    rw [truths, length_map, (checkFilters_eq_ok checked).2.length_eq]
  have checkedLength : checkedFilter.filters.length =
      saidFilter.filters.length := (checkFilters_eq_ok checked).2.length_eq.symm
  have conjunction : JoinedCondition.evaluate
      ((checkedFilter.truths db row).map (Prod.mk .and) ++ [(.and, added)]) = some true ↔
      (∀ truth ∈ checkedFilter.truths db row, truth = some true) ∧ added = some true := by
    rw [← map_singleton (f := Prod.mk Connective.and), ← map_append,
      evaluate_and, forall_mem_append,
      forall_mem_singleton]
  rw [DataTableFilter.connective, (checkFilters_eq_ok checked).1,
    DataTableFilter.unsearched, DataTableFilter.means, checkedLength]
  cases saidFilter.type with
  | and =>
    change JoinedCondition.evaluate (List.map (Prod.mk .and) _ ++ _) = _ ↔ _
    rw [conjunction, forall_truths_iff checked]
    simp
  | or =>
    simp only
    split
    next single =>
      obtain ⟨record, isRecord⟩ := length_eq_one_iff.mp single
      rw [conjunction, forall_truths_iff checked, isRecord]
      simp
    next notSingle =>
      rcases eq_nil_or_concat (checkedFilter.truths db row) with
        empty | ⟨before, last, isLast⟩
      · have noFilters : saidFilter.filters = [] := by
          rw [empty] at length
          exact length_eq_zero_iff.mp length.symm
        rw [empty, noFilters]
        simp [JoinedCondition.evaluate, evaluateFrom]
      · have some_iff : some true ∈ checkedFilter.truths db row ↔ _ := exists_truths_iff checked
        have drop_iff : some true ∈ (checkedFilter.truths db row).dropLast ↔
            _ := exists_dropLast_iff checked
        rw [isLast, concat_eq_append] at some_iff drop_iff
        rw [dropLast_concat] at drop_iff
        rw [isLast, concat_eq_append] at length ⊢
        cases before with
        | nil => exact absurd length.symm notSingle
        | cons first middle =>
          rw [cons_append, map_cons, cons_append, JoinedCondition.evaluate,
            evaluateFrom_or_and, drop_iff]
          have notEmpty : saidFilter.filters.isEmpty = false := by
            rw [isEmpty_eq_false_iff]
            intro empty
            rw [empty] at length
            cases length
          rw [notEmpty, Bool.false_or, ← some_iff, mem_append,
            drop_iff, mem_singleton, or_and_right, eq_comm (b := last)]
          constructor
          · rintro (earlier | isLastTrue)
            · exact .inl earlier
            · exact .inr (.inr isLastTrue)
          · rintro (earlier | ⟨earlier, _⟩ | isLastTrue)
            · exact .inl earlier
            · exact .inl earlier
            · exact .inr isLastTrue

theorem selects_applySearch (checked : checkFilters saidFilter =
    .ok checkedFilter) {columnNames : List String} (search : String)
    (notEmpty : columnNames ≠ []) :
    db.selects (applySearch (applyFilters db [] checkedFilter) search columnNames) row =
      (saidFilter.unsearched.any (fun record => record.means db row) ||
        (saidFilter.means db row && containsTerm db columnNames search row)) :=
    by
  rw [applySearch, if_neg notEmpty, selects, map_append,
    applyFilters_map, Bool.eq_iff_iff, decide_eq_true_eq, map_singleton,
    evaluate_joined_iff checked, evaluate_searches_iff, Bool.or_eq_true,
    Bool.and_eq_true]

def ListDataTableContentQueryDto.filterOrEmpty
    (dto : ListDataTableContentQueryDto) : DataTableFilter :=
  dto.filter.getD {}

/-- All requests with the filters, and the query with its search term, touch
the rows that are meant: the query counts and pages them, an update sets their
cells and a deletion leaves the others. -/
structure MeansWhatItSays (db : Database) (columnNames : List String)
    (rows : List DataTableRow) (said checked : ListDataTableContentQueryDto) :
    Prop where
  count : (getManyAndCount db rows checked columnNames).count =
    (rows.filter (said.means db columnNames)).length
  data : (getManyAndCount db rows checked columnNames).data =
    applyPagination db said (rows.filter (said.means db columnNames))
  updates : ∀ data, ∀ filter ∈ checked.filter, updateRows db rows data filter = rows.map fun row =>
      if said.filterOrEmpty.means db row then setCells row data else row
  deletes : deleteRows db rows checked.filter =
    rows.filter fun row => !said.filterOrEmpty.means db row

/-- The rows in which the search term has to occur without being asked for it:
all rows that are selected if there are no columns to search, and otherwise
those of an alternative other than the last one. -/
def SearchFits (db : Database) (columnNames : List String)
    (rows : List DataTableRow) (said : ListDataTableContentQueryDto) : Prop :=
  ∀ search ∈ said.term?, ∀ row ∈ rows, (columnNames = [] ∧ said.filterOrEmpty.means db row = true ∨
      said.filterOrEmpty.unsearched.any (fun record => record.means db row) = true) →
    containsTerm db columnNames search row = true

variable {columnNames : List String} {rows : List DataTableRow}
  {said checked : ListDataTableContentQueryDto}

theorem mapFilter_eq_ok {change : DataTableFilter → Except DataTableFilterError DataTableFilter}
    (changed : said.mapFilter change = .ok checked) :
    said = checked ∧ said.filter = none ∨
      ∃ before after, said.filter = some before ∧ change before = .ok after ∧
        checked = { said with filter := some after } := by
  rw [mapFilter] at changed
  split at changed
  next none =>
    exact .inl ⟨Except.ok.inj changed, none⟩
  next before some =>
    obtain ⟨after, result, changed⟩ := Except.bind_eq_ok_iff.mp changed
    exact .inr ⟨before, after, some, result, (Except.ok.inj changed).symm⟩

theorem checkFilters_filterOrEmpty (changed : said.mapFilter checkFilters = .ok checked) :
    checkFilters said.filterOrEmpty = .ok checked.filterOrEmpty := by
  rcases mapFilter_eq_ok changed with ⟨rfl, none⟩ | ⟨before, after, some, result, rfl⟩
  · rw [ListDataTableContentQueryDto.filterOrEmpty, none]
    rfl
  · rw [ListDataTableContentQueryDto.filterOrEmpty, some]
    exact result

theorem term?_eq (changed : said.mapFilter checkFilters = .ok checked) :
    checked.term? = said.term? := by
  rcases mapFilter_eq_ok changed with ⟨rfl, _⟩ | ⟨_, _, _, _, rfl⟩
  · rfl
  · rfl

theorem applyPagination_eq (changed : said.mapFilter checkFilters = .ok checked)
    (rows : List DataTableRow) :
    applyPagination db checked rows = applyPagination db said rows := by
  rcases mapFilter_eq_ok changed with ⟨rfl, _⟩ | ⟨_, _, _, _, rfl⟩
  · rfl
  · rfl

theorem means_eq (db : Database) (said : ListDataTableContentQueryDto)
    (columnNames : List String) (row : DataTableRow) :
    said.means db columnNames row = (said.filterOrEmpty.means db row &&
      said.term?.all fun search => containsTerm db columnNames search row) := by
  rw [ListDataTableContentQueryDto.means, ListDataTableContentQueryDto.filterOrEmpty]
  cases said.filter with
  | none => rfl
  | some filter => rfl

theorem whereOfQuery_eq (db : Database) (dto : ListDataTableContentQueryDto)
    (columnNames : List String) :
    whereOfQuery db dto columnNames = match dto.term? with
      | none => applyFilters db [] dto.filterOrEmpty
      | some search =>
        applySearch (applyFilters db [] dto.filterOrEmpty) search
          columnNames := by
  rw [whereOfQuery, ListDataTableContentQueryDto.filterOrEmpty]
  cases dto.filter with
  | none => rfl
  | some filter => rfl

theorem means_of_unsearched (isMet : saidFilter.unsearched.any (fun record => record.means db row) =
      true) : saidFilter.means db row = true := by
  rw [DataTableFilter.unsearched] at isMet
  rw [DataTableFilter.means]
  cases type : saidFilter.type with
  | and =>
    rw [type] at isMet
    cases isMet
  | or =>
    rw [type] at isMet
    obtain ⟨record, listed, means⟩ := any_eq_true.mp isMet
    apply Bool.or_eq_true_iff.mpr
    right
    exact any_eq_true.mpr ⟨record, dropLast_subset _ listed, means⟩

/-- What a query selects: the rows that are meant, and those that escape the
search term. -/
theorem selects_whereOfQuery (changed : said.mapFilter checkFilters = .ok checked) :
    db.selects (whereOfQuery db checked columnNames) row = true ↔
      said.means db columnNames row = true ∨ ∃ search ∈ said.term?,
        (columnNames = [] ∧ said.filterOrEmpty.means db row = true ∨
          said.filterOrEmpty.unsearched.any (fun record => record.means db row) = true) := by
  have isChecked := checkFilters_filterOrEmpty changed
  rw [whereOfQuery_eq, term?_eq changed, means_eq]
  cases said.term? with
  | none =>
    rw [selects_applyFilters isChecked]
    simp
  | some search =>
    simp only [Option.mem_some_iff, exists_eq_left', Option.all_some]
    by_cases empty : columnNames = []
    · rw [applySearch, if_pos empty, selects_applyFilters isChecked, Bool.and_eq_true]
      constructor
      · exact fun means => .inr (.inl ⟨empty, means⟩)
      · rintro (⟨means, _⟩ | ⟨_, means⟩ | unsearched)
        · exact means
        · exact means
        · exact means_of_unsearched unsearched
    · rw [selects_applySearch isChecked search empty, Bool.or_eq_true, Bool.and_eq_true]
      simp only [empty, false_and, false_or]
      exact or_comm

/-- The requests mean what they say exactly if the search term occurs in the
rows that escape it. -/
theorem meansWhatItSays_iff_searchFits (changed : said.mapFilter checkFilters = .ok checked) :
    MeansWhatItSays db columnNames rows said checked ↔ SearchFits db columnNames rows said := by
  have isChecked := checkFilters_filterOrEmpty changed
  have selectsMeant (row : DataTableRow) (meant : said.means db columnNames row = true) :
      db.selects (whereOfQuery db checked columnNames) row = true :=
    (selects_whereOfQuery changed).mpr (.inl meant)
  constructor
  · intro means search isSearch row listed escapes
    have sameCount := means.count
    -- the rows that are meant are among the selected ones
    have sublist : (rows.filter (said.means db columnNames)).Sublist
        (rows.filter (db.selects (whereOfQuery db checked columnNames))) :=
      monotone_filter_right rows selectsMeant
    have same := sublist.eq_of_length sameCount.symm
    have selected : db.selects (whereOfQuery db checked columnNames) row :=
      (selects_whereOfQuery changed).mpr (.inr ⟨search, isSearch, escapes⟩)
    have mem := mem_filter.mpr ⟨listed, selected⟩
    rw [← same] at mem
    have meant := (mem_filter.mp mem).2
    rw [means_eq, Option.mem_def.mp isSearch, Bool.and_eq_true, Option.all_some] at meant
    exact meant.2
  · intro fits
    have same : rows.filter (db.selects (whereOfQuery db checked columnNames)) =
        rows.filter (said.means db columnNames) := by
      apply filter_congr
      intro row listed
      rw [Bool.eq_iff_iff, selects_whereOfQuery changed]
      constructor
      · rintro (meant | ⟨search, isSearch, escapes⟩)
        · exact meant
        · rw [means_eq, Option.mem_def.mp isSearch, Bool.and_eq_true, Option.all_some]
          refine ⟨?_, fits search isSearch row listed escapes⟩
          rcases escapes with ⟨_, meant⟩ | unsearched
          · exact meant
          · exact means_of_unsearched unsearched
      · exact .inl
    constructor
    · rw [getManyAndCount, same]
    · rw [getManyAndCount, same, applyPagination_eq changed]
    · intro data filter isFilter
      have isEmpty : checked.filterOrEmpty = filter := by
        rw [ListDataTableContentQueryDto.filterOrEmpty,
          Option.mem_def.mp isFilter, Option.getD_some]
      apply map_congr_left
      intro row _
      rw [← isEmpty, selects_applyFilters isChecked]
    · apply filter_congr
      intro row _
      rw [← selects_applyFilters isChecked, ListDataTableContentQueryDto.filterOrEmpty]
      cases checked.filter with
      | none => rfl
      | some filter => rfl

/-- A validated query says what its filters say once their values have the
types of the columns. -/
theorem exists_said {validateFieldType : DataTableColumnType → DataTableCell → Option DataTableCell}
    {columns : List (String × DataTableColumnType)}
    {dto checked : ListDataTableContentQueryDto} (validated : dto.mapFilter
      (validateAndTransformFilters validateFieldType columns) = .ok checked) :
    ∃ said, dto.mapFilter (transformFilters validateFieldType columns) =
      .ok said ∧ said.mapFilter checkFilters = .ok checked := by
  rcases mapFilter_eq_ok validated with ⟨rfl, none⟩ | ⟨before, after, isFilter, result, rfl⟩
  · refine ⟨dto, ?_, ?_⟩
    · rw [mapFilter, none]
    · rw [mapFilter, none]
  · obtain ⟨saidFilter, transformed, isChecked⟩ := Except.bind_eq_ok_iff.mp result
    refine ⟨{ dto with filter := some saidFilter }, ?_, ?_⟩
    · rw [mapFilter, isFilter]
      simp only [transformed]
      rfl
    · rw [mapFilter]
      simp only [isChecked]
      rfl

/-- Requests with validated filters and a search term mean what they say
exactly if the term occurs in the rows that escape it. -/
theorem queries_mean_what_they_say_iff (db : Database)
    (validateFieldType : DataTableColumnType → DataTableCell → Option DataTableCell)
    (columns : List (String × DataTableColumnType)) (rows : List DataTableRow)
    {dto checked : ListDataTableContentQueryDto} (validated : dto.mapFilter
      (validateAndTransformFilters validateFieldType columns) = .ok checked) :
    ∃ said, dto.mapFilter (transformFilters validateFieldType columns) = .ok said ∧
      (MeansWhatItSays db (columns.map Prod.fst) rows said checked ↔
        SearchFits db (columns.map Prod.fst) rows said) := by
  obtain ⟨said, transformed, isChecked⟩ := exists_said validated
  exact ⟨said, transformed, meansWhatItSays_iff_searchFits isChecked⟩

/-- Letters are the only characters that `UPPER` changes. -/
theorem toUpper_special (char : Char) : ∀ special ∈ ['%', '_', '\\'],
    char.toUpper = special ↔ char = special := by
  intro special mem
  have code : special.val.toNat < 65 ∨ 90 < special.val.toNat ∧ special.val.toNat < 97 := by
    simp only [mem_cons, not_mem_nil, or_false] at mem
    rcases mem with rfl | rfl | rfl <;> decide
  unfold Char.toUpper
  split
  next isLower =>
    have low : 97 ≤ char.val.toNat := UInt32.le_iff_toNat_le.mp isLower.1
    have high : char.val.toNat ≤ 122 := UInt32.le_iff_toNat_le.mp isLower.2
    have raised : (char.val + ('A'.val - 'a'.val)).toNat = char.val.toNat - 32 := by
      rw [UInt32.toNat_add]
      have offset : ('A'.val - 'a'.val).toNat = 2 ^ 32 - 32 := by decide
      omega
    constructor
    · rintro rfl
      change (char.val + ('A'.val - 'a'.val)).toNat < 65 ∨
        90 < (char.val + ('A'.val - 'a'.val)).toNat ∧
          (char.val + ('A'.val - 'a'.val)).toNat < 97 at code
      omega
    · rintro rfl
      omega
  · rfl

def sampleDatabase : Database where
  dbType := .sqlite
  compare
    | .number first, .number second => compareOfLessAndEq first second
    | first, second => compareOfLessAndEq first.text second.text
  castText := DataTableCell.text
  fold := Char.toUpper
  fold_special := toUpper_special
  order _ _ _ := true

def sampleRows : List DataTableRow :=
  [.ofList [("name", .string "Ada"), ("age", .number 36)],
    .ofList [("name", .string "Bob"), ("age", .null)]]

def sampleTypes : List (String × DataTableColumnType) :=
  [("name", .string), ("age", .number)]

/-- The rows with an age or the name Bob, and among them those with a `b`. -/
def alternatives : ListDataTableContentQueryDto :=
  { filter := some { type := .or, filters :=
      [{ columnName := "age", condition := .gt, value := .number 30 },
        { columnName := "name", value := .string "Bob" }] }
    search := some "b" }

def sampleQuery : ListDataTableContentQueryDto :=
  { filter := some { filters :=
      [{ columnName := "name", condition := .like, value := .string "a" }] }
    search := some "A" }

instance (db : Database) (columnNames : List String) (rows : List DataTableRow)
    (said : ListDataTableContentQueryDto) :
    Decidable (SearchFits db columnNames rows said) :=
  inferInstanceAs (Decidable (∀ search ∈ said.term?, ∀ row ∈ rows, _ → _))

theorem sampleQuery_means_what_it_says : ∃ said checked, sampleQuery.mapFilter
      (validateAndTransformFilters (fun _ => some) sampleTypes) = .ok checked ∧
    MeansWhatItSays sampleDatabase (sampleTypes.map Prod.fst) sampleRows said
      checked := by
  obtain ⟨said, transformed, iff⟩ := queries_mean_what_they_say_iff
    sampleDatabase (fun _ => some) sampleTypes sampleRows
    (show sampleQuery.mapFilter (validateAndTransformFilters (fun _ => some)
      sampleTypes) = .ok _ from rfl)
  cases transformed
  refine ⟨_, _, rfl, iff.mpr ?_⟩
  decide +kernel

/-- The row of Ada is selected without a `b`. -/
theorem alternatives_escape_search : ∃ said checked,
    alternatives.mapFilter (transformFilters (fun _ => some) sampleTypes) = .ok said ∧
    said.mapFilter checkFilters = .ok checked ∧
    ¬ MeansWhatItSays sampleDatabase (sampleTypes.map Prod.fst) sampleRows said
      checked := by
  refine ⟨_, _, rfl, rfl, fun means => ?_⟩
  have count := means.count
  revert count
  decide +kernel

end N8n
