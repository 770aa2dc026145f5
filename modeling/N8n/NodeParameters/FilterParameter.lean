import Mathlib.Data.List.Infix
import N8n.Library.OrderedMap
import N8n.NodeParameters.TypeValidation

/-!
# Filter parameters

A condition whose values cannot be read as the types of its operator makes the
parser return an error, which the execution throws.  The validation waits for
an exception instead, so it reports nothing.
-/

namespace N8n

namespace FilterParameter

structure FilterOperatorValue where
  type : FilterOperatorType
  operation : String
  rightType : Option FilterOperatorType := none
  singleValue : Bool := false

structure FilterConditionValue where
  leftValue : ScriptValue
  operator : FilterOperatorValue
  rightValue : ScriptValue

inductive TypeValidation where
  | strict
  | loose
deriving DecidableEq

structure FilterOptionsValue where
  caseSensitive : Bool
  typeValidation : TypeValidation
  version : Option Nat := none

structure FilterValue where
  options : FilterOptionsValue
  conditions : List FilterConditionValue

inductive ErrorFormat where
  | full
  | inline

structure FilterConditionMetadata where
  index : Option Nat := none
  unresolvedExpressions : Bool := false
  itemIndex : Option Nat := none
  errorFormat : Option ErrorFormat := none

structure FilterError where
  message : String
  description : String

/-- What the language throws. -/
inductive ScriptError where
  | typeError
  | syntaxError

inductive Thrown where
  | filterError (error : FilterError)
  | scriptError (error : ScriptError)

structure ParsedValues where
  left : ScriptValue
  right : ScriptValue

def FilterOptionsValue.isStrict (options : FilterOptionsValue) : Bool :=
  options.typeValidation = .strict

def FilterConditionValue.rightType (condition : FilterConditionValue) : FilterOperatorType :=
  condition.operator.rightType.getD condition.operator.type

def startsWithEquals : ScriptValue → Bool
  | .string text => text.toList.head? = some '='
  | _ => false

def withIndefiniteArticle (noun : String) : String :=
  match noun.toList.head? with
  | none => "an " ++ noun
  | some char =>
    if char ∈ ['a', 'e', 'i', 'o', 'u'] then "an " ++ noun else "a " ++ noun

def getTypeDescription (isStrict : Bool) : String :=
  if isStrict then
    "Try changing the type of comparison. Alternatively you can enable 'Convert types where required'."
  else "Try changing the type of the comparison."

def conversionFunction : FilterOperatorType → String
  | .string => ".toString()"
  | .number => ".toNumber()"
  | .boolean => ".toBoolean()"
  | _ => ""

def composeInvalidTypeDescription (strict : Bool) (type : FilterOperatorType)
    (valuePosition : String) : String :=
  let expectedType := withIndefiniteArticle type.name
  if strict && conversionFunction type ≠ "" then
    let suggestFunction := " by adding <code>" ++ conversionFunction type ++ "</code>"
    "\n<p>Try either:</p>\n<ol>\n  <li>Enabling 'Convert types where required'</li>\n  <li>Converting the " ++
      valuePosition ++ " field to " ++ expectedType ++ suggestFunction ++
      "</li>\n</ol>\n\t\t\t"
  else getTypeDescription strict

def errorSuffix (metadata : FilterConditionMetadata) : String :=
  let index := toString (metadata.index.getD 0)
  let itemIndex := toString (metadata.itemIndex.getD 0)
  match metadata.errorFormat.getD .full with
  | .full => "[condition " ++ index ++ ", item " ++ itemIndex ++ "]"
  | .inline => "[item " ++ itemIndex ++ "]"

/-- What an array that is searched for a value answers.  Only a number, a
boolean or a date gets here without being an array, and they cannot be
searched. -/
def arrayContainsValue (runtime : ScriptRuntime) (array value : ScriptValue)
    (ignoreCase : Bool) : Except ScriptError Bool :=
  match array with
  | .array items =>
    match ignoreCase, value with
    | true, .string text =>
      .ok (items.any fun item =>
        match item with
        | .string itemText =>
          runtime.toLocaleLowerCase itemText = runtime.toLocaleLowerCase text
        | _ => false)
    | _, _ => .ok (items.any fun item => runtime.sameValueZero item value)
  | _ => .error .typeError

def isLineTerminator (char : Char) : Bool :=
  char = '\n' || char = '\r' || char = Char.ofNat 0x2028 || char = Char.ofNat 0x2029

/-- The body and the flags of what follows the first slash in `/body/flags`. -/
def regexBody : List Char → Option (List Char × List Char)
  | [] => none
  | char :: rest =>
    if char = '/' && rest.all (· ∈ ['g', 'i', 'm', 'u', 's', 'y']) then
      some ([], rest)
    else if isLineTerminator char then none
    else (regexBody rest).map fun found => (char :: found.1, found.2)

def parseRegexPattern (runtime : ScriptRuntime) (pattern : String) :
    Except ScriptError (String → Bool) :=
  let regexMatch :=
    match pattern.toList with
    | '/' :: rest => regexBody rest
    | _ => none
  let regex :=
    match regexMatch with
    | none => runtime.regExp pattern ""
    | some (body, flags) =>
      runtime.regExp (String.ofList body) (String.ofList flags)
  match regex with
  | none => .error .syntaxError
  | some test => .ok test

namespace ScriptRuntime

variable (runtime : ScriptRuntime)

def parseSingleFilterValue (value : ScriptValue) (type : FilterOperatorType)
    (strict : Bool) (version : Nat) : ValidationResult :=
  if type = .any || value.isNullish then .valid value
  else
    match type, value with
    | .boolean, value =>
      if strict then
        runtime.validateFieldType "filter" value .boolean strict true
      else
        let result := runtime.validateFieldType "filter" value .boolean false false
        if version ≥ 2 && result.isValid then result
        else .valid (.bool value.isTruthy)
    | .number, .number .nan => .valid (.number .nan)
    | .number, .string text =>
      -- A blank text and an empty array would be the number 0.
      if runtime.trim text = "" && version ≥ 3 then .valid .null
      else
        runtime.validateFieldType "filter" (.string text) .number strict true
    | .number, .array items =>
      if items.isEmpty && version ≥ 3 then .valid .null
      else
        runtime.validateFieldType "filter" (.array items) .number strict true
    | type, value =>
      runtime.validateFieldType "filter" value type strict true

def composeInvalidTypeMessage (strict : Bool) (type : FilterOperatorType)
    (fromType value suffix : String) : String :=
  let fromType := runtime.toLocaleLowerCase fromType
  if strict then
    "Wrong type: '" ++ value ++ "' is " ++ withIndefiniteArticle fromType ++
      " but was expecting " ++ withIndefiniteArticle type.name ++ " " ++ suffix
  else
    "Conversion error: the " ++ fromType ++ " '" ++ value ++
      "' can't be converted to " ++ withIndefiniteArticle type.name ++ " " ++
      suffix

section

variable (condition : FilterConditionValue) (options : FilterOptionsValue)

def parseLeftValue : ValidationResult :=
  runtime.parseSingleFilterValue condition.leftValue condition.operator.type
    options.isStrict (options.version.getD 1)

def parseRightValue : ValidationResult :=
  runtime.parseSingleFilterValue condition.rightValue condition.rightType
    options.isStrict (options.version.getD 1)

/-- The texts of both values are made for the messages, whether or not there is
one. -/
def parseFilterConditionValues (metadata : FilterConditionMetadata) :
    Except ScriptError (Except FilterError ParsedValues) :=
  let strict := options.isStrict
  let operator := condition.operator
  let parsedLeftValue := runtime.parseLeftValue condition options
  let parsedRightValue := runtime.parseRightValue condition options
  let leftValid := parsedLeftValue.isValid ||
      (metadata.unresolvedExpressions && startsWithEquals condition.leftValue)
  let rightValid := parsedRightValue.isValid || operator.singleValue ||
      (metadata.unresolvedExpressions && startsWithEquals condition.rightValue)
  match runtime.toText condition.leftValue, runtime.toText condition.rightValue with
  | some leftValueString, some rightValueString =>
    let suffix := errorSuffix metadata
    let leftType := condition.leftValue.typeOf
    let rightType := condition.rightValue.typeOf
    if !leftValid && !rightValid && leftType = rightType then
      .ok (.error
        { message := "Comparison type expects " ++
              withIndefiniteArticle operator.type.name ++
              " but both fields are " ++ withIndefiniteArticle leftType
          description := getTypeDescription strict })
    else if !leftValid then
      .ok (.error
        { message := runtime.composeInvalidTypeMessage strict operator.type leftType
              leftValueString suffix
          description := composeInvalidTypeDescription strict operator.type "first" })
    else if !rightValid then
      .ok (.error
        { message := runtime.composeInvalidTypeMessage strict condition.rightType
              rightType rightValueString suffix
          description := composeInvalidTypeDescription strict condition.rightType "second" })
    else
      .ok (.ok
        { left := parsedLeftValue.newValue
          right := parsedRightValue.newValue })
  | _, _ => .error .typeError

end

/-! ## The operators -/

/-- `value.length` -/
def lengthOf : ScriptValue → ScriptValue
  | .array items => .number (.finite items.length)
  | .string text => .number (.finite text.length)
  | .object fields => (fields.lookup "length").getD .undefined
  | _ => .undefined

def textOf (value : ScriptValue) : Except ScriptError String :=
  match runtime.toText value with
  | none => .error .typeError
  | some text => .ok text

/-- A comparison with a value that is not a number is not fulfilled. -/
def compares (accepts : Ordering → Bool) (left right : ScriptValue) : Except ScriptError Bool :=
  match runtime.compare left right with
  | none => .error .typeError
  | some none => .ok false
  | some (some ordering) => .ok (accepts ordering)

/-- `(pattern || '').match` takes what is not truthy for an empty pattern. -/
def patternOf (right : ScriptValue) : Except ScriptError String :=
  match right with
  | .string text => .ok text
  | right => if right.isTruthy then .error .typeError else .ok ""

/-- The time of a date, which is not a number when the date is not valid. -/
def toMillis : ScriptValue → Except ScriptError (Option Int)
  | .dateTime time => .ok time
  | _ => .error .typeError

def comparesMillis (accepts : Int → Int → Bool) (left right : ScriptValue) :
    Except ScriptError Bool := do
  match ← toMillis left, ← toMillis right with
  | some leftTime, some rightTime => .ok (accepts leftTime rightTime)
  | _, _ => .ok false

def hasKeys : ScriptValue → Bool
  | .object fields => !fields.isEmpty
  | .array items => !items.isEmpty
  | .string text => text ≠ ""
  | .dateTime _ => true
  | _ => false

/-- The cases of the types fall through from one to the next, down to this one.
An operation that none of them knows is not fulfilled. -/
def evaluateObject (operation : String) (leftValue : ScriptValue) : Except ScriptError Bool :=
  match operation with
  | "empty" => .ok (!leftValue.isTruthy || !hasKeys leftValue)
  | "notEmpty" => .ok (leftValue.isTruthy && hasKeys leftValue)
  | _ => .ok false

variable (ignoreCase : Bool) (operation : String) (leftValue rightValue : ScriptValue)

def evaluateArray : Except ScriptError Bool :=
  let left := if leftValue.isNullish then .array [] else leftValue
  let length := lengthOf left
  let zero := ScriptValue.number (.finite 0)
  match operation with
  | "contains" => arrayContainsValue runtime left rightValue ignoreCase
  | "notContains" =>
    (arrayContainsValue runtime left rightValue ignoreCase).map (!·)
  | "lengthEquals" => .ok (runtime.strictEquals length rightValue)
  | "lengthNotEquals" => .ok (!runtime.strictEquals length rightValue)
  | "lengthGt" => runtime.compares (·.isGT) length rightValue
  | "lengthLt" => runtime.compares (·.isLT) length rightValue
  | "lengthGte" => runtime.compares (·.isGE) length rightValue
  | "lengthLte" => runtime.compares (·.isLE) length rightValue
  | "empty" => .ok (runtime.strictEquals length zero)
  | "notEmpty" => .ok (!runtime.strictEquals length zero)
  | _ => evaluateObject operation leftValue

def valueExists (leftValue : ScriptValue) : Bool :=
  !leftValue.isNullish && !leftValue.isNaN

/-- The callers of a condition only ask whether its result is truthy. -/
def evaluateBoolean : Except ScriptError Bool :=
  match operation with
  | "empty" => .ok (!valueExists leftValue)
  | "notEmpty" => .ok (valueExists leftValue)
  | "true" => .ok leftValue.isTruthy
  | "false" => .ok (!leftValue.isTruthy)
  | "equals" => .ok (runtime.strictEquals leftValue rightValue)
  | "notEquals" => .ok (!runtime.strictEquals leftValue rightValue)
  | _ => runtime.evaluateArray ignoreCase operation leftValue rightValue

def evaluateDateTime : Except ScriptError Bool :=
  if operation = "empty" then .ok (!valueExists leftValue)
  else if operation = "notEmpty" then .ok (valueExists leftValue)
  else if !leftValue.isTruthy || !rightValue.isTruthy then .ok false
  else
    match operation with
    | "equals" => comparesMillis (· = ·) leftValue rightValue
    | "notEquals" => (comparesMillis (· = ·) leftValue rightValue).map (!·)
    | "after" => comparesMillis (· > ·) leftValue rightValue
    | "before" => comparesMillis (· < ·) leftValue rightValue
    | "afterOrEquals" => comparesMillis (· ≥ ·) leftValue rightValue
    | "beforeOrEquals" => comparesMillis (· ≤ ·) leftValue rightValue
    | _ => runtime.evaluateBoolean ignoreCase operation leftValue rightValue

def evaluateNumber : Except ScriptError Bool :=
  match operation with
  | "empty" => .ok (!valueExists leftValue)
  | "notEmpty" => .ok (valueExists leftValue)
  | "equals" => .ok (runtime.strictEquals leftValue rightValue)
  | "notEquals" => .ok (!runtime.strictEquals leftValue rightValue)
  | "gt" => runtime.compares (·.isGT) leftValue rightValue
  | "lt" => runtime.compares (·.isLT) leftValue rightValue
  | "gte" => runtime.compares (·.isGE) leftValue rightValue
  | "lte" => runtime.compares (·.isLE) leftValue rightValue
  | _ => runtime.evaluateDateTime ignoreCase operation leftValue rightValue

def lowerCased : ScriptValue → ScriptValue
  | .string text => .string (runtime.toLocaleLowerCase text)
  | value => value

/-- The left value of an operator on strings is a text when it is there. -/
def evaluateString : Except ScriptError Bool := do
  let isRegex := operation = "regex" || operation = "notRegex"
  let leftValue := if ignoreCase then runtime.lowerCased leftValue else leftValue
  let rightValue :=
    if ignoreCase && !isRegex then runtime.lowerCased rightValue else rightValue
  let left := match leftValue with
    | .string text => text
    | _ => ""
  let right := if rightValue.isNullish then .string "" else rightValue
  match operation with
  | "empty" => .ok (left = "")
  | "notEmpty" => .ok (left ≠ "")
  | "equals" => .ok (runtime.strictEquals (.string left) right)
  | "notEquals" => .ok (!runtime.strictEquals (.string left) right)
  | "contains" =>
    let text ← runtime.textOf right
    .ok (decide (text.toList <:+: left.toList))
  | "notContains" =>
    let text ← runtime.textOf right
    .ok (!decide (text.toList <:+: left.toList))
  | "startsWith" =>
    let text ← runtime.textOf right
    .ok (decide (text.toList <+: left.toList))
  | "notStartsWith" =>
    let text ← runtime.textOf right
    .ok (!decide (text.toList <+: left.toList))
  | "endsWith" =>
    let text ← runtime.textOf right
    .ok (decide (text.toList <:+ left.toList))
  | "notEndsWith" =>
    let text ← runtime.textOf right
    .ok (!decide (text.toList <:+ left.toList))
  | "regex" =>
    let test ← parseRegexPattern runtime (← patternOf right)
    .ok (test left)
  | "notRegex" =>
    let test ← parseRegexPattern runtime (← patternOf right)
    .ok (!test left)
  | _ => .ok false

def evaluate (operator : FilterOperatorValue) (ignoreCase : Bool)
    (values : ParsedValues) : Except ScriptError Bool :=
  let leftValue := values.left
  let rightValue := values.right
  let operation := operator.operation
  if operation = "exists" then .ok (valueExists leftValue)
  else if operation = "notExists" then .ok (!valueExists leftValue)
  else
    match operator.type with
    | .string => runtime.evaluateString ignoreCase operation leftValue rightValue
    | .number => runtime.evaluateNumber ignoreCase operation leftValue rightValue
    | .dateTime =>
      runtime.evaluateDateTime ignoreCase operation leftValue rightValue
    | .boolean =>
      runtime.evaluateBoolean ignoreCase operation leftValue rightValue
    | .array => runtime.evaluateArray ignoreCase operation leftValue rightValue
    | .object => evaluateObject operation leftValue
    | .any => .ok false

def executeFilterCondition (condition : FilterConditionValue)
    (filterOptions : FilterOptionsValue) (metadata : FilterConditionMetadata) :
    Except Thrown Bool :=
  let ignoreCase := !filterOptions.caseSensitive
  match runtime.parseFilterConditionValues condition filterOptions metadata with
  | .error error => .error (.scriptError error)
  | .ok (.error error) => .error (.filterError error)
  | .ok (.ok values) =>
    (runtime.evaluate condition.operator ignoreCase values).mapError .scriptError

end ScriptRuntime

/-! ## Validation -/

/-- The messages under the name of the parameter and the index of a condition. -/
abbrev FilterIssues := OrderedMap String (List String)

def issueKey (name : String) (index : Nat) : String := name ++ "." ++ toString index

section Validation

variable (runtime : ScriptRuntime) (name : String)

/-- A message is pushed to a list that nothing has put under the key. -/
def pushIssue (issues : FilterIssues) (key message : String) : Except Thrown FilterIssues :=
  match issues.get? key with
  | none => .error (.scriptError .typeError)
  | some messages => .ok (issues.set key (messages ++ [message]))

/-- The parser is called in a `try`, and its result is not looked at. -/
def validateCondition (options : FilterOptionsValue) (issues : FilterIssues)
    (entry : FilterConditionValue × Nat) : Except Thrown FilterIssues :=
  let key := issueKey name entry.2
  let metadata : FilterConditionMetadata :=
    { index := some entry.2
      unresolvedExpressions := true
      errorFormat := some .inline }
  let parsed : Except Thrown (Except FilterError ParsedValues) :=
    (runtime.parseFilterConditionValues entry.1 options metadata).mapError .scriptError
  match parsed with
  | .error (.filterError error) => pushIssue issues key error.message
  | .error (.scriptError _) => .ok issues
  | .ok _ => .ok issues

def validateFilterParameter (value : FilterValue) : Except Thrown FilterIssues :=
  value.conditions.zipIdx.foldlM (validateCondition runtime name value.options) .empty

/-! ## Agreement with the execution -/

/-- The execution of a condition as `executeFilter` asks for it throws a
`FilterError`. -/
def FailsWithFilterError (options : FilterOptionsValue)
    (condition : FilterConditionValue) (index : Nat)
    (itemIndex : Option Nat) : Prop :=
  ∃ error : FilterError, runtime.executeFilterCondition condition options
        { index := some index, itemIndex := itemIndex } =
      .error (.filterError error)

def ReportsIssue (issues : FilterIssues) (index : Nat) : Prop :=
  ∃ messages : List String, issues.get? (issueKey name index) = some messages ∧ messages ≠ []

/-- The validation returns, and reports the conditions of which the execution
fails. -/
def AgreesWithExecution (value : FilterValue) (itemIndex : Option Nat) : Prop :=
  ∃ issues : FilterIssues, validateFilterParameter runtime name value = .ok issues ∧
      ∀ (index : Nat) (condition : FilterConditionValue),
        value.conditions[index]? = some condition → (ReportsIssue name issues index ↔
            FailsWithFilterError runtime value.options condition index itemIndex)

/-- A value that is there, and not taken for a missing one, has the type that
the operator asks for, or can be converted where that is enough. -/
def Readable (options : FilterOptionsValue) (type : FilterOperatorType)
    (value : ScriptValue) : Prop :=
  type = .any ∨ value.isNullish = true ∨ (type = .boolean ∧ options.isStrict = false) ∨
    (type = .number ∧ ReadsAsMissing value) ∨
    runtime.HoldsType options.isStrict type value
where
  /-- What is no number, or nothing at all. -/
  ReadsAsMissing : ScriptValue → Prop
    | .number .nan => True
    | .string text => runtime.trim text = "" ∧ 3 ≤ options.version.getD 1
    | .array items => items = [] ∧ 3 ≤ options.version.getD 1
    | _ => False

/-- Both values of a condition can be written in a message. -/
def HasTexts (condition : FilterConditionValue) : Prop :=
  (runtime.toText condition.leftValue).isSome ∧ (runtime.toText condition.rightValue).isSome

def ReadableCondition (options : FilterOptionsValue) (condition : FilterConditionValue) : Prop :=
  Readable runtime options condition.operator.type condition.leftValue ∧
    (Readable runtime options condition.rightType condition.rightValue ∨
      condition.operator.singleValue = true)

variable {runtime} {name}

variable {options : FilterOptionsValue} {value : ScriptValue}

private theorem numberValue_isValid_iff (given : value.isNullish = false) :
    (runtime.parseSingleFilterValue value .number options.isStrict
        (options.version.getD 1)).isValid = true ↔
      Readable.ReadsAsMissing runtime options value ∨
        runtime.HoldsType options.isStrict .number value := by
  have checked : (runtime.validateFieldType "filter" value .number
      options.isStrict true).isValid = true ↔
      runtime.HoldsType options.isStrict .number value :=
    runtime.validateFieldType_isValid_iff given
  cases value with
  | undefined => cases given
  | null => cases given
  | number value =>
    cases value with
    | nan =>
      simp [ScriptRuntime.parseSingleFilterValue, Readable.ReadsAsMissing, ScriptValue.isNullish]
    | _ =>
      simpa [ScriptRuntime.parseSingleFilterValue, Readable.ReadsAsMissing,
        ScriptValue.isNullish] using checked
  | string text =>
    by_cases missing : runtime.trim text = "" ∧ 3 ≤ options.version.getD 1
    · simp [ScriptRuntime.parseSingleFilterValue, Readable.ReadsAsMissing,
        ScriptValue.isNullish, missing.1, missing.2]
    · simpa [ScriptRuntime.parseSingleFilterValue, Readable.ReadsAsMissing,
        ScriptValue.isNullish, missing] using checked
  | array items =>
    by_cases missing : items = [] ∧ 3 ≤ options.version.getD 1
    · simp [ScriptRuntime.parseSingleFilterValue, Readable.ReadsAsMissing,
        ScriptValue.isNullish, missing.1, missing.2]
    · simpa [ScriptRuntime.parseSingleFilterValue, Readable.ReadsAsMissing,
        ScriptValue.isNullish, missing] using checked
  | _ =>
    simpa [ScriptRuntime.parseSingleFilterValue, Readable.ReadsAsMissing,
      ScriptValue.isNullish] using checked

private theorem booleanValue_isValid_iff (given : value.isNullish = false) :
    (runtime.parseSingleFilterValue value .boolean options.isStrict
        (options.version.getD 1)).isValid = true ↔
      options.isStrict = false ∨ runtime.HoldsType options.isStrict .boolean value := by
  unfold ScriptRuntime.parseSingleFilterValue
  simp only [given, reduceCtorEq, decide_false, Bool.or_false, Bool.false_eq_true, if_false]
  cases strict : options.isStrict with
  | true => simpa using runtime.validateFieldType_isValid_iff given
  | false =>
    -- What cannot be read as a boolean counts as one by its truth.
    simp only [Bool.false_eq_true, if_false, true_or, iff_true]
    split_ifs with read
    · exact (Bool.and_eq_true_iff.mp read).2
    · rfl

theorem parseSingleFilterValue_isValid_iff {type : FilterOperatorType} :
    (runtime.parseSingleFilterValue value type options.isStrict
        (options.version.getD 1)).isValid = true ↔
      Readable runtime options type value := by
  by_cases missing : value.isNullish = true
  · simp [ScriptRuntime.parseSingleFilterValue, Readable, missing]
  have given : value.isNullish = false := by simpa using missing
  cases type with
  | any => simp [ScriptRuntime.parseSingleFilterValue, Readable]
  | number => simpa [Readable, given] using numberValue_isValid_iff given
  | boolean => simpa [Readable, given] using booleanValue_isValid_iff given
  | _ =>
    simpa [ScriptRuntime.parseSingleFilterValue, Readable, given] using
      runtime.validateFieldType_isValid_iff given

variable {condition : FilterConditionValue}

theorem readableCondition_iff : ReadableCondition runtime options condition ↔
      (runtime.parseLeftValue condition options).isValid = true ∧
        ((runtime.parseRightValue condition options).isValid = true ∨
          condition.operator.singleValue = true) := by
  unfold ReadableCondition ScriptRuntime.parseLeftValue ScriptRuntime.parseRightValue
  rw [parseSingleFilterValue_isValid_iff, parseSingleFilterValue_isValid_iff]

/-- The parser returns an error for a condition that is not readable, when it
gets as far as its message. -/
theorem parseFilterConditionValues_returns_error_iff (metadata : FilterConditionMetadata)
    (resolved : metadata.unresolvedExpressions = false) :
    (∃ error : FilterError, runtime.parseFilterConditionValues condition options metadata =
        .ok (.error error)) ↔
      HasTexts runtime condition ∧ ¬ ReadableCondition runtime options condition := by
  rw [readableCondition_iff]
  unfold ScriptRuntime.parseFilterConditionValues HasTexts
  cases leftText : runtime.toText condition.leftValue with
  | none => simp
  | some leftValueString =>
    cases rightText : runtime.toText condition.rightValue with
    | none => simp
    | some rightValueString =>
      cases left : (runtime.parseLeftValue condition options).isValid with
      | _ =>
        simp only [resolved, Bool.false_and, Bool.or_false]
        split_ifs <;> simp_all

theorem failsWithFilterError_iff {index : Nat} {itemIndex : Option Nat} :
    FailsWithFilterError runtime options condition index itemIndex ↔
      HasTexts runtime condition ∧ ¬ ReadableCondition runtime options condition := by
  rw [← parseFilterConditionValues_returns_error_iff
    { index := some index, itemIndex := itemIndex } rfl]
  unfold FailsWithFilterError ScriptRuntime.executeFilterCondition
  cases parsed : runtime.parseFilterConditionValues condition options
    { index := some index, itemIndex := itemIndex } with
  | error error => simp
  | ok result =>
    cases result with
    | error error => simp
    | ok values =>
      -- The operators throw nothing but what the language throws.
      cases evaluated : runtime.evaluate condition.operator (!options.caseSensitive) values with
      | _ => simp [evaluated, Except.mapError]

variable {issues : FilterIssues}

theorem validateCondition_eq {entry : FilterConditionValue × Nat} :
    validateCondition runtime name options issues entry = .ok issues := by
  unfold validateCondition
  cases parsed : runtime.parseFilterConditionValues entry.1 options
    { index := some entry.2, unresolvedExpressions := true,
      errorFormat := some .inline } with
  | error error | ok result => simp [parsed, Except.mapError]

theorem validateConditions_eq {entries : List (FilterConditionValue × Nat)} :
    entries.foldlM (validateCondition runtime name options) issues = .ok issues := by
  induction entries with
  | nil => rfl
  | cons entry entries ih =>
    rw [List.foldlM_cons, validateCondition_eq]
    exact ih

theorem validateFilterParameter_eq (value : FilterValue) :
    validateFilterParameter runtime name value = .ok .empty :=
  validateConditions_eq

theorem not_reportsIssue_empty (index : Nat) : ¬ ReportsIssue name .empty index := by
  intro reported
  obtain ⟨messages, found, _⟩ := reported
  cases (OrderedMap.get?_empty (issueKey name index)).symm.trans found

variable (runtime) (name)

/-- The validation agrees with the execution of filters of which each condition
that has texts can be read. -/
theorem agreesWithExecution_iff (value : FilterValue) (itemIndex : Option Nat) :
    AgreesWithExecution runtime name value itemIndex ↔
      ∀ condition ∈ value.conditions, HasTexts runtime condition →
        ReadableCondition runtime value.options condition := by
  have agrees : AgreesWithExecution runtime name value itemIndex ↔
      ∀ (index : Nat) (condition : FilterConditionValue),
        value.conditions[index]? = some condition →
          ¬ FailsWithFilterError runtime value.options condition index
            itemIndex := by
    unfold AgreesWithExecution
    simp [validateFilterParameter_eq, not_reportsIssue_empty]
  rw [agrees]
  constructor
  · intro noFailure condition mem texts
    obtain ⟨index, found⟩ := List.mem_iff_getElem?.mp mem
    have succeeds := noFailure index condition found
    rw [failsWithFilterError_iff] at succeeds
    by_contra unreadable
    exact succeeds ⟨texts, unreadable⟩
  · intro readable index condition found failure
    obtain ⟨texts, unreadable⟩ := failsWithFilterError_iff.mp failure
    exact unreadable (readable condition (List.mem_of_getElem? found) texts)

end Validation

/-! ## A condition that cannot be read -/

def textRuntime : ScriptRuntime where
  toNumber
    | .number value => some value
    | .string text =>
      match text.toNat? with
      | some value => some (.finite value)
      | none => some (if text = "" then .finite 0 else .nan)
    | _ => some .nan
  toText
    | .string text => some text
    | .number (.finite value) =>
      if value.den = 1 then some (toString value.num) else some (toString value)
    | _ => some ""
  stringify _ := none
  parseJson _ := none
  parseJsObject _ := none
  toLowerCase := id
  toLocaleLowerCase := id
  trim := id
  fromISO _ := none
  fromHTTP _ := none
  fromRFC2822 _ := none
  fromSQL _ := none
  fromDateParse _ := none
  strictEquals
    | .number left, .number right => left = right
    | .string left, .string right => left = right
    | _, _ => false
  sameValueZero _ _ := false
  compare _ _ := some none
  regExp _ _ := none

def textAsNumber : FilterValue where
  options :=
    { caseSensitive := true
      typeValidation := .strict
      version := some 2 }
  conditions :=
    [{ leftValue := .string "abc"
       operator :=
         { type := .number
           operation := "equals" }
       rightValue := .number (.finite 3) }]

theorem not_agreesWithExecution_textAsNumber :
    ¬ AgreesWithExecution textRuntime "conditions" textAsNumber none := by
  intro agrees
  obtain ⟨issues, validated, agreement⟩ := agrees
  have none_reported : issues = .empty :=
    (Except.ok.inj ((validateFilterParameter_eq textAsNumber).symm.trans validated)).symm
  subst none_reported
  refine not_reportsIssue_empty 0 ((agreement 0 _ rfl).mpr ?_)
  exact ⟨_, rfl⟩

end FilterParameter

end N8n
