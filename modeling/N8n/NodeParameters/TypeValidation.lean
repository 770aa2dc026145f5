import Mathlib.Algebra.Order.Ring.Rat

/-!
# Validation of the types of values

`validateFieldType` reads a value as a type, or says why it cannot.  What the
language and its date library convert is taken from a `ScriptRuntime`; a
conversion that throws has no value.
-/

namespace N8n

namespace FilterParameter

inductive ScriptNumber where
  | nan
  | finite (value : Rat)
  | infinity
  | negativeInfinity
deriving DecidableEq

/-- The values of a script, without functions, symbols and big integers.  A
date that is not valid has no time. -/
inductive ScriptValue where
  | undefined
  | null
  | bool (value : Bool)
  | number (value : ScriptNumber)
  | string (value : String)
  | array (items : List ScriptValue)
  | object (fields : List (String × ScriptValue))
  | date (time : Option Int)
  | dateTime (time : Option Int)

namespace ScriptValue

def typeOf : ScriptValue → String
  | .undefined => "undefined"
  | .bool _ => "boolean"
  | .number _ => "number"
  | .string _ => "string"
  | .null | .array _ | .object _ | .date _ | .dateTime _ => "object"

/-- `Boolean(value)` -/
def isTruthy : ScriptValue → Bool
  | .undefined | .null => false
  | .bool value => value
  | .number value => value ≠ .nan ∧ value ≠ .finite 0
  | .string value => value ≠ ""
  | .array _ | .object _ | .date _ | .dateTime _ => true

def isNullish : ScriptValue → Bool
  | .undefined | .null => true
  | _ => false

def isNaN : ScriptValue → Bool
  | .number .nan => true
  | _ => false

def isString : ScriptValue → Bool
  | .string _ => true
  | _ => false

def isNumber : ScriptValue → Bool
  | .number _ => true
  | _ => false

def isBoolean : ScriptValue → Bool
  | .bool _ => true
  | _ => false

def isArray : ScriptValue → Bool
  | .array _ => true
  | _ => false

def isObject : ScriptValue → Bool
  | .array _ | .object _ | .date _ | .dateTime _ => true
  | _ => false

end ScriptValue

/-- Conversions, operators and parsers that are not part of the package.  What
a conversion of an object does is up to the object. -/
structure ScriptRuntime where
  toNumber : ScriptValue → Option ScriptNumber
  toText : ScriptValue → Option String
  stringify : ScriptValue → Option (Option String)
  parseJson : String → Option ScriptValue
  parseJsObject : String → Option ScriptValue
  toLowerCase : String → String
  toLocaleLowerCase : String → String
  trim : String → String
  fromISO : String → Option Int
  fromHTTP : String → Option Int
  fromRFC2822 : String → Option Int
  fromSQL : String → Option Int
  fromDateParse : String → Option Int
  strictEquals : ScriptValue → ScriptValue → Bool
  sameValueZero : ScriptValue → ScriptValue → Bool
  compare : ScriptValue → ScriptValue → Option (Option Ordering)
  regExp : String → String → Option (String → Bool)

inductive FilterOperatorType where
  | string
  | number
  | boolean
  | array
  | object
  | dateTime
  | any
deriving DecidableEq

def FilterOperatorType.name : FilterOperatorType → String
  | .string => "string"
  | .number => "number"
  | .boolean => "boolean"
  | .array => "array"
  | .object => "object"
  | .dateTime => "dateTime"
  | .any => "any"

inductive ValidationResult where
  | valid (newValue : ScriptValue)
  | invalid (errorMessage : String)

namespace ValidationResult

def isValid : ValidationResult → Bool
  | .valid _ => true
  | .invalid _ => false

/-- The value of a result, which is undefined when it is not valid. -/
def newValue : ValidationResult → ScriptValue
  | .valid value => value
  | .invalid _ => .undefined

/-- A conversion in a `try` whose `catch` reports the message. -/
def ofConversion (errorMessage : String) : Option ScriptValue → ValidationResult
  | some value => .valid value
  | none => .invalid errorMessage

@[simp] theorem isValid_valid (value : ScriptValue) : (valid value).isValid = true := rfl

@[simp] theorem isValid_invalid (message : String) : (invalid message).isValid = false := rfl

@[simp] theorem isValid_ofConversion (message : String) (converted : Option ScriptValue) :
    (ofConversion message converted).isValid = converted.isSome := by
  cases converted with
  | none => rfl
  | some value => rfl

end ValidationResult

namespace ScriptRuntime

variable (runtime : ScriptRuntime)

def tryToParseNumber (value : ScriptValue) : Option ScriptValue :=
  match runtime.toNumber value with
  | none => none
  | some .nan => none
  | some number => some (.number number)

/-- `JSON.stringify` has no text for what a `toJSON` makes undefined. -/
def tryToParseString : ScriptValue → Option ScriptValue
  | .undefined => some (.string "")
  | .string value => some (.string value)
  | .bool value => (runtime.toText (.bool value)).map .string
  | .number value => (runtime.toText (.number value)).map .string
  | value =>
    (runtime.stringify value).map fun text => text.elim .undefined .string

def parseBooleanText (text : String) : Option ScriptValue :=
  if runtime.toLowerCase text = "true" then some (.bool true)
  else if runtime.toLowerCase text = "false" then some (.bool false)
  else none

/-- Of the numbers only 0 and 1 are booleans. -/
def parseBooleanNumber (value : ScriptValue) : Option ScriptValue :=
  match runtime.toNumber value with
  | some (.finite number) =>
    if number = 0 then some (.bool false)
    else if number = 1 then some (.bool true)
    else none
  | _ => none

def tryToParseBoolean : ScriptValue → Option ScriptValue
  | .bool value => some (.bool value)
  | .string text =>
    match runtime.parseBooleanText text with
    | some value => some value
    | none =>
      -- A blank text would be the number 0.
      if runtime.trim text = "" then none
      else runtime.parseBooleanNumber (.string text)
  | value => runtime.parseBooleanNumber value

def parseDateString (dateString : String) : Option ScriptValue :=
  ((runtime.fromISO dateString).orElse fun _ =>
    (runtime.fromHTTP dateString).orElse fun _ =>
    (runtime.fromRFC2822 dateString).orElse fun _ =>
    (runtime.fromSQL dateString).orElse fun _ =>
    runtime.fromDateParse dateString).map fun time => .dateTime (some time)

/-- A date that is not valid is read from its text like anything else. -/
def tryToParseDateTime : ScriptValue → Option ScriptValue
  | .dateTime (some time) => some (.dateTime (some time))
  | .date (some time) => some (.dateTime (some time))
  | value =>
    (runtime.toText value).bind fun text =>
      runtime.parseDateString (runtime.trim text)

/-- `value.replace(/'/g, '"')` -/
def replaceQuotes (text : String) : String :=
  String.ofList (text.toList.map fun char =>
    if char = Char.ofNat 39 then Char.ofNat 34 else char)

def tryToParseArray : ScriptValue → Option ScriptValue
  | .array items => some (.array items)
  | value =>
    (runtime.toText value).bind fun text =>
      let parsed := (runtime.parseJson text).orElse fun _ =>
        runtime.parseJson (replaceQuotes text)
      parsed.filter ScriptValue.isArray

/-- What is parsed may be null, of which the type is an object too. -/
def tryToParseObject : ScriptValue → Option ScriptValue
  | .object fields => some (.object fields)
  | .date time => some (.date time)
  | .dateTime time => some (.dateTime time)
  | value =>
    (runtime.toText value).bind fun text =>
      let parsed := (runtime.parseJson text).orElse fun _ =>
        runtime.parseJsObject text
      parsed.filter fun object =>
        object.typeOf = "object" && !object.isArray

/-- A value that is no object has a text. -/
def getValueDescription : ScriptValue → String
  | .null => "'null'"
  | .array _ => "array"
  | .object _ | .date _ | .dateTime _ => "object"
  | value => "'" ++ (runtime.toText value).getD "" ++ "'"

def dateFormatHint : String :=
  " <br/><br/> Consider using <a href=\"https://moment.github.io/luxon/api-docs/index.html#datetimefromformat\" target=\"_blank\"><code>DateTime.fromFormat</code></a> to work with custom date formats."

def validateFieldType (fieldName : String) (value : ScriptValue)
    (type : FilterOperatorType) (strict parseStrings : Bool) :
    ValidationResult :=
  if value.isNullish then .valid .undefined
  else
    let defaultErrorMessage := "'" ++ fieldName ++ "' expects a " ++ type.name ++ " but we got " ++
        runtime.getValueDescription value
    match type with
    | .string =>
      if !parseStrings then .valid value
      else if strict && !value.isString then .invalid defaultErrorMessage
      else .ofConversion defaultErrorMessage (runtime.tryToParseString value)
    | .number =>
      if strict && !value.isNumber then .invalid defaultErrorMessage
      else .ofConversion defaultErrorMessage (runtime.tryToParseNumber value)
    | .boolean =>
      if strict && !value.isBoolean then .invalid defaultErrorMessage
      else .ofConversion defaultErrorMessage (runtime.tryToParseBoolean value)
    | .dateTime =>
      .ofConversion (defaultErrorMessage ++ dateFormatHint) (runtime.tryToParseDateTime value)
    | .object =>
      if strict && !value.isObject then .invalid defaultErrorMessage
      else .ofConversion defaultErrorMessage (runtime.tryToParseObject value)
    | .array =>
      if strict && !value.isArray then .invalid defaultErrorMessage
      else .ofConversion defaultErrorMessage (runtime.tryToParseArray value)
    | .any => .valid value

/-! ## Which values have a type -/

/-- What a strict validation asks of a value. -/
def HasType (value : ScriptValue) : FilterOperatorType → Prop
  | .string => value.isString = true
  | .number => value.isNumber = true
  | .boolean => value.isBoolean = true
  | .array => value.isArray = true
  | .object => value.isObject = true
  | .dateTime | .any => True

def convert (value : ScriptValue) : FilterOperatorType → Option ScriptValue
  | .string => runtime.tryToParseString value
  | .number => runtime.tryToParseNumber value
  | .boolean => runtime.tryToParseBoolean value
  | .array => runtime.tryToParseArray value
  | .object => runtime.tryToParseObject value
  | .dateTime => runtime.tryToParseDateTime value
  | .any => some value

/-- A value has the type already, where that is asked, and can be converted. -/
def HoldsType (strict : Bool) (type : FilterOperatorType) (value : ScriptValue) : Prop :=
  (strict = true → HasType value type) ∧ (runtime.convert value type).isSome

private theorem strictlyValid_iff {strict hasType : Bool} {message : String}
    {converted : Option ScriptValue} :
    (if strict && !hasType then ValidationResult.invalid message
      else .ofConversion message converted).isValid = true ↔
      (strict = true → hasType = true) ∧ converted.isSome = true := by
  cases strict with
  | false => simp
  | true =>
    cases hasType with
    | false => simp
    | true => simp

theorem validateFieldType_isValid_iff {fieldName : String}
    {value : ScriptValue} {type : FilterOperatorType} {strict : Bool}
    (given : value.isNullish = false) :
    (runtime.validateFieldType fieldName value type strict true).isValid = true ↔
      runtime.HoldsType strict type value := by
  unfold validateFieldType HoldsType
  simp only [given, Bool.false_eq_true, if_false]
  cases type with
  | string | number | boolean | array | object => exact strictlyValid_iff
  | dateTime | any => simp [HasType, convert]

end ScriptRuntime

end FilterParameter

end N8n
