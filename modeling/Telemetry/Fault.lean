import Telemetry.Decimal.Literal
import Telemetry.Decimal.Shortest
import Telemetry.Text.Quoted
import Telemetry.Value.Basic

/-!
What can go wrong, as causes. The wording of a fault is one function of its cause,
`Fault.message`; nothing else in the library builds an error text.

- `ConfigProblem`: what makes a configuration invalid or unreadable.
- `Fault`: every error of the library, a failure of a collaborator included.
- `Fault.exists_of_map_eq_ok`, `exists_of_bind_eq_ok`: what a result was made from.
-/

namespace Telemetry

/-- A vocabulary of names in which a word may be missing. -/
inductive Vocabulary where
  | statistic | metricKind | valueType | meterType
  deriving DecidableEq, Repr

def Vocabulary.name : Vocabulary → String
  | .statistic => "Statistic"
  | .metricKind => "MetricKind"
  | .valueType => "ValueType"
  | .meterType => "MeterType"

inductive PositiveSetting where
  | step | batch | workers | timeout
  deriving DecidableEq, Repr

def PositiveSetting.key : PositiveSetting → String
  | .step => "step_seconds"
  | .batch => "batch_size"
  | .workers => "max_workers"
  | .timeout => "timeout_seconds"

inductive ConfigProblem where
  | projectMissing
  | notPositive (setting : PositiveSetting)
  | resourceTypeEmpty
  | labelWithoutValue (segment : String)
  | labelsUnreadable (detail : String)
  | environmentUnreadable (detail : String)
  | fileMissing (path : String)
  | formatUnknown (suffix : String)
  | fileUnreadable (detail : String)
  | rootNotMapping (path : String)
  deriving DecidableEq, Repr

def ConfigProblem.message : ConfigProblem → String
  | .projectMissing => "project_id is required when export is enabled"
  | .notPositive setting => setting.key ++ " must be positive"
  | .resourceTypeEmpty => "resource_type must not be empty"
  | .labelWithoutValue segment =>
    "Invalid resource label '" ++ segment ++ "', expected key=value"
  | .labelsUnreadable detail => "Invalid resource labels: " ++ detail
  | .environmentUnreadable detail => "Invalid environment configuration: " ++ detail
  | .fileMissing path => "Configuration file not found: " ++ path
  | .formatUnknown suffix => "Unsupported file format: " ++ suffix
  | .fileUnreadable detail => "Failed to load config: " ++ detail
  | .rootNotMapping path => "Configuration root must be a mapping: " ++ path

inductive Comparison where
  | atMost | less | greater
  deriving DecidableEq, Repr

def Comparison.symbol : Comparison → String
  | .atMost => "<="
  | .less => "<"
  | .greater => ">"

inductive RequestFailure where
  | unreachable (detail : String)
  | status (code : Int) (body : String)
  | notJson (detail : String)
  deriving DecidableEq, Repr

def RequestFailure.message (method url : String) : RequestFailure → String
  | .unreachable detail => method ++ " " ++ url ++ " failed: " ++ detail
  | .status code _ => method ++ " " ++ url ++ " returned HTTP " ++ Decimal.integer code
  | .notJson detail => method ++ " " ++ url ++ " returned invalid JSON: " ++ detail

inductive Fault where
  | nanToInteger
  | infinityToInteger
  | integerTooLarge
  | unknownName (vocabulary : Vocabulary) (word : String)
  | yearOutOfRange (year : Int)
  | yearTooLarge
  | secondsOutOfRange
  | notComparable (op : Comparison) (left right : Value.Shape)
  | noAttribute (shape : Value.Shape) (name : String)
  | noOperation (meter operation : String)
  | notHeld (name : String)
  | notIterable (shape : Value.Shape)
  | notMultipliable (shape : Value.Shape)
  | notKey (shape : Value.Shape)
  | notIntegerLike (shape : Value.Shape)
  | notNumberLike (shape : Value.Shape)
  | badIntegerText (text : String)
  | integerTextTooLong (digits : Nat)
  | integerTooLongToShow
  | noDigits (base : Nat)
  | notCodePoint
  | codePointTooLarge
  | noSuchTime (problem : CivilProblem)
  | badNumberText (text : String)
  | fractionalIndex
  | bucketsDecrease
  | bucketsExceedCount
  | counterDecrement
  | percentileOutOfRange (p : Binary64)
  | meterKindClash (name kind : String)
  | partitionSizeNotPositive
  | indexOutOfRange
  | noOldestSample
  | stepNotPositive
  | unsupportedSnapshot (name : String)
  | undecodable
  | directory (path : String)
  | pathTooLong (path : String)
  | config (problems : List ConfigProblem)
  | request (method url : String) (failure : RequestFailure)
  | rejected (reason : String) (status : Option Int)
  | raised (text : String)
  deriving DecidableEq

namespace Fault

/-- How much of a quoted text that is no integer a message shows. -/
def shownOfBadInteger : Nat := 200

def message : Fault → String
  | .nanToInteger => "cannot convert float NaN to integer"
  | .infinityToInteger => "cannot convert float infinity to integer"
  | .integerTooLarge => "int too large to convert to float"
  | .unknownName vocabulary word =>
    Text.quoted word ++ " is not a valid " ++ vocabulary.name
  | .yearOutOfRange year => "year " ++ Decimal.integer year ++ " is out of range"
  | .yearTooLarge => "[Errno 75] Value too large for defined data type"
  | .secondsOutOfRange => "timestamp out of range for platform time_t"
  | .notComparable op left right =>
    "'" ++ op.symbol ++ "' not supported between instances of '" ++ left.name ++
      "' and '" ++ right.name ++ "'"
  | .noAttribute shape name =>
    "'" ++ shape.name ++ "' object has no attribute '" ++ name ++ "'"
  | .noOperation meter operation =>
    "'" ++ meter ++ "' object has no attribute '" ++ operation ++ "'"
  | .notHeld name => Text.quoted name
  | .notIterable shape => "'" ++ shape.name ++ "' object is not iterable"
  | .notMultipliable shape =>
    "unsupported operand type(s) for *: '" ++ shape.name ++ "' and 'int'"
  | .notKey shape => "unhashable type: '" ++ shape.name ++ "'"
  | .notIntegerLike shape =>
    "int() argument must be a string, a bytes-like object or a real number, not '" ++
      shape.name ++ "'"
  | .notNumberLike shape =>
    "float() argument must be a string or a real number, not '" ++ shape.name ++ "'"
  | .badIntegerText text =>
    "invalid literal for int() with base 10: " ++
      String.ofList ((Text.quoted text).toList.take shownOfBadInteger)
  | .integerTextTooLong digits =>
    "Exceeds the limit (" ++ Decimal.integer Decimal.integerDigitLimit ++
      " digits) for integer string conversion: value has " ++ Decimal.integer digits ++
      " digits; use sys.set_int_max_str_digits() to increase the limit"
  | .integerTooLongToShow =>
    "Exceeds the limit (" ++ Decimal.integer Decimal.integerDigitLimit ++
      " digits) for integer string conversion; use sys.set_int_max_str_digits() to increase " ++
      "the limit"
  | .noDigits base => "invalid literal for int() with base " ++ Decimal.integer base ++ ": ''"
  | .notCodePoint => "chr() arg not in range(0x110000)"
  | .codePointTooLarge => "Python int too large to convert to C int"
  | .noSuchTime problem => problem.message
  | .badNumberText text => "could not convert string to float: " ++ Text.quoted text
  | .fractionalIndex => "list indices must be integers or slices, not float"
  | .bucketsDecrease => "Cumulative bucket counts must be non-decreasing"
  | .bucketsExceedCount => "Last bucket count cannot exceed the total count"
  | .counterDecrement => "Counter can only be incremented"
  | .percentileOutOfRange p => "Percentile must be between 0 and 1, got " ++ Decimal.number p
  | .meterKindClash name kind => "Meter '" ++ name ++ "' already registered as " ++ kind
  | .partitionSizeNotPositive => "partition size must be positive"
  | .indexOutOfRange => "list index out of range"
  | .noOldestSample => "pop from empty list"
  | .stepNotPositive => "step_seconds must be positive"
  | .unsupportedSnapshot name => "Unsupported meter snapshot: " ++ name
  | .undecodable => "the text is not valid UTF-8"
  | .directory path => "[Errno 21] Is a directory: " ++ Text.quoted path
  | .pathTooLong path => "[Errno 36] File name too long: " ++ Text.quoted path
  | .config problems =>
    "Configuration validation failed: " ++ ", ".intercalate (problems.map (·.message))
  | .request method url failure => failure.message method url
  | .rejected reason _ => reason
  | .raised text => text

def ofNotIntegral : Binary64.NotIntegral → Fault
  | .nan => .nanToInteger
  | .infinite => .infinityToInteger

variable {α β : Type}

/-- A result that was mapped comes from one. -/
theorem exists_of_map_eq_ok {f : α → β} {x : Except Fault α} {result : β}
    (h : x.map f = .ok result) : ∃ a, x = .ok a ∧ result = f a := by
  cases x with
  | error fault => cases h
  | ok a => exact ⟨a, rfl, (Except.ok.inj h).symm⟩

/-- A result in two steps comes from one of the first. -/
theorem exists_of_bind_eq_ok {f : α → Except Fault β} {x : Except Fault α} {result : β}
    (h : x >>= f = .ok result) : ∃ a, x = .ok a ∧ f a = .ok result := by
  cases x with
  | error fault => cases h
  | ok a => exact ⟨a, rfl, h⟩

end Fault

/-- The integer part of a number, toward zero. -/
def Binary64.toInteger (x : Binary64) : Except Fault Int :=
  match x.truncate with
  | .ok n => .ok n
  | .error e => .error (Fault.ofNotIntegral e)

/-- The decimal digits of an integer that does not have too many to be shown. -/
def Decimal.shown (n : Int) : Except Fault String :=
  if n.natAbs < tenTo integerDigitLimit then .ok (integer n) else .error .integerTooLongToShow

def Binary64.ofIntWithin (n : Int) : Except Fault Binary64 :=
  if (Binary64.ofInt n).isInfinite then .error .integerTooLarge else .ok (Binary64.ofInt n)

end Telemetry
