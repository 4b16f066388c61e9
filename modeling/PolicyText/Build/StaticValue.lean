import PolicyText.Binary.Literal
import PolicyText.Calendar.Notation
import PolicyText.Json.Parser
import PolicyText.Json.Printer
import PolicyText.Options

/-!
# Static values from text

The text of a static value is read by the rules of its type.  Dates and times follow a format if the
options give one for their type; a string that is to be a JSON value is put into quotes.
-/

namespace PolicyText

/-- Why a text is no value of a type. -/
inductive LiteralFault where
  | integer (bits : Nat) (fault : Text.IntegerFault)
  | number (fault : NumberFault)
  | decimal (fault : DecimalFault)
  | truthValue
  | json (text : List Char) (fault : JsonFault)
  | notObject
  | notArray
  | calendar (fault : ReadFault)
  | span (fault : SpanFault)

/-- What is said about a text that is no value of a type. -/
def LiteralFault.message : LiteralFault → String
  | .integer bits fault => s!"not a {bits}-bit integer: " ++ fault.message
  | .number fault => fault.message
  | .decimal fault => fault.message
  | .truthValue => "expected 'true' or 'false'"
  | .json text fault => "invalid JSON: " ++ fault.message text
  | .notObject => "expected a JSON object"
  | .notArray => "expected a JSON array"
  | .calendar fault => fault.message
  | .span fault => fault.message

/-- The format that options give for the values of a type. -/
def Options.formatFor (options : Options) : ValueType → Option String
  | .date => options.dateFormat
  | .dateTime => options.dateTimeFormat
  | .time => options.timeFormat
  | _ => none

/-- A result with another kind of fault. -/
def mapFault {ε φ α : Type} (f : ε → φ) : Except ε α → Except φ α
  | .ok a => .ok a
  | .error e => .error (f e)

/-- Reads a JSON object. -/
def readObject (text : List Char) : Except LiteralFault StaticValue :=
  match Json.parse text with
  | .ok (.object fields) => .ok (.object fields)
  | .ok _ => .error .notObject
  | .error fault => .error (.json text fault)

/-- Reads a JSON array. -/
def readArray (text : List Char) : Except LiteralFault StaticValue :=
  match Json.parse text with
  | .ok (.array items) => .ok (.array items)
  | .ok _ => .error .notArray
  | .error fault => .error (.json text fault)

/-- Reads a static value of a type. -/
def StaticValue.read (options : Options) (raw : String) :
    ValueType → Except LiteralFault StaticValue
  | .string =>
    .ok (.string (if options.isJson = some true then String.ofList (Json.quoted raw) else raw))
  | .date =>
    (mapFault .calendar (Date.read (options.formatFor .date) raw.toList)).map .date
  | .dateTime =>
    (mapFault .calendar (DateTime.read (options.formatFor .dateTime) raw.toList)).map .dateTime
  | .time =>
    (mapFault .calendar (TimeOfDay.read (options.formatFor .time) raw.toList)).map .time
  | .period => (mapFault .span (Period.read raw.toList)).map .period
  | .duration => (mapFault .span (Duration.read raw.toList)).map .duration
  | .int => (mapFault (.integer 32) (Text.readBounded .int32 raw.toList)).map .int
  | .long => (mapFault (.integer 64) (Text.readBounded .int64 raw.toList)).map .long
  | .number => (mapFault .number (Binary.read .double raw.toList)).map .number
  | .float => (mapFault .number (Binary.read .single raw.toList)).map .float
  | .bigDecimal => (mapFault .decimal (Decimal.read raw.toList)).map .bigDecimal
  | .boolean =>
    match truthValue? raw with
    | some b => .ok (.boolean b)
    | none => .error .truthValue
  | .object => readObject raw.toList
  | .array => readArray raw.toList

end PolicyText
