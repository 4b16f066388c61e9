/-!
# Formats of dates and times

A format is a list of items: bytes that stand for themselves, and components such as the day of the
month or the hour, each with its settings.  Formats are written as descriptions, literal text with
components in square brackets, such as `[day].[month].[year]`; `FormatFault` says what can be wrong
with a description.  `Format.parse` reads descriptions and `Fields.read` reads texts by formats.
-/

namespace PolicyText

/-- How a number that has fewer digits than its width is filled up. -/
inductive Padding where
  | zero
  | space
  | none
  deriving DecidableEq, Repr

/-- How a month is written. -/
inductive MonthStyle where
  | numerical
  | long
  | short
  deriving DecidableEq, Repr

/-- How a day of the week is written. -/
inductive WeekdayStyle where
  | long
  | short
  | fromSunday
  | fromMonday
  deriving DecidableEq, Repr

/-- How the weeks of a year are counted. -/
inductive WeekStyle where
  | iso
  | sunday
  | monday
  deriving DecidableEq, Repr

/-- The part of a year that is written. -/
inductive YearStyle where
  | full
  | century
  | lastTwo
  deriving DecidableEq, Repr

/-- The units in which the time since 1970 is counted. -/
inductive UnixPrecision where
  | second
  | millisecond
  | microsecond
  | nanosecond
  deriving DecidableEq, Repr

/-- A component of a format. -/
inductive FormatComponent where
  | day (padding : Padding)
  | month (style : MonthStyle) (padding : Padding) (caseSensitive : Bool)
  | ordinal (padding : Padding)
  | weekday (style : WeekdayStyle) (oneIndexed caseSensitive : Bool)
  | weekNumber (style : WeekStyle) (padding : Padding)
  | year (style : YearStyle) (iso : Bool) (padding : Padding) (signMandatory : Bool)
  | hour (twelve : Bool) (padding : Padding)
  | minute (padding : Padding)
  | period (uppercase caseSensitive : Bool)
  | second (padding : Padding)
  /-- A fraction of a second; without a number of digits it has one or more. -/
  | subsecond (digits : Option Nat)
  | offsetHour (signMandatory : Bool) (padding : Padding)
  | offsetMinute (padding : Padding)
  | offsetSecond (padding : Padding)
  | unixTimestamp (precision : UnixPrecision) (signMandatory : Bool)
  | ignore (count : Nat)
  | finish (discard : Bool)
  deriving DecidableEq, Repr

/-- An item of a format: bytes that stand for themselves, or a component. -/
inductive FormatItem where
  | literal (bytes : List UInt8)
  | component (c : FormatComponent)
  deriving DecidableEq

/-- What is wrong with a format description; positions are counted in bytes. -/
inductive FormatFault where
  | unclosedBracket (index : Nat)
  | invalidName (name : String) (index : Nat)
  | invalidModifier (value : String) (index : Nat)
  | missingName (index : Nat)
  | missingModifier (name : String) (index : Nat)
  /-- A nested description follows a name or a modifier without white space. -/
  | missingSpace (index : Nat)
  | missingNested (index : Nat)
  /-- A component that cannot hold nested descriptions holds one. -/
  | strayNested (index : Nat)
  /-- A component that holds one nested description holds more. -/
  | manyNested (index : Nat)
  | unsupported (what : String) (index : Nat)
  deriving DecidableEq, Repr

/-- What is said about a faulty format description. -/
def FormatFault.message : FormatFault → String
  | .unclosedBracket index => s!"unclosed opening bracket at byte index {index}"
  | .invalidName name index => s!"invalid component name `{name}` at byte index {index}"
  | .invalidModifier value index => s!"invalid modifier `{value}` at byte index {index}"
  | .missingName index => s!"missing component name at byte index {index}"
  | .missingModifier name index =>
    s!"missing required modifier `{name}` for component at byte index {index}"
  | .missingSpace index =>
    s!"expected whitespace before nested format description at byte index {index}"
  | .missingNested index => s!"expected nested format description at byte index {index}"
  | .strayNested index =>
    s!"nested format descriptions is not supported in on this component at byte index {index}"
  | .manyNested index =>
    "more than one nested format description is not supported in `optional` components at byte " ++
      s!"index {index}"
  | .unsupported what index =>
    s!"{what} item is not supported in runtime-parsed format descriptions at byte index {index}"

end PolicyText
