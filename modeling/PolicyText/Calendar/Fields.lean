import PolicyText.Calendar.DateTime
import PolicyText.Calendar.Format.Parser

/-!
# Reading a text by a format

A text is read by a format item by item.  Literal bytes have to stand there as they are, and every
component reads a number or a word and puts it into one of the `Fields`; what is left over at the
end is refused.  Only then are the fields put together: a date needs a year with a day of the year,
with a month and a day, or with a week and a day of the week (`Fields.date`); a time of day needs an
hour (`Fields.time`); an offset needs its hour (`Fields.offset`).

Everything is counted in bytes, so that a component of fixed width can end inside a character.
-/

namespace PolicyText

/-- Why a text is not read by a format. -/
inductive ReadFault where
  | component (name : String)
  | literal
  | trailing
  | insufficient
  | range (fault : RangeFault)
  | format (description : String) (fault : FormatFault)
  deriving DecidableEq, Repr

/-- What is said about a text that is not read. -/
def ReadFault.message : ReadFault → String
  | .component name => s!"the '{name}' component could not be parsed"
  | .literal => "a character literal was not valid"
  | .trailing => "unexpected trailing characters; the end of input was expected"
  | .insufficient =>
    "the `Parsed` struct did not include enough information to construct the type"
  | .range fault => fault.message
  | .format description fault => "invalid format '" ++ description ++ "': " ++ fault.message

/-- The result of a calendar computation, as the result of reading. -/
def orRangeFault {α : Type} : Except RangeFault α → Except ReadFault α
  | .ok value => .ok value
  | .error fault => .error (.range fault)

/-- The fields that a text has given so far. -/
structure Fields where
  year : Option Int := none
  /-- The first two digits of a year, and whether a minus sign stands before them. -/
  century : Option (Nat × Bool) := none
  lastTwo : Option Nat := none
  isoYear : Option Int := none
  isoCentury : Option (Nat × Bool) := none
  isoLastTwo : Option Nat := none
  month : Option Nat := none
  day : Option Nat := none
  ordinal : Option Nat := none
  weekday : Option Weekday := none
  isoWeek : Option Nat := none
  sundayWeek : Option Nat := none
  mondayWeek : Option Nat := none
  hour : Option Nat := none
  halfDayHour : Option Nat := none
  afternoon : Option Bool := none
  minute : Option Nat := none
  second : Option Nat := none
  nanosecond : Option Nat := none
  /-- The hour of an offset without its sign, which holds for the whole offset. -/
  offsetHour : Option Nat := none
  offsetNegative : Bool := false
  offsetMinute : Option Nat := none
  offsetSecond : Option Nat := none
  unixNanoseconds : Option Int := none

/-! ## Numbers and words -/

/-- The ASCII digits. -/
def isDigitByte (b : UInt8) : Bool :=
  48 ≤ b && b ≤ 57

/-- The value of a list of digits. -/
def digitBytesValue (digits : List UInt8) : Nat :=
  digits.foldl (fun total b => total * 10 + (b.toNat - 48)) 0

/-- Reads as many digits as there are, but no more than `greatest` and no fewer than `least`. -/
def readDigits (least greatest : Nat) (bytes : List UInt8) : Option (Nat × List UInt8) :=
  let digits := (bytes.take greatest).takeWhile isDigitByte
  if digits.length < least then none
  else some (digitBytesValue digits, bytes.drop digits.length)

/-- Reads a number whose width lies between two bounds.  Zeros fill it up to the lesser width;
blanks may stand for these zeros, but for the last digit; without padding one digit is enough. -/
def readFilled (padding : Padding) (least greatest : Nat) (bytes : List UInt8) :
    Option (Nat × List UInt8) :=
  match padding with
  | .zero => readDigits least greatest bytes
  | .none => readDigits 1 greatest bytes
  | .space =>
    let blanks := ((bytes.take (least - 1)).takeWhile (· == 32)).length
    readDigits (least - blanks) (greatest - blanks) (bytes.drop blanks)

/-- Reads a number of a given width. -/
def readPadded (padding : Padding) (width : Nat) (bytes : List UInt8) :
    Option (Nat × List UInt8) :=
  readFilled padding width width bytes

/-- Reads a number of a given width that has to lie between two bounds. -/
def readBounded (padding : Padding) (width least greatest : Nat) (bytes : List UInt8) :
    Option (Nat × List UInt8) :=
  (readPadded padding width bytes).filter fun read =>
    decide (least ≤ read.1) && decide (read.1 ≤ greatest)

/-- Reads an optional sign; `true` stands for a minus sign. -/
def readSign : List UInt8 → Option Bool × List UInt8
  | [] => (none, [])
  | b :: rest =>
    if b = 43 then (some false, rest)
    else if b = 45 then (some true, rest)
    else (none, b :: rest)

/-- An upper-case ASCII letter in lower case, any other byte as it is. -/
def lowerByte (b : UInt8) : UInt8 :=
  if 65 ≤ b && b ≤ 90 then b + 32 else b

/-- Whether a text begins with a word. -/
def beginsWith (caseSensitive : Bool) (word bytes : List UInt8) : Bool :=
  if caseSensitive then word.isPrefixOf bytes
  else (word.map lowerByte).isPrefixOf (bytes.map lowerByte)

/-- Reads the first word of a table with which the text begins. -/
def readWord {α : Type} (caseSensitive : Bool) (table : List (String × α)) (bytes : List UInt8) :
    Option (α × List UInt8) :=
  (table.find? fun entry => beginsWith caseSensitive (Text.utf8 entry.1.toList) bytes).map
    fun entry => (entry.2, bytes.drop entry.1.utf8ByteSize)

/-- The months by their long names. -/
def monthNames : List (String × Nat) :=
  [("January", 1), ("February", 2), ("March", 3), ("April", 4), ("May", 5), ("June", 6),
    ("July", 7), ("August", 8), ("September", 9), ("October", 10), ("November", 11),
    ("December", 12)]

/-- The days of the week by their long names. -/
def weekdayNames : List (String × Weekday) :=
  [("Monday", .monday), ("Tuesday", .tuesday), ("Wednesday", .wednesday),
    ("Thursday", .thursday), ("Friday", .friday), ("Saturday", .saturday), ("Sunday", .sunday)]

/-- A table whose names are cut to three letters. -/
def shortNames {α : Type} (table : List (String × α)) : List (String × α) :=
  table.map fun entry => (String.ofList (entry.1.toList.take 3), entry.2)

/-! ## Components -/

namespace FormatComponent

/-- The name by which messages call a component. -/
def name : FormatComponent → String
  | .day _ => "day"
  | .month .. => "month"
  | .ordinal _ => "ordinal"
  | .weekday .. => "weekday"
  | .weekNumber .. => "week number"
  | .year .. => "year"
  | .hour .. => "hour"
  | .minute _ => "minute"
  | .period .. => "period"
  | .second _ => "second"
  | .subsecond _ => "subsecond"
  | .offsetHour .. => "offset hour"
  | .offsetMinute _ => "offset minute"
  | .offsetSecond _ => "offset second"
  | .unixTimestamp .. => "unix_timestamp"
  | .ignore _ => "ignore"
  | .finish _ => "end"

end FormatComponent

/-- Reads a number that may have a sign, or has to have one.  Behind a sign the number can have
another form than without one. -/
def readSigned (mandatory : Bool) (unsigned signed : List UInt8 → Option (Nat × List UInt8))
    (bytes : List UInt8) : Option ((Nat × Bool) × List UInt8) :=
  match readSign bytes with
  | (none, rest) =>
    if mandatory then none else (unsigned rest).map fun (n, rest) => ((n, false), rest)
  | (some negative, rest) => (signed rest).map fun (n, rest) => ((n, negative), rest)

/-- A number with the sign that was read before it. -/
def withSign (n : Nat) (negative : Bool) : Int :=
  if negative then -(n : Int) else n

/-- The nanoseconds of a fraction of a second.  What lies past the ninth digit is cut off. -/
def fractionNanoseconds (digits : List UInt8) : Nat :=
  digitBytesValue (digits.take 9) * 10 ^ (9 - min 9 digits.length)

/-- The greatest number of digits that a component reads of a fraction of a second. -/
def maxFractionDigits : Nat := 32

/-- Reads a fraction of a second with a given number of digits, or with one or more. -/
def readFraction (count : Option Nat) (bytes : List UInt8) : Option (Nat × List UInt8) :=
  let digits := (bytes.take (count.getD maxFractionDigits)).takeWhile isDigitByte
  if digits.length < count.getD 1 then none
  else some (fractionNanoseconds digits, bytes.drop digits.length)

namespace UnixPrecision

/-- The greatest number of digits of a time since 1970. -/
def maxDigits : UnixPrecision → Nat
  | .second => 14
  | .millisecond => 17
  | .microsecond => 20
  | .nanosecond => 23

/-- The nanoseconds in one unit. -/
def nanoseconds : UnixPrecision → Nat
  | .second => 10 ^ 9
  | .millisecond => 10 ^ 6
  | .microsecond => 10 ^ 3
  | .nanosecond => 1

end UnixPrecision

namespace Fields

/-- Reads the part of a year that a component writes. -/
def readYear (fields : Fields) (style : YearStyle) (iso : Bool) (padding : Padding)
    (signMandatory : Bool) (bytes : List UInt8) : Option (Fields × List UInt8) :=
  match style with
  | .full =>
    let read := readPadded padding 4
    (readSigned signMandatory read read bytes).map fun ((n, negative), rest) =>
      let year := withSign n negative
      (if iso then { fields with isoYear := some year } else { fields with year := some year },
        rest)
  | .century =>
    -- A century without a sign need not be filled up.
    let read := readSigned signMandatory (readFilled padding 1 2) (readPadded padding 2)
    (read bytes).map fun (century, rest) =>
      (if iso then { fields with isoCentury := some century }
        else { fields with century := some century }, rest)
  | .lastTwo =>
    (readPadded padding 2 bytes).map fun (n, rest) =>
      (if iso then { fields with isoLastTwo := some n } else { fields with lastTwo := some n },
        rest)

/-- Reads a month by its number or its name. -/
def readMonth (style : MonthStyle) (padding : Padding) (caseSensitive : Bool)
    (bytes : List UInt8) : Option (Nat × List UInt8) :=
  match style with
  | .numerical => readBounded padding 2 1 12 bytes
  | .long => readWord caseSensitive monthNames bytes
  | .short => readWord caseSensitive (shortNames monthNames) bytes

/-- Reads a day of the week by its name, or by the number of days since the last Sunday or
Monday. -/
def readWeekday (style : WeekdayStyle) (oneIndexed caseSensitive : Bool) (bytes : List UInt8) :
    Option (Weekday × List UInt8) :=
  let numbered (days : Weekday → Nat) : Option (Weekday × List UInt8) := do
    let (n, rest) ← readDigits 1 1 bytes
    let weekday ← Weekday.all.find? fun w => days w + (if oneIndexed then 1 else 0) == n
    some (weekday, rest)
  match style with
  | .long => readWord caseSensitive weekdayNames bytes
  | .short => readWord caseSensitive (shortNames weekdayNames) bytes
  | .fromSunday => numbered Weekday.daysFromSunday
  | .fromMonday => numbered Weekday.daysFromMonday

/-- Reads the number of a week of the year. -/
def readWeek (fields : Fields) (style : WeekStyle) (padding : Padding) (bytes : List UInt8) :
    Option (Fields × List UInt8) :=
  match style with
  | .iso =>
    (readBounded padding 2 1 53 bytes).map fun (n, rest) =>
      ({ fields with isoWeek := some n }, rest)
  | .sunday =>
    (readBounded padding 2 0 53 bytes).map fun (n, rest) =>
      ({ fields with sundayWeek := some n }, rest)
  | .monday =>
    (readBounded padding 2 0 53 bytes).map fun (n, rest) =>
      ({ fields with mondayWeek := some n }, rest)

/-- Reads the word for a half of the day.  Only upper-case words insist on their case. -/
def readPeriod (uppercase caseSensitive : Bool) (bytes : List UInt8) :
    Option (Bool × List UInt8) :=
  readWord (uppercase && caseSensitive) [("AM", false), ("PM", true)] bytes

/-- Reads a component at the head of a text. -/
def readComponent (fields : Fields) (bytes : List UInt8) :
    FormatComponent → Option (Fields × List UInt8)
  | .day padding =>
    (readBounded padding 2 1 31 bytes).map fun (n, rest) => ({ fields with day := some n }, rest)
  | .month style padding caseSensitive =>
    (readMonth style padding caseSensitive bytes).map fun (n, rest) =>
      ({ fields with month := some n }, rest)
  | .ordinal padding =>
    (readBounded padding 3 1 366 bytes).map fun (n, rest) =>
      ({ fields with ordinal := some n }, rest)
  | .weekday style oneIndexed caseSensitive =>
    (readWeekday style oneIndexed caseSensitive bytes).map fun (weekday, rest) =>
      ({ fields with weekday := some weekday }, rest)
  | .weekNumber style padding => fields.readWeek style padding bytes
  | .year style iso padding signMandatory => fields.readYear style iso padding signMandatory bytes
  | .hour true padding =>
    (readBounded padding 2 1 12 bytes).map fun (n, rest) =>
      ({ fields with halfDayHour := some n }, rest)
  | .hour false padding =>
    (readBounded padding 2 0 23 bytes).map fun (n, rest) => ({ fields with hour := some n }, rest)
  | .minute padding =>
    (readBounded padding 2 0 59 bytes).map fun (n, rest) =>
      ({ fields with minute := some n }, rest)
  | .period uppercase caseSensitive =>
    (readPeriod uppercase caseSensitive bytes).map fun (afternoon, rest) =>
      ({ fields with afternoon := some afternoon }, rest)
  | .second padding =>
    (readBounded padding 2 0 60 bytes).map fun (n, rest) =>
      ({ fields with second := some n }, rest)
  | .subsecond digits =>
    (readFraction digits bytes).map fun (n, rest) => ({ fields with nanosecond := some n }, rest)
  | .offsetHour signMandatory padding =>
    let read := readBounded padding 2 0 25
    (readSigned signMandatory read read bytes).map fun ((n, negative), rest) =>
      ({ fields with offsetHour := some n, offsetNegative := negative }, rest)
  | .offsetMinute padding =>
    (readBounded padding 2 0 59 bytes).map fun (n, rest) =>
      ({ fields with offsetMinute := some n }, rest)
  | .offsetSecond padding =>
    (readBounded padding 2 0 59 bytes).map fun (n, rest) =>
      ({ fields with offsetSecond := some n }, rest)
  | .unixTimestamp precision signMandatory => do
    let read := readDigits 1 precision.maxDigits
    let ((n, negative), rest) ← readSigned signMandatory read read bytes
    let nanoseconds := withSign (n * precision.nanoseconds) negative
    match DateTime.ofUnixNanoseconds nanoseconds with
    | .ok _ => some ({ fields with unixNanoseconds := some nanoseconds }, rest)
    | .error _ => none
  | .ignore count => if bytes.length < count then none else some (fields, bytes.drop count)
  | .finish discard => if bytes.isEmpty || discard then some (fields, []) else none

/-- Reads the items of a format in order. -/
def readItems (fields : Fields) (bytes : List UInt8) :
    List FormatItem → Except ReadFault (Fields × List UInt8)
  | [] => .ok (fields, bytes)
  | .literal literal :: items =>
    if literal.isPrefixOf bytes then readItems fields (bytes.drop literal.length) items
    else .error .literal
  | .component component :: items =>
    match fields.readComponent bytes component with
    | some (fields, rest) => readItems fields rest items
    | none => .error (.component component.name)

/-- Reads a whole text by a format. -/
def read (items : List FormatItem) (bytes : List UInt8) : Except ReadFault Fields := do
  let (fields, rest) ← readItems {} bytes items
  if rest.isEmpty then .ok fields else .error .trailing

/-! ## Putting fields together -/

/-- The year that a century and the last two digits make. -/
def joinedYear (century : Nat × Bool) (lastTwo : Nat) : Int :=
  withSign (100 * century.1 + lastTwo) century.2

/-- The year, given as a whole or by its two halves. -/
def wholeYear (whole : Option Int) (century : Option (Nat × Bool)) (lastTwo : Option Nat) :
    Option Int :=
  match whole, century, lastTwo with
  | some year, _, _ => some year
  | none, some century, some lastTwo => some (joinedYear century lastTwo)
  | none, _, _ => none

/-- The day of the year on which the given day of a week falls.  The weeks of a year begin with the
first of their first days; `days` counts from that first day. -/
def ordinalOfWeek (year : Int) (week days : Nat) : Int :=
  let first := Date.firstWeekday year
  (week * 7 + days : Int) - (if first = 0 then 7 else first) + 1

/-- The date that the fields give, by the first sufficient set of them. -/
def date (fields : Fields) : Except ReadFault Date :=
  let year := wholeYear fields.year fields.century fields.lastTwo
  let isoYear := wholeYear fields.isoYear fields.isoCentury fields.isoLastTwo
  match year, fields.ordinal, fields.month, fields.day with
  | some year, some ordinal, _, _ => orRangeFault (Date.ofOrdinal year ordinal)
  | some year, none, some month, some day => orRangeFault (Date.ofParts year month day)
  | _, _, _, _ =>
    match isoYear, fields.isoWeek, fields.weekday with
    | some year, some week, some weekday => orRangeFault (Date.ofIsoWeek year week weekday)
    | _, _, _ =>
      match year, fields.sundayWeek, fields.mondayWeek, fields.weekday with
      | some year, some week, _, some weekday =>
        orRangeFault (Date.ofOrdinal year (ordinalOfWeek year week weekday.daysFromSunday))
      | some year, none, some week, some weekday =>
        orRangeFault (Date.ofOrdinal year (ordinalOfWeek year week weekday.daysFromMonday))
      | _, _, _, _ => .error .insufficient

/-- The hour of the day, given as such or by an hour and a half of the day. -/
def wholeHour? (fields : Fields) : Option Nat :=
  match fields.hour, fields.halfDayHour, fields.afternoon with
  | some hour, _, _ => some hour
  | none, some hour, some afternoon => some (hour % 12 + if afternoon then 12 else 0)
  | none, _, _ => none

/-- The time of day that the fields give.  Each unit needs the larger ones. -/
def time (fields : Fields) : Except ReadFault TimeOfDay :=
  match fields.wholeHour? with
  | none => .error .insufficient
  | some hour =>
    match fields.minute, fields.second, fields.nanosecond with
    | none, none, none => orRangeFault (TimeOfDay.ofParts hour 0 0 0)
    | some minute, none, none => orRangeFault (TimeOfDay.ofParts hour minute 0 0)
    | some minute, some second, none => orRangeFault (TimeOfDay.ofParts hour minute second 0)
    | some minute, some second, some nanosecond =>
      orRangeFault (TimeOfDay.ofParts hour minute second nanosecond)
    | _, _, _ => .error .insufficient

/-- The offset that the fields give.  Its seconds count only beside its minutes. -/
def offset (fields : Fields) : Except ReadFault Offset :=
  match fields.offsetHour, fields.offsetMinute with
  | none, _ => .error .insufficient
  | some hour, none => orRangeFault (Offset.ofParts (withSign hour fields.offsetNegative) 0 0)
  | some hour, some minute =>
    orRangeFault
      (Offset.ofParts (withSign hour fields.offsetNegative)
        (withSign minute fields.offsetNegative)
        (withSign (fields.offsetSecond.getD 0) fields.offsetNegative))

/-- The time of day with another fraction of a second. -/
def withNanosecond (t : TimeOfDay) (nanosecond : Nat) : Except RangeFault TimeOfDay :=
  TimeOfDay.ofParts t.hour t.minute t.second nanosecond

/-- The point in time that the fields give.  A time since 1970 is preferred to all others. -/
def dateTime (fields : Fields) : Except ReadFault DateTime :=
  match fields.unixNanoseconds with
  | some nanoseconds => do
    let dt ← orRangeFault (DateTime.ofUnixNanoseconds nanoseconds)
    match fields.nanosecond with
    | some nanosecond => do
      let time ← orRangeFault (withNanosecond dt.time nanosecond)
      .ok { dt with time := time }
    | none => .ok dt
  | none => do
    let date ← fields.date
    let time ← fields.time
    let offset ← fields.offset
    .ok ⟨date, time, offset⟩

/-- The point in time in universal time that the fields give. -/
def utcDateTime (fields : Fields) : Except ReadFault DateTime := do
  let date ← fields.date
  let time ← fields.time
  .ok ⟨date, time, .utc⟩

end Fields

end PolicyText
