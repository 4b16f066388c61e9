import PolicyText.Calendar.Fields

/-!
# Notations of dates and times

A date, a time of day or a point in time is read from text by a format description if there is one,
and else in its standard notation: `YYYY-MM-DD`, `HH:MM:SS` with an optional fraction, and the
Internet notation `YYYY-MM-DDTHH:MM:SSZ` of a point in time.  Documents have notations of their own,
in which nothing is optional and which are exactly what `Date.text`, `TimeOfDay.text` and
`DateTime.text` write.
-/

namespace PolicyText

/-- Takes a description apart. -/
def readDescription (description : String) : Except ReadFault (List FormatItem) :=
  match Format.parse description with
  | .ok items => .ok items
  | .error fault => .error (.format description fault)

/-- A literal character of a format. -/
def literalItem (c : Char) : FormatItem :=
  .literal (Text.utf8 [c])

/-- A component of two digits, filled up with zeros. -/
def paddedItem (component : Padding → FormatComponent) : FormatItem :=
  .component (component .zero)

namespace Date

/-- The format `[year]-[month]-[day]`. -/
def format : List FormatItem :=
  [.component (.year .full false .zero false), literalItem '-',
    .component (.month .numerical .zero true), literalItem '-', paddedItem .day]

/-- Reads a date as it stands in a document. -/
def parse (text : List Char) : Except ReadFault Date := do
  let fields ← Fields.read format (Text.utf8 text)
  fields.date

/-- Reads a date by a description, or in the standard notation. -/
def read (description : Option String) (text : List Char) : Except ReadFault Date :=
  match description with
  | none => parse text
  | some description => do
    let items ← readDescription description
    let fields ← Fields.read items (Text.utf8 text)
    fields.date

end Date

namespace TimeOfDay

/-- The format `[hour]:[minute]:[second]`. -/
def wholeFormat : List FormatItem :=
  [paddedItem (.hour false), literalItem ':', paddedItem .minute, literalItem ':',
    paddedItem .second]

/-- The format `.[subsecond]`. -/
def fractionFormat : List FormatItem :=
  [literalItem '.', .component (.subsecond none)]

/-- Reads a time of day as it stands in a document: the fraction is not optional. -/
def parse (text : List Char) : Except ReadFault TimeOfDay := do
  let fields ← Fields.read (wholeFormat ++ fractionFormat) (Text.utf8 text)
  fields.time

/-- Reads a time of day with an optional fraction.  A fraction that cannot be read is left over as
a whole. -/
def readStandard (text : List Char) : Except ReadFault TimeOfDay := do
  let (whole, rest) ← Fields.readItems {} (Text.utf8 text) wholeFormat
  match Fields.readItems whole rest fractionFormat with
  | .ok (fields, []) => fields.time
  | .ok (_, _ :: _) => .error .trailing
  | .error _ => if rest.isEmpty then whole.time else .error .trailing

/-- Reads a time of day by a description, or in the standard notation. -/
def read (description : Option String) (text : List Char) : Except ReadFault TimeOfDay :=
  match description with
  | none => readStandard text
  | some description => do
    let items ← readDescription description
    let fields ← Fields.read items (Text.utf8 text)
    fields.time

end TimeOfDay

namespace Offset

/-- The format `±HH:MM:SS`. -/
def format : List FormatItem :=
  [.component (.offsetHour true .zero), literalItem ':', paddedItem .offsetMinute,
    literalItem ':', paddedItem .offsetSecond]

end Offset

namespace DateTime

/-- Reads a point in time as it stands in a document. -/
def parse (text : List Char) : Except ReadFault DateTime := do
  let fields ←
    Fields.read
      (Date.format ++ literalItem ' ' :: TimeOfDay.wholeFormat ++ TimeOfDay.fractionFormat ++
        literalItem ' ' :: Offset.format)
      (Text.utf8 text)
  fields.dateTime

/-- Reads a number of a fixed number of digits. -/
def readPart (name : String) (width : Nat) (bytes : List UInt8) :
    Except ReadFault (Nat × List UInt8) :=
  match readDigits width width bytes with
  | some read => .ok read
  | none => .error (.component name)

/-- Reads one given character. -/
def readMark (mark : UInt8) : List UInt8 → Except ReadFault (List UInt8)
  | [] => .error .literal
  | b :: rest => if b = mark then .ok rest else .error .literal

/-- Reads the optional fraction of a second in the Internet notation, which can have any number of
digits. -/
def readOptionalFraction (bytes : List UInt8) : Except ReadFault (Nat × List UInt8) :=
  match bytes with
  | 46 :: rest =>
    match readFraction (some (max 1 (rest.takeWhile isDigitByte).length)) rest with
    | some read => .ok read
    | none => .error (.component "subsecond")
  | _ => .ok (0, bytes)

/-- Reads `Z` or an offset in hours and minutes. -/
def readOffset (bytes : List UInt8) : Except ReadFault (Offset × List UInt8) :=
  if bytes.head?.map lowerByte == some 122 then .ok (.utc, bytes.drop 1)
  else
    match readSign bytes with
    | (none, _) => .error (.component "offset hour")
    | (some negative, rest) => do
      let (hour, rest) ← readPart "offset hour" 2 rest
      if 23 < hour then .error (.component "offset hour")
      else
        let rest ← readMark 58 rest
        let (minute, rest) ← readPart "offset minute" 2 rest
        let offset ←
          orRangeFault (Offset.ofParts (withSign hour negative) (withSign minute negative) 0)
        .ok (offset, rest)

/-- The Internet notation: a date, any one byte, a time of day with an optional fraction, and an
offset.  A sixtieth second is accepted where a leap second can stand, and stands for the last
nanosecond before it. -/
def readStandard (text : List Char) : Except ReadFault DateTime := do
  let (year, rest) ← readPart "year" 4 (Text.utf8 text)
  let rest ← readMark 45 rest
  let (month, rest) ← readPart "month" 2 rest
  let rest ← if month = 0 then .error (.component "month") else readMark 45 rest
  let (day, rest) ← readPart "day" 2 rest
  let rest ←
    match rest with
    | [] => .error (.component "separator")
    | _ :: rest => .ok rest
  let (hour, rest) ← readPart "hour" 2 rest
  let rest ← readMark 58 rest
  let (minute, rest) ← readPart "minute" 2 rest
  let rest ← readMark 58 rest
  let (second, rest) ← readPart "second" 2 rest
  let (nanosecond, rest) ← readOptionalFraction rest
  let (offset, rest) ← readOffset rest
  if !rest.isEmpty then .error .trailing
  else
    let leap := second == 60
    let date ← orRangeFault (Date.ofParts year month day)
    let time ←
      orRangeFault
        (if leap then TimeOfDay.ofParts hour minute 59 (10 ^ 9 - 1)
        else TimeOfDay.ofParts hour minute second nanosecond)
    let dt : DateTime := ⟨date, time, offset⟩
    if leap && !dt.endsMonth then .error (.range ⟨"second"⟩) else .ok dt

/-- Reads a point in time by a description, or in the standard notation.  Where the description
gives no offset the text is in universal time; what is said about a text that is no point in time
in either way concerns the first. -/
def read (description : Option String) (text : List Char) : Except ReadFault DateTime :=
  match description with
  | none => readStandard text
  | some description => do
    let items ← readDescription description
    let fields ← Fields.read items (Text.utf8 text)
    match fields.dateTime with
    | .ok dt => .ok dt
    | .error fault =>
      match fields.utcDateTime with
      | .ok dt => .ok dt
      | .error _ => .error fault

end DateTime

end PolicyText
