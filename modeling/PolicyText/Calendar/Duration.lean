import PolicyText.Calendar.Amount

/-!
# Durations

A duration is a number of nanoseconds whose whole seconds have 64 bits.  Its text is a sign, `P`,
amounts in days, and after a `T` amounts in hours, minutes and seconds, in this order and each at
most once (`P1DT2H3M4.5S`).  Seconds can have a fraction of up to nine digits.  The sign holds for
the whole, and every amount can have one of its own.

In a document a duration is written in seconds with nine places, `-0.500000000`, and read back by
`Duration.parse?`.
-/

namespace PolicyText

/-- The nanoseconds of a second. -/
def nanosecondsPerSecond : Int := 10 ^ 9

/-- Whether the whole seconds of a number of nanoseconds have 64 bits. -/
def isDuration (nanoseconds : Int) : Bool :=
  Text.IntegerRange.int64.contains (nanoseconds.tdiv nanosecondsPerSecond)

/-- A length of time. -/
structure Duration where
  nanoseconds : Int
  bounded : isDuration nanoseconds = true
  deriving DecidableEq

namespace Duration

/-- The duration of a number of nanoseconds, if it is one. -/
def ofNanoseconds? (nanoseconds : Int) : Option Duration :=
  if h : isDuration nanoseconds = true then some ⟨nanoseconds, h⟩ else none

/-- The duration of a number of nanoseconds. -/
def ofNanoseconds (nanoseconds : Int) : Except SpanFault Duration :=
  match ofNanoseconds? nanoseconds with
  | some d => .ok d
  | none => .error (.overflow .duration)

/-- A duration of no length. -/
def zero : Duration := ⟨0, by decide⟩

/-- The sum of two durations. -/
def add (a b : Duration) : Except SpanFault Duration :=
  ofNanoseconds (a.nanoseconds + b.nanoseconds)

/-- A duration in the other direction. -/
def neg (d : Duration) : Except SpanFault Duration :=
  ofNanoseconds (-d.nanoseconds)

/-! ## Amounts -/

/-- A whole amount of a unit that has a number of seconds. -/
def ofWhole (number : List Char) (unit : Char) (seconds : Nat) : Except SpanFault Duration :=
  match wholeAmount number unit with
  | .error fault => .error fault
  | .ok n => ofNanoseconds (n * seconds * nanosecondsPerSecond)

/-- The nanoseconds of the digits after the point, of which there are at most nine. -/
def placesValue (places : List Char) : Nat :=
  Text.digitsValue places * 10 ^ (9 - places.length)

/-- An amount of seconds.  Either side of the point can be empty, but not both. -/
def ofSeconds (number : List Char) : Except SpanFault Duration :=
  let (negative, digits) := takeSign number
  let whole := digits.takeWhile (· != '.')
  let places := (digits.dropWhile (· != '.')).drop 1
  if whole.isEmpty && places.isEmpty then .error (.invalidAmount (String.ofList number) 'S')
  else if 9 < places.length || !places.all Char.isDigit then
    .error (.invalidFraction (String.ofList number))
  else
    match if whole.isEmpty then .ok 0 else wholeAmount whole 'S' with
    | .error fault => .error fault
    | .ok seconds =>
      let nanoseconds := seconds * nanosecondsPerSecond + placesValue places
      ofNanoseconds (if negative then -nanoseconds else nanoseconds)

/-- The units that follow a `T` in their order. -/
def timeUnits : List Char := ['H', 'M', 'S']

/-- An amount of one of the units that follow a `T`. -/
def ofTimeAmount (amount : Amount) : Except SpanFault Duration :=
  if amount.unit = 'H' then ofWhole amount.number amount.unit 3600
  else if amount.unit = 'M' then ofWhole amount.number amount.unit 60
  else ofSeconds amount.number

/-- Adds amounts of days. -/
def addDays (sum : Duration) : List Amount → Except SpanFault Duration
  | [] => .ok sum
  | amount :: rest =>
    if amount.unit ≠ 'D' then .error (.belongsToTime amount.unit)
    else
      match ofWhole amount.number amount.unit 86400 with
      | .error fault => .error fault
      | .ok days =>
        match sum.add days with
        | .error fault => .error fault
        | .ok sum => addDays sum rest

/-- Adds amounts of the units that follow a `T`, the last unit before them being at the place
`last`. -/
def addTime (last : Option Nat) (sum : Duration) : List Amount → Except SpanFault Duration
  | [] => .ok sum
  | amount :: rest =>
    match unitPlace .duration timeUnits last amount.unit with
    | .error fault => .error fault
    | .ok place =>
      match ofTimeAmount amount with
      | .error fault => .error fault
      | .ok part =>
        match sum.add part with
        | .error fault => .error fault
        | .ok sum => addTime (some place) sum rest

/-- Whether a character divides the amounts of days from those of the smaller units. -/
def isTimeMark (c : Char) : Bool :=
  c == 'T' || c == 't'

/-- Reads a duration. -/
def read (text : List Char) : Except SpanFault Duration := do
  let (negative, rest) := takeSign text
  let body ← takeDesignator rest
  let dayPart := body.takeWhile (!isTimeMark ·)
  let marked := body.dropWhile (!isTimeMark ·)
  let timePart := marked.drop 1
  if !marked.isEmpty && timePart.isEmpty then .error .missingTime
  else
    let days ← readAmounts [] dayPart
    let sum ← addDays zero days
    let times ← readAmounts [] timePart
    let sum ← addTime none sum times
    if days.isEmpty && times.isEmpty then .error (.empty .duration)
    else if negative then sum.neg
    else .ok sum

/-! ## Documents -/

/-- The whole seconds of a duration without its sign. -/
def wholeSeconds (d : Duration) : Nat :=
  d.nanoseconds.natAbs / 10 ^ 9

/-- The text `S.nnnnnnnnn` of a duration, with a minus sign where it is negative. -/
def text (d : Duration) : List Char :=
  (if d.nanoseconds < 0 then ['-'] else []) ++ Text.decimal d.wholeSeconds ++
    '.' :: Text.paddedDecimal 9 (d.nanoseconds.natAbs % 10 ^ 9)

/-- Reads a duration as it stands in a document: a signed number of seconds, a point, and digits,
of which those past the ninth are cut off.  The minus sign holds for the fraction, too. -/
def parse? (text : List Char) : Option Duration :=
  let whole := text.takeWhile (· != '.')
  let places := (text.dropWhile (· != '.')).drop 1
  if places.isEmpty || !places.all Char.isDigit then none
  else
    match Text.readInteger .int64 whole with
    | .error _ => none
    | .ok seconds =>
      let fraction : Int := placesValue (places.take 9)
      ofNanoseconds?
        (seconds * nanosecondsPerSecond +
          if text.head? == some '-' then -fraction else fraction)

end Duration

end PolicyText
