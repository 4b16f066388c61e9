import PolicyText.Text.Integer

/-!
# Calendar dates

Dates of the proleptic Gregorian calendar with years from -9999 to 9999.  A date can be given by
month and day, by the day of its year (`ofOrdinal`), by its ISO week (`ofIsoWeek`), or by its number
in the row of all days (`ofDayNumber`), in which day 0 is the first of January of the year 1, a
Monday. What is out of range is named by a `RangeFault`.
-/

namespace PolicyText

/-- A component of a date or time that is out of range, by its name. -/
structure RangeFault where
  component : String
  deriving DecidableEq, Repr

/-- What is said about a component that is out of range. -/
def RangeFault.message (fault : RangeFault) : String :=
  s!"{fault.component} was not in range"

/-- The months of the year, one to twelve. -/
def monthNumbers : List Nat :=
  [1, 2, 3, 4, 5, 6, 7, 8, 9, 10, 11, 12]

/-- Whether a year has a twenty-ninth of February. -/
def isLeapYear (year : Int) : Bool :=
  year % 4 == 0 && (year % 100 != 0 || year % 400 == 0)

/-- The number of days of a month, which counts from one; there is no thirteenth month. -/
def daysInMonth (year : Int) (month : Nat) : Nat :=
  if month = 2 then (if isLeapYear year then 29 else 28)
  else if month = 4 ∨ month = 6 ∨ month = 9 ∨ month = 11 then 30
  else if 1 ≤ month ∧ month ≤ 12 then 31
  else 0

/-- The number of days of a year. -/
def daysInYear (year : Int) : Nat :=
  if isLeapYear year then 366 else 365

/-- Whether year, month and day make a date. -/
def isDate (year : Int) (month day : Nat) : Bool :=
  decide (-9999 ≤ year) && decide (year ≤ 9999) && decide (1 ≤ month) && decide (month ≤ 12) &&
    decide (1 ≤ day) && decide (day ≤ daysInMonth year month)

/-- A date. -/
structure Date where
  year : Int
  month : Nat
  day : Nat
  valid : isDate year month day = true
  deriving DecidableEq

/-- The days of the week. -/
inductive Weekday where
  | monday
  | tuesday
  | wednesday
  | thursday
  | friday
  | saturday
  | sunday
  deriving DecidableEq, Repr

namespace Weekday

/-- The days of the week from Monday on. -/
def all : List Weekday :=
  [.monday, .tuesday, .wednesday, .thursday, .friday, .saturday, .sunday]

/-- The number of days since the last Monday. -/
def daysFromMonday : Weekday → Nat
  | .monday => 0
  | .tuesday => 1
  | .wednesday => 2
  | .thursday => 3
  | .friday => 4
  | .saturday => 5
  | .sunday => 6

/-- The number of days since the last Sunday. -/
def daysFromSunday (w : Weekday) : Nat :=
  (w.daysFromMonday + 1) % 7

end Weekday

namespace Date

/-- The date with a given year, month and day. -/
def ofParts (year : Int) (month day : Nat) : Except RangeFault Date :=
  if h : isDate year month day = true then .ok ⟨year, month, day, h⟩
  else if year < -9999 || 9999 < year then .error ⟨"year"⟩
  else if month = 0 || 12 < month then .error ⟨"month"⟩
  else .error ⟨"day"⟩

/-- Finds the month and the day in it, given the days that are left of the year. -/
def monthAndDay (year : Int) : List Nat → Nat → Nat × Nat
  | [], left => (13, left)
  | month :: later, left =>
    if left ≤ daysInMonth year month then (month, left)
    else monthAndDay year later (left - daysInMonth year month)

/-- The date with a given year and day of the year. -/
def ofOrdinal (year : Int) (ordinal : Int) : Except RangeFault Date :=
  if ordinal < 1 || (daysInYear year : Int) < ordinal then .error ⟨"ordinal"⟩
  else
    let (month, day) := monthAndDay year monthNumbers ordinal.toNat
    ofParts year month day

/-- The number of days before the first of January of a year. -/
def daysBeforeYear (year : Int) : Int :=
  365 * (year - 1) + (year - 1) / 4 - (year - 1) / 100 + (year - 1) / 400

/-- The number of days from the start of a year to the start of one of its months. -/
def daysBeforeMonth (year : Int) (month : Nat) : Nat :=
  (monthNumbers.takeWhile (· != month)).foldl (fun days m => days + daysInMonth year m) 0

/-- The day of the year, counted from one. -/
def ordinal (d : Date) : Nat :=
  daysBeforeMonth d.year d.month + d.day

/-- The number of a date in the row of all days. -/
def dayNumber (d : Date) : Int :=
  daysBeforeYear d.year + d.ordinal - 1

/-- The year in which a day falls.  The estimate by the mean length of a year is off by one at
most. -/
def yearOfDayNumber (n : Int) : Int :=
  let guess := n * 400 / 146097 + 1
  if n < daysBeforeYear guess then guess - 1
  else if daysBeforeYear (guess + 1) ≤ n then guess + 1
  else guess

/-- The date with a given number in the row of all days. -/
def ofDayNumber (n : Int) : Except RangeFault Date :=
  let year := yearOfDayNumber n
  if year < -9999 || 9999 < year then .error ⟨"year"⟩
  else ofOrdinal year (n - daysBeforeYear year + 1)

/-- The day of the week on which the first of January falls, as days from Monday. -/
def firstWeekday (year : Int) : Nat :=
  (daysBeforeYear year % 7).toNat

/-- The number of ISO weeks of a year: fifty-three where it begins on a Thursday, or on a Wednesday
in a leap year. -/
def isoWeeks (year : Int) : Nat :=
  if firstWeekday year = 3 ∨ (firstWeekday year = 2 ∧ isLeapYear year) then 53 else 52

/-- The date with a given ISO year, week and day of the week.  The first week is the one that holds
the fourth of January.  Where a week is cut off by the end of the calendar it is the day of the week
that is out of range. -/
def ofIsoWeek (year : Int) (week : Nat) (weekday : Weekday) : Except RangeFault Date :=
  if week = 0 || isoWeeks year < week then .error ⟨"week"⟩
  else
    let fourth := daysBeforeYear year + 3
    let monday := fourth - fourth % 7 + 7 * (week - 1 : Int)
    match ofDayNumber (monday + weekday.daysFromMonday) with
    | .ok date => .ok date
    | .error _ => .error ⟨"weekday"⟩

/-- The year with a minus sign where it is negative, and at least four digits. -/
def yearText (year : Int) : List Char :=
  (if year < 0 then ['-'] else []) ++ Text.paddedDecimal 4 year.natAbs

/-- The text `YYYY-MM-DD` of a date. -/
def text (d : Date) : List Char :=
  yearText d.year ++ '-' :: Text.paddedDecimal 2 d.month ++ '-' :: Text.paddedDecimal 2 d.day

end Date

end PolicyText
