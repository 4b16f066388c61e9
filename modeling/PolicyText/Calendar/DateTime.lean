import PolicyText.Calendar.Date
import PolicyText.Text.Blank

/-!
# Times of day and points in time

A `TimeOfDay` has a precision of one nanosecond; an `Offset` from universal time is a number of
seconds of at most 25:59:59 in either direction; a `DateTime` is a date and a time of day at an
offset.
-/

namespace PolicyText

/-- A time of day. -/
structure TimeOfDay where
  hour : Nat
  minute : Nat
  second : Nat
  nanosecond : Nat
  hour_lt : hour < 24
  minute_lt : minute < 60
  second_lt : second < 60
  nanosecond_lt : nanosecond < 10 ^ 9
  deriving DecidableEq

namespace TimeOfDay

/-- The time of day with given components; the first that is out of range is named. -/
def ofParts (hour minute second nanosecond : Nat) : Except RangeFault TimeOfDay :=
  if hHour : hour < 24 then
    if hMinute : minute < 60 then
      if hSecond : second < 60 then
        if hNanosecond : nanosecond < 10 ^ 9 then
          .ok ⟨hour, minute, second, nanosecond, hHour, hMinute, hSecond, hNanosecond⟩
        else .error ⟨"nanosecond"⟩
      else .error ⟨"second"⟩
    else .error ⟨"minute"⟩
  else .error ⟨"hour"⟩

/-- The seconds since midnight. -/
def seconds (t : TimeOfDay) : Nat :=
  (t.hour * 60 + t.minute) * 60 + t.second

/-- The places of a fraction of a second: nine digits without trailing zeros, but at least
one. -/
def fractionText (nanosecond : Nat) : List Char :=
  match Text.dropEndWhile (· == '0') (Text.paddedDecimal 9 nanosecond) with
  | [] => ['0']
  | places => places

/-- The text `HH:MM:SS.f` of a time of day. -/
def text (t : TimeOfDay) : List Char :=
  Text.paddedDecimal 2 t.hour ++ ':' :: Text.paddedDecimal 2 t.minute ++
    ':' :: Text.paddedDecimal 2 t.second ++ '.' :: fractionText t.nanosecond

end TimeOfDay

/-- The greatest distance from universal time in seconds. -/
def Offset.bound : Nat := 25 * 3600 + 59 * 60 + 59

/-- A distance from universal time. -/
structure Offset where
  seconds : Int
  seconds_le : seconds.natAbs ≤ Offset.bound
  deriving DecidableEq

namespace Offset

/-- Universal time. -/
def utc : Offset := ⟨0, by decide⟩

/-- The sign of the first of some numbers that is not zero. -/
def isNegativeParts (hours minutes seconds : Int) : Bool :=
  if hours ≠ 0 then hours < 0 else if minutes ≠ 0 then minutes < 0 else seconds < 0

/-- The offset with given components; the first that is out of range is named.  The sign of the
first component that is not zero is the sign of the whole. -/
def ofParts (hours minutes seconds : Int) : Except RangeFault Offset :=
  if hHours : 25 < hours.natAbs then .error ⟨"offset hour"⟩
  else if hMinutes : 59 < minutes.natAbs then .error ⟨"offset minute"⟩
  else if hSeconds : 59 < seconds.natAbs then .error ⟨"offset second"⟩
  else
    let size := hours.natAbs * 3600 + minutes.natAbs * 60 + seconds.natAbs
    .ok
      { seconds := if isNegativeParts hours minutes seconds then -(size : Int) else size
        seconds_le := by
          have : size ≤ bound := by simp only [size, bound]; omega
          split <;> simpa using this }

/-- The text `±HH:MM:SS` of an offset. -/
def text (o : Offset) : List Char :=
  (if o.seconds < 0 then '-' else '+') ::
    Text.paddedDecimal 2 (o.seconds.natAbs / 3600) ++
    ':' :: Text.paddedDecimal 2 (o.seconds.natAbs / 60 % 60) ++
    ':' :: Text.paddedDecimal 2 (o.seconds.natAbs % 60)

end Offset

/-- A date and a time of day at an offset from universal time. -/
structure DateTime where
  date : Date
  time : TimeOfDay
  offset : Offset
  deriving DecidableEq

namespace DateTime

/-- The seconds between the start of day 0 in universal time and a point in time. -/
def utcSeconds (dt : DateTime) : Int :=
  dt.date.dayNumber * 86400 + dt.time.seconds - dt.offset.seconds

/-- The day number of the first of January 1970. -/
def epochDay : Int := 719162

/-- The point in time that lies a number of nanoseconds after the start of 1970, in universal
time. -/
def ofUnixNanoseconds (n : Int) : Except RangeFault DateTime := do
  let seconds := n / 10 ^ 9
  let date ← Date.ofDayNumber (epochDay + seconds / 86400)
  let second := (seconds % 86400).toNat
  let time ←
    TimeOfDay.ofParts (second / 3600) (second / 60 % 60) (second % 60) (n % 10 ^ 9).toNat
  .ok ⟨date, time, .utc⟩

/-- Whether a point in time falls in the last second of a month of universal time. -/
def endsMonth (dt : DateTime) : Bool :=
  decide (dt.utcSeconds % 86400 = 86399) &&
    (match Date.ofDayNumber (dt.utcSeconds / 86400) with
    | .ok date => date.day == daysInMonth date.year date.month
    | .error _ => false)

/-- The text `YYYY-MM-DD HH:MM:SS.f ±HH:MM:SS` of a point in time. -/
def text (dt : DateTime) : List Char :=
  dt.date.text ++ ' ' :: dt.time.text ++ ' ' :: dt.offset.text

end DateTime

end PolicyText
