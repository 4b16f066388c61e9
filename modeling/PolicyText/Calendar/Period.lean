import PolicyText.Calendar.Amount

/-!
# Periods

A period is a number of years, months and days, each of 32 bits.  Its text is a sign, `P` and
amounts in years, months, weeks and days, in this order and each at most once (`P1Y2M3W4D`); a week
is seven days.  The sign holds for the whole, and every amount can have one of its own.
-/

namespace PolicyText

/-- A number of years, months and days. -/
structure Period where
  years : Text.Integer32
  months : Text.Integer32
  days : Text.Integer32
  deriving DecidableEq

namespace Period

/-- What the amounts of a period add up to, before its sign is applied. -/
structure Sum where
  years : Int
  months : Int
  days : Int
  deriving DecidableEq, Repr

/-- The units of a period in their order. -/
def units : List Char := ['Y', 'M', 'W', 'D']

/-- A number of days, if it has 64 bits. -/
def checkedDays (days : Int) : Except SpanFault Int :=
  if Text.IntegerRange.int64.contains days then .ok days else .error (.overflow .period)

/-- Adds an amount. -/
def Sum.add (sum : Sum) (n : Int) (unit : Char) : Except SpanFault Sum :=
  if unit = 'Y' then .ok { sum with years := n }
  else if unit = 'M' then .ok { sum with months := n }
  else if unit = 'W' then
    match checkedDays (n * 7) with
    | .ok days =>
      match checkedDays (sum.days + days) with
      | .ok days => .ok { sum with days := days }
      | .error fault => .error fault
    | .error fault => .error fault
  else
    match checkedDays (sum.days + n) with
    | .ok days => .ok { sum with days := days }
    | .error fault => .error fault

/-- Adds up amounts, the last unit before them being at the place `last`. -/
def total (last : Option Nat) (sum : Sum) : List Amount → Except SpanFault Sum
  | [] => .ok sum
  | amount :: rest =>
    match unitPlace .period units last amount.unit with
    | .error fault => .error fault
    | .ok place =>
      match wholeAmount amount.number amount.unit with
      | .error fault => .error fault
      | .ok n =>
        match sum.add n amount.unit with
        | .error fault => .error fault
        | .ok sum => total (some place) sum rest

/-- An amount with the sign of the whole, if it has 32 bits. -/
def narrowed (negative : Bool) (n : Int) : Except SpanFault Text.Integer32 :=
  match Text.Bounded.ofInt? .int32 (if negative then -n else n) with
  | some n => .ok n
  | none => .error (.overflow .period)

/-- Reads a period. -/
def read (text : List Char) : Except SpanFault Period := do
  let (negative, rest) := takeSign text
  let body ← takeDesignator rest
  let amounts ← readAmounts [] body
  if amounts.isEmpty then .error (.empty .period)
  else
    let sum ← total none ⟨0, 0, 0⟩ amounts
    let years ← narrowed negative sum.years
    let months ← narrowed negative sum.months
    let days ← narrowed negative sum.days
    .ok ⟨years, months, days⟩

end Period

end PolicyText
