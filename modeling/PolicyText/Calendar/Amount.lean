import PolicyText.Text.Integer

/-!
# Amounts with units

The text of a period or a duration is a row of amounts, each a number followed by the letter of its
unit: `1Y-2M3.5S`.  `readAmounts` takes such a row apart; the numbers are read later, because what a
unit allows depends on where it stands.
-/

namespace PolicyText

/-- The two kinds of time spans. -/
inductive SpanKind where
  | period
  | duration
  deriving DecidableEq, Repr

/-- The word for a kind of time span. -/
def SpanKind.word : SpanKind → String
  | .period => "period"
  | .duration => "duration"

/-- Why a text is no period or duration. -/
inductive SpanFault where
  | missingDesignator
  | missingNumber (unit : Char)
  | missingUnit (number : String)
  | invalidAmount (number : String) (unit : Char)
  | invalidFraction (number : String)
  | unknownUnit (kind : SpanKind) (unit : Char)
  | outOfOrder (kind : SpanKind) (unit : Char)
  | belongsToTime (unit : Char)
  | missingTime
  | empty (kind : SpanKind)
  | overflow (kind : SpanKind)
  deriving DecidableEq, Repr

/-- What is said about a text that is no period or duration. -/
def SpanFault.message : SpanFault → String
  | .missingDesignator => "must start with 'P'"
  | .missingNumber unit => s!"missing number before '{unit}'"
  | .missingUnit number => s!"missing unit after '{number}'"
  | .invalidAmount number unit => s!"invalid amount '{number}' for unit '{unit}'"
  | .invalidFraction number => s!"invalid fraction in '{number}'"
  | .unknownUnit kind unit => "unknown " ++ kind.word ++ s!" unit '{unit}'"
  | .outOfOrder kind unit => kind.word ++ s!" unit '{unit}' is out of order"
  | .belongsToTime unit => s!"unit '{unit}' must follow 'T'"
  | .missingTime => "'T' must be followed by a time component"
  | .empty kind => kind.word ++ " has no components"
  | .overflow kind => kind.word ++ " overflow"

/-- An amount: its number as it is written, and the upper-case letter of its unit. -/
structure Amount where
  number : List Char
  unit : Char
  deriving DecidableEq, Repr

/-- Whether a character can go on with a number of which `number` has been read.  A sign can only
begin one. -/
def continuesNumber (number : List Char) (c : Char) : Bool :=
  c.isDigit || c == '.' || ((c == '-' || c == '+') && number.isEmpty)

/-- A number without a digit or a point. -/
def isBareSign (number : List Char) : Bool :=
  number.isEmpty || number == ['-'] || number == ['+']

/-- Takes a row of amounts apart; `number` is what has been read of the first of them. -/
def readAmounts (number : List Char) : List Char → Except SpanFault (List Amount)
  | [] => if number.isEmpty then .ok [] else .error (.missingUnit (String.ofList number))
  | c :: rest =>
    if continuesNumber number c then readAmounts (number ++ [c]) rest
    else if isBareSign number then .error (.missingNumber c)
    else
      match readAmounts [] rest with
      | .ok amounts => .ok (⟨number, c.toUpper⟩ :: amounts)
      | .error fault => .error fault

/-- Takes an optional sign off; `true` stands for a minus sign. -/
def takeSign : List Char → Bool × List Char
  | '-' :: rest => (true, rest)
  | '+' :: rest => (false, rest)
  | text => (false, text)

/-- Takes the letter off with which every time span begins. -/
def takeDesignator : List Char → Except SpanFault (List Char)
  | 'P' :: rest => .ok rest
  | 'p' :: rest => .ok rest
  | _ => .error .missingDesignator

/-- A whole amount. -/
def wholeAmount (number : List Char) (unit : Char) : Except SpanFault Int :=
  match Text.readInteger .int64 number with
  | .ok n => .ok n
  | .error _ => .error (.invalidAmount (String.ofList number) unit)

/-- The place of a unit in the order of units, which has to lie after that of the unit before
it. -/
def unitPlace (kind : SpanKind) (order : List Char) (last : Option Nat) (unit : Char) :
    Except SpanFault Nat :=
  match order.findIdx? (· == unit) with
  | none => .error (.unknownUnit kind unit)
  | some place =>
    if last.any (fun previous => decide (place ≤ previous)) then .error (.outOfOrder kind unit)
    else .ok place

end PolicyText
