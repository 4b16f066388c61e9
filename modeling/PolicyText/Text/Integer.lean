/-!
# Decimal integers of bounded width

`readInteger` reads an optional sign and ASCII digits into an integer of a given range, from left
to right, and names the first thing that is wrong: an empty text, a character that is no digit
(a sign standing alone counts as one), or the digit at which the value leaves the range.
`decimal` is the text of a natural number and `integerText` that of an integer.
-/

-- Powers with natural exponents are those of the core library, also where there are others.
attribute [instance (2000)] instPowNat instNatPowNat Int.instNatPow
attribute [default_instance 20000] instPowNat

namespace PolicyText.Text

/-- The value of an ASCII digit. -/
def digitValue? (c : Char) : Option Nat :=
  if c.isDigit then some (c.toNat - '0'.toNat) else none

/-- The value of a hexadecimal digit in either case. -/
def hexDigitValue? (c : Char) : Option Nat :=
  if c.isDigit then some (c.toNat - 48)
  else if 'a' ≤ c && c ≤ 'f' then some (c.toNat - 87)
  else if 'A' ≤ c && c ≤ 'F' then some (c.toNat - 55)
  else none

/-- Why a text is no integer of the wanted range. -/
inductive IntegerFault where
  | empty
  | invalidDigit
  | tooLarge
  | tooSmall
  deriving DecidableEq, Repr

/-- What is said about a text that is no integer. -/
def IntegerFault.message : IntegerFault → String
  | .empty => "cannot parse integer from empty string"
  | .invalidDigit => "invalid digit found in string"
  | .tooLarge => "number too large to fit in target type"
  | .tooSmall => "number too small to fit in target type"

/-- The integers from `least` to `greatest`. -/
structure IntegerRange where
  least : Int
  greatest : Int

namespace IntegerRange

/-- The signed integers of 32 bits. -/
def int32 : IntegerRange := ⟨-2 ^ 31, 2 ^ 31 - 1⟩

/-- The signed integers of 64 bits. -/
def int64 : IntegerRange := ⟨-2 ^ 63, 2 ^ 63 - 1⟩

/-- The unsigned integers of 32 bits. -/
def nat32 : IntegerRange := ⟨0, 2 ^ 32 - 1⟩

/-- The unsigned integers of 64 bits. -/
def nat64 : IntegerRange := ⟨0, 2 ^ 64 - 1⟩

/-- Membership of the range. -/
def contains (range : IntegerRange) (n : Int) : Bool :=
  decide (range.least ≤ n) && decide (n ≤ range.greatest)

end IntegerRange

/-- Appends digits to a value, downwards when the sign was negative, and stops at the first
character that is no digit or takes the value out of the range. -/
def appendDigits (range : IntegerRange) (negative : Bool) :
    Int → List Char → Except IntegerFault Int
  | total, [] => .ok total
  | total, c :: rest =>
    match digitValue? c with
    | none => .error .invalidDigit
    | some d =>
      let next := if negative then total * 10 - d else total * 10 + d
      if next < range.least then .error .tooSmall
      else if range.greatest < next then .error .tooLarge
      else appendDigits range negative next rest

/-- Reads an optional sign and one or more digits.  A minus sign is a digit out of place where
the range has no negative number. -/
def readInteger (range : IntegerRange) : List Char → Except IntegerFault Int
  | [] => .error .empty
  | '+' :: rest => if rest.isEmpty then .error .invalidDigit else appendDigits range false 0 rest
  | '-' :: rest =>
    if rest.isEmpty || decide (0 ≤ range.least) then .error .invalidDigit
    else appendDigits range true 0 rest
  | text => appendDigits range false 0 text

/-- An integer of a given range. -/
structure Bounded (range : IntegerRange) where
  value : Int
  contained : range.contains value = true
  deriving DecidableEq

namespace Bounded

/-- The member of a range that is a given integer, if it is one. -/
def ofInt? (range : IntegerRange) (n : Int) : Option (Bounded range) :=
  if h : range.contains n = true then some ⟨n, h⟩ else none

@[simp] theorem ofInt?_value {range : IntegerRange} (n : Bounded range) :
    ofInt? range n.value = some n := by
  simp [ofInt?, n.contained]

theorem value_of_ofInt? {range : IntegerRange} {n : Int} {b : Bounded range}
    (h : ofInt? range n = some b) : b.value = n := by
  unfold ofInt? at h
  split at h
  · cases h; rfl
  · cases h

end Bounded

/-- A signed integer of 32 bits. -/
abbrev Integer32 := Bounded .int32

/-- A signed integer of 64 bits. -/
abbrev Integer64 := Bounded .int64

/-- Reads an integer of a range.  A text that is read without fault is in the range. -/
def readBounded (range : IntegerRange) (text : List Char) :
    Except IntegerFault (Bounded range) :=
  match readInteger range text with
  | .ok n =>
    match Bounded.ofInt? range n with
    | some b => .ok b
    | none => .error .tooLarge
  | .error fault => .error fault

/-- The decimal digits of a natural number, without leading zeros. -/
def decimal (n : Nat) : List Char :=
  Nat.toDigits 10 n

/-- The decimal text of an integer, with a minus sign before a negative one. -/
def integerText (n : Int) : List Char :=
  if n < 0 then '-' :: decimal n.natAbs else decimal n.natAbs

/-- The decimal digits of a natural number, padded with zeros to at least `width` places. -/
def paddedDecimal (width n : Nat) : List Char :=
  List.replicate (width - (decimal n).length) '0' ++ decimal n

/-- The value of a list of digits, the first digit being the highest.  Characters that are no
digits count as zeros; callers pass digits only. -/
def digitsValue (digits : List Char) : Nat :=
  digits.foldl (fun total c => total * 10 + (digitValue? c).getD 0) 0

end PolicyText.Text
