import PolicyText.Text.Integer

/-!
# Binary floating-point numbers

A finite number of a binary format is `± m · 2 ^ e`, where the significand `m` has at most
`precision` bits and the exponent `e` lies between two bounds; it has exactly `precision` bits
unless `e` is the least exponent, so that every value of the format is written in one way.  There is
one infinity of each sign and no undefined value: whoever reads a text that stands for an undefined
value refuses it.

`ofRatio` rounds a quotient of natural numbers to the nearest value of the format, a tie going to
the even significand.  All other operations (`ofInt`, `mul`, `div`, `convert`) are the exact
operation followed by this one rounding.
-/

namespace PolicyText

/-- A binary floating-point format: the number of bits of a significand and the bounds of the
exponent of its last bit. -/
structure BinaryFormat where
  precision : Nat
  leastExponent : Int
  greatestExponent : Int
  deriving DecidableEq

namespace BinaryFormat

/-- The format of 32 bits. -/
def single : BinaryFormat := ⟨24, -149, 104⟩

/-- The format of 64 bits. -/
def double : BinaryFormat := ⟨53, -1074, 971⟩

/-- Whether `significand · 2 ^ exponent` is the written form of a value of the format. -/
def admits (format : BinaryFormat) (significand : Nat) (exponent : Int) : Bool :=
  decide (significand < 2 ^ format.precision) &&
    decide (format.leastExponent ≤ exponent) && decide (exponent ≤ format.greatestExponent) &&
    (decide (2 ^ (format.precision - 1) ≤ significand) || decide (exponent = format.leastExponent))

end BinaryFormat

/-- A number of a binary format. -/
inductive Binary (format : BinaryFormat) where
  | finite (negative : Bool) (significand : Nat) (exponent : Int)
      (admitted : format.admits significand exponent = true)
  | infinite (negative : Bool)
  deriving DecidableEq

/-- A number of 32 bits. -/
abbrev Binary32 := Binary .single

/-- A number of 64 bits. -/
abbrev Binary64 := Binary .double

namespace Binary

variable {format : BinaryFormat}

/-- Whether a number is finite. -/
def isFinite : Binary format → Bool
  | .finite .. => true
  | .infinite _ => false

/-- The number `± significand · 2 ^ exponent` if the format has it, else the infinity of that
sign. -/
def ofParts (format : BinaryFormat) (negative : Bool) (significand : Nat) (exponent : Int) :
    Binary format :=
  if h : format.admits significand exponent = true then .finite negative significand exponent h
  else .infinite negative

/-- The quotient of two natural numbers, rounded to the nearest one; a tie goes to the even
neighbour. -/
def roundedQuotient (numerator denominator : Nat) : Nat :=
  let quotient := numerator / denominator
  let double := 2 * (numerator % denominator)
  if double < denominator then quotient
  else if denominator < double then quotient + 1
  else quotient + quotient % 2

/-- `2 ^ exponent` as a quotient of natural numbers. -/
def powerOfTwo (exponent : Int) : Nat × Nat :=
  (2 ^ exponent.toNat, 2 ^ (-exponent).toNat)

/-- The exponent at which `numerator / denominator`, a positive number, is written in a format:
the one that leaves `precision` bits before the point, or the least one. -/
def exponentFor (format : BinaryFormat) (numerator denominator : Nat) : Int :=
  let guess : Int := (numerator.log2 : Int) - (denominator.log2 : Int) - (format.precision : Int)
  let (up, down) := powerOfTwo (guess + format.precision)
  max format.leastExponent (if numerator * down < denominator * up then guess else guess + 1)

/-- The value of a format nearest to `± numerator / denominator`; a tie goes to the even
significand, and what lies beyond the greatest value goes to infinity. -/
def ofRatio (format : BinaryFormat) (negative : Bool) (numerator denominator : Nat) :
    Binary format :=
  if numerator = 0 then ofParts format negative 0 format.leastExponent
  else
    let exponent := exponentFor format numerator denominator
    let (up, down) := powerOfTwo exponent
    let significand := roundedQuotient (numerator * down) (denominator * up)
    if significand = 2 ^ format.precision then
      ofParts format negative (2 ^ (format.precision - 1)) (exponent + 1)
    else ofParts format negative significand exponent

/-- The sign of a number. -/
def isNegative : Binary format → Bool
  | .finite negative .. => negative
  | .infinite negative => negative

/-- The absolute value of a finite number as a quotient of natural numbers. -/
def ratio? : Binary format → Option (Nat × Nat)
  | .finite _ significand exponent _ =>
    let (up, down) := powerOfTwo exponent
    some (significand * up, down)
  | .infinite _ => none

/-- The value nearest to an integer. -/
def ofInt (format : BinaryFormat) (n : Int) : Binary format :=
  ofRatio format (decide (n < 0)) n.natAbs 1

/-- The value of another format nearest to a number. -/
def convert (target : BinaryFormat) (x : Binary format) : Binary target :=
  match x.ratio? with
  | some (numerator, denominator) => ofRatio target x.isNegative numerator denominator
  | none => .infinite x.isNegative

/-- The number with the other sign. -/
def neg : Binary format → Binary format
  | .finite negative significand exponent admitted =>
    .finite (!negative) significand exponent admitted
  | .infinite negative => .infinite (!negative)

/-- The rounded product.  Infinite factors give infinity; a zero factor beside one does not
occur. -/
def mul (x y : Binary format) : Binary format :=
  let negative := x.isNegative != y.isNegative
  match x.ratio?, y.ratio? with
  | some (n, d), some (n', d') => ofRatio format negative (n * n') (d * d')
  | _, _ => .infinite negative

/-- The rounded quotient of two finite numbers, the divisor not being zero. -/
def div (x y : Binary format) : Binary format :=
  let negative := x.isNegative != y.isNegative
  match x.ratio?, y.ratio? with
  | some (n, d), some (n', d') => ofRatio format negative (n * d') (d * n')
  | _, _ => .infinite negative

/-- Whether a number is zero, of either sign. -/
def isZero : Binary format → Bool
  | .finite _ significand _ _ => significand == 0
  | .infinite _ => false

/-- The value nearest to `± digits · 10 ^ exponent`.  Exponents far outside the formats, which reach
no further than `10 ^ ± 400`, are decided by the number of digits alone. -/
def ofDecimal (format : BinaryFormat) (negative : Bool) (digits : Nat) (exponent : Int) :
    Binary format :=
  if digits = 0 then ofRatio format negative 0 1
  else
    let magnitude : Int := exponent + (Nat.toDigits 10 digits).length
    if magnitude < -400 then ofRatio format negative 0 1
    else if 400 < magnitude then .infinite negative
    else ofRatio format negative (digits * 10 ^ exponent.toNat) (10 ^ (-exponent).toNat)

end Binary

end PolicyText
