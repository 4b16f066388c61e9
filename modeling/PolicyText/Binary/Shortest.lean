import PolicyText.Binary.Basic
import PolicyText.Text.Blank
import PolicyText.Text.Integer

/-!
# Shortest decimal digits of a binary number

`Binary.shortest` gives the decimal number with the fewest digits that reads back as a given finite
number, and the nearest of those.  The reals that round to `m · 2 ^ e` form an interval around it,
whose ends belong to it exactly when `m` is even; on the grid of numbers with `n` digits only the
two neighbours of the value need to be looked at, because if any point of the grid lies in the
interval, one of the neighbours does.  The first `n` with a hit wins; `maxDigits` digits always
suffice.

`jsonText` writes the digits as a number of a document: positionally while the exponent of the first
digit stays in a window of the format, else with an exponent that always bears its sign, and never
as an integer.
-/

namespace PolicyText

namespace BinaryFormat

/-- The number of decimal digits with which every value of the format can be told apart. -/
def maxDigits (format : BinaryFormat) : Nat :=
  2 + format.precision * 30103 / 100000

end BinaryFormat

namespace Binary

/-- A positive decimal number `digits · 10 ^ exponent`. -/
structure Digits where
  digits : Nat
  exponent : Int
  deriving DecidableEq

/-- `10 ^ exponent` as a quotient of natural numbers. -/
def powerOfTen (exponent : Int) : Nat × Nat :=
  (10 ^ exponent.toNat, 10 ^ (-exponent).toNat)

/-- Moves an estimate of the decimal exponent of `numerator / denominator` to the right place, in
at most `fuel` steps: the `k` with `10 ^ k ≤ numerator / denominator < 10 ^ (k + 1)`. -/
def adjustExponent (numerator denominator : Nat) : Nat → Int → Int
  | 0, k => k
  | fuel + 1, k =>
    let (up, down) := powerOfTen k
    if numerator * down < denominator * up then adjustExponent numerator denominator fuel (k - 1)
    else
      let (up, down) := powerOfTen (k + 1)
      if denominator * up ≤ numerator * down then
        adjustExponent numerator denominator fuel (k + 1)
      else k

/-- The decimal exponent of a positive quotient.  The estimate from the binary logarithms is off
by one at most. -/
def decimalExponent (numerator denominator : Nat) : Int :=
  adjustExponent numerator denominator 3
    (((numerator.log2 : Int) - (denominator.log2 : Int)) * 30103 / 100000)

/-- An interval of positive quotients with one denominator, with a point inside. -/
structure Interval where
  low : Nat
  value : Nat
  high : Nat
  denominator : Nat
  closed : Bool

namespace Interval

/-- Whether a quotient lies in the interval. -/
def contains (i : Interval) (numerator denominator : Nat) : Bool :=
  let x := numerator * i.denominator
  if i.closed then decide (i.low * denominator ≤ x) && decide (x ≤ i.high * denominator)
  else decide (i.low * denominator < x) && decide (x < i.high * denominator)

/-- The neighbour of the value that lies in the interval, on the grid of multiples of
`10 ^ exponent`; of two the nearer one, and of two equally near the even one. -/
def neighbour? (i : Interval) (exponent : Int) : Option Nat :=
  let (up, down) := powerOfTen exponent
  let below := i.value * down / (i.denominator * up)
  let above := below + 1
  let hitBelow := i.contains (below * up) down
  let hitAbove := i.contains (above * up) down
  if hitBelow && hitAbove then
    let left := i.value * down - below * up * i.denominator
    let right := above * up * i.denominator - i.value * down
    if left < right then some below
    else if right < left then some above
    else some (if below % 2 = 0 then below else above)
  else if hitBelow then some below
  else if hitAbove then some above
  else none

/-- The first number of digits, from `count` on, at which the grid has a point in the interval;
`left` more counts are tried.  With `maxDigits` counts the last case, the digits cut off, is not
reached. -/
def search (i : Interval) (leading : Int) : Nat → Nat → Digits
  | 0, count =>
    let (up, down) := powerOfTen (leading - count + 1)
    ⟨i.value * down / (i.denominator * up), leading - count + 1⟩
  | left + 1, count =>
    match i.neighbour? (leading - count + 1) with
    | some digits => ⟨digits, leading - count + 1⟩
    | none => search i leading left (count + 1)

end Interval

/-- The reals that round to `significand · 2 ^ exponent`, with a quarter of the last place as
unit.  Below a power of two the neighbour is only half as far away. -/
def interval (format : BinaryFormat) (significand : Nat) (exponent : Int) : Interval :=
  let (up, down) := powerOfTwo (exponent - 2)
  let step :=
    if significand = 2 ^ (format.precision - 1) && format.leastExponent < exponent then 1 else 2
  { low := (4 * significand - step) * up
    value := 4 * significand * up
    high := (4 * significand + 2) * up
    denominator := down
    closed := significand % 2 == 0 }

/-- The shortest decimal number that reads back as `significand · 2 ^ exponent`, which is not
zero, and the nearest of those. -/
def shortest (format : BinaryFormat) (significand : Nat) (exponent : Int) : Digits :=
  let i := interval format significand exponent
  i.search (decimalExponent i.value i.denominator) format.maxDigits 1

/-- A window of decimal exponents. -/
structure ExponentWindow where
  least : Int
  greatest : Int

/-- The exponents of the first digit at which a number of the format is written positionally. -/
def positionalWindow (format : BinaryFormat) : ExponentWindow :=
  if format = .single then ⟨-6, 12⟩ else ⟨-5, 15⟩

/-- Digits with a decimal point such that the first digit has the given exponent. -/
def positional (digits : List Char) (leading : Int) : List Char :=
  if leading < 0 then
    ['0', '.'] ++ List.replicate (-leading - 1).toNat '0' ++ digits
  else
    let whole := leading.toNat + 1
    if digits.length ≤ whole then
      digits ++ List.replicate (whole - digits.length) '0' ++ ['.', '0']
    else digits.take whole ++ '.' :: digits.drop whole

/-- Digits with a point after the first one and an exponent that bears its sign. -/
def scientific (digits : List Char) (leading : Int) : List Char :=
  let mantissa :=
    match digits with
    | [] => []
    | [d] => [d]
    | d :: rest => d :: '.' :: rest
  let sign := if leading < 0 then '-' else '+'
  mantissa ++ 'e' :: sign :: Text.decimal leading.natAbs

/-- The digits of a positive decimal number without trailing zeros, and the exponent of the first
of them. -/
def Digits.leading (d : Digits) : List Char × Int :=
  let digits := Text.decimal d.digits
  (Text.dropEndWhile (· == '0') digits, d.exponent + digits.length - 1)

/-- A number as it stands in a document: the shortest digits that read back, always with a point
or an exponent; infinity has no number and is written `null`. -/
def jsonText : Binary format → List Char
  | .finite negative significand exponent _ =>
    let sign := if negative then ['-'] else []
    if significand = 0 then sign ++ ['0', '.', '0']
    else
      let (digits, leading) := (shortest format significand exponent).leading
      let window := positionalWindow format
      sign ++
        (if window.least ≤ leading && leading ≤ window.greatest then positional digits leading
         else scientific digits leading)
  | .infinite _ => ['n', 'u', 'l', 'l']

/-- A finite number in positional notation, without a point where it is whole. -/
def plainText? : Binary format → Option (List Char)
  | .finite negative significand exponent _ =>
    let sign := if negative then ['-'] else []
    if significand = 0 then some (sign ++ ['0'])
    else
      let (digits, leading) := (shortest format significand exponent).leading
      if 0 ≤ leading && digits.length ≤ leading.toNat + 1 then
        some (sign ++ digits ++ List.replicate (leading.toNat + 1 - digits.length) '0')
      else some (sign ++ positional digits leading)
  | .infinite _ => none

end Binary

end PolicyText
