import PolicyText.Binary.Shortest
import PolicyText.Text.Integer

/-!
# Decimal numbers with 96-bit coefficients

A decimal is `coefficient · 10 ^ -scale` with a coefficient below `2 ^ 96` in absolute value and at
most twenty-eight decimal places.  Trailing zeros are kept, so `1.5` and `1.50` are different
values, and there is no negative zero, because the coefficient is an integer.

`Decimal.read` takes a sign, digits and a point; underscores may stand behind the first digit.
Places that do not fit are rounded away, half up on the first of them, and what follows that place
is not looked at; whole digits that do not fit are an error.  A text with an exponent
(`readScientific`) has its coefficient read in the same way and is then shifted.  `Decimal.text`
writes a decimal with all its places.
-/

namespace PolicyText

/-- The first number that is no coefficient. -/
def Decimal.coefficientBound : Nat := 2 ^ 96

/-- The greatest number of decimal places. -/
def Decimal.greatestScale : Nat := 28

/-- A decimal number, with the places it was written with. -/
structure Decimal where
  coefficient : Int
  scale : Nat
  coefficient_lt : coefficient.natAbs < Decimal.coefficientBound
  scale_le : scale ≤ Decimal.greatestScale
  deriving DecidableEq

/-- Why a text is no decimal. -/
inductive DecimalFault where
  | empty
  | unknownCharacter
  | secondPoint
  | leadingSeparator
  | noDigits
  | tooManyDigits
  | roundedOver
  | scaleTooLarge (scale : Nat)
  | tooLarge
  | malformedExponent
  deriving DecidableEq, Repr

/-- What is said about a text that is no decimal. -/
def DecimalFault.message : DecimalFault → String
  | .empty => "Invalid decimal: empty"
  | .unknownCharacter => "Invalid decimal: unknown character"
  | .secondPoint => "Invalid decimal: two decimal points"
  | .leadingSeparator => "Invalid decimal: must start lead with a number"
  | .noDigits => "Invalid decimal: no digits found"
  | .tooManyDigits => "Invalid decimal: overflow from too many digits"
  | .roundedOver => "Invalid decimal: overflow from mantissa after rounding"
  | .scaleTooLarge scale =>
    s!"Scale exceeds the maximum precision allowed: {scale} > {Decimal.greatestScale}"
  | .tooLarge => "Number exceeds maximum value that can be represented."
  | .malformedExponent => "Failed to parse"

namespace Decimal

/-- The decimal with a given sign, coefficient and scale, if there is one. -/
def ofParts? (negative : Bool) (coefficient scale : Nat) : Option Decimal :=
  if h : coefficient < coefficientBound ∧ scale ≤ greatestScale then
    some
      { coefficient := if negative then -(coefficient : Int) else coefficient
        scale := scale
        coefficient_lt := by split <;> simp [h.1]
        scale_le := h.2 }
  else none

/-- Ends the reading of a decimal. -/
def finish (negative : Bool) (coefficient scale : Nat) : Except DecimalFault Decimal :=
  match ofParts? negative coefficient scale with
  | some d => .ok d
  | none => .error .tooManyDigits

/-- The fault of a character that does not belong to a decimal where it stands. -/
def faultOf (c : Char) : DecimalFault :=
  if c = '.' then .secondPoint else if c = '_' then .leadingSeparator else .unknownCharacter

/-- The value of a character at the first place that does not fit, where a point and a separator
stand for zero. -/
def droppedPlace? (c : Char) : Option Nat :=
  if c = '.' || c = '_' then some 0 else Text.digitValue? c

/-- Rounds the coefficient by the first place that does not fit, half up.  Where that takes the
coefficient over its bound, one place more is rounded away. -/
def roundAt (negative : Bool) (coefficient scale : Nat) (c : Char) : Except DecimalFault Decimal :=
  match droppedPlace? c with
  | none => .error (faultOf c)
  | some d =>
    if d < 5 then finish negative coefficient scale
    else if coefficient + 1 < coefficientBound then finish negative (coefficient + 1) scale
    else if scale = 0 then .error .roundedOver
    else finish negative ((coefficient + 5) / 10) (scale - 1)

/-- Reads digits, a point and separators behind what has been read so far: `point` and `digit`
say whether a point and a digit have been seen. -/
def readFrom (negative point digit : Bool) (coefficient scale : Nat) :
    List Char → Except DecimalFault Decimal
  | [] => if digit then finish negative coefficient scale else .error .noDigits
  | c :: rest =>
    if point && scale == greatestScale then roundAt negative coefficient scale c
    else
      match Text.digitValue? c with
      | some d =>
        let next := coefficient * 10 + d
        if next < coefficientBound then
          readFrom negative point true next (if point then scale + 1 else scale) rest
        else if point then roundAt negative coefficient scale c
        else .error .tooManyDigits
      | none =>
        if c = '.' && !point then readFrom negative true digit coefficient scale rest
        else if c = '_' && digit then readFrom negative point digit coefficient scale rest
        else .error (faultOf c)

/-- Reads a decimal without exponent. -/
def readPlain : List Char → Except DecimalFault Decimal
  | [] => .error .empty
  | '-' :: rest => readFrom true false false 0 0 rest
  | '+' :: rest => readFrom false false false 0 0 rest
  | text => readFrom false false false 0 0 text

/-- The decimal with the same coefficient and another scale. -/
def withScale (d : Decimal) (scale : Nat) : Except DecimalFault Decimal :=
  if h : scale ≤ greatestScale then .ok { d with scale := scale, scale_le := h }
  else .error (.scaleTooLarge scale)

/-- Shifts a decimal by a power of ten.  A negative exponent adds places, a positive one takes
places away or, where there are not enough, multiplies the coefficient.  Scales are counted in 32
bits. -/
def shift (d : Decimal) (negative : Bool) (exponent : Nat) : Except DecimalFault Decimal :=
  if negative then d.withScale ((d.scale + exponent) % 2 ^ 32)
  else if exponent ≤ d.scale then d.withScale (d.scale - exponent)
  else if greatestScale < exponent then .error (.scaleTooLarge exponent)
  else
    match ofParts? (decide (d.coefficient < 0))
        (d.coefficient.natAbs * 10 ^ (exponent - d.scale)) 0 with
    | some shifted => .ok shifted
    | none => .error .tooLarge

/-- Whether a character introduces an exponent. -/
def isExponentMark (c : Char) : Bool :=
  c == 'e' || c == 'E'

/-- Reads a decimal with an exponent: a plain decimal, a mark, and an optional minus sign before
a number of 32 bits. -/
def readScientific (text : List Char) : Except DecimalFault Decimal := do
  let d ← readPlain (text.takeWhile (!isExponentMark ·))
  let (negative, digits) :=
    match (text.dropWhile (!isExponentMark ·)).drop 1 with
    | '-' :: digits => (true, digits)
    | digits => (false, digits)
  match Text.readInteger .nat32 digits with
  | .ok exponent => d.shift negative exponent.toNat
  | .error _ => .error .malformedExponent

/-- Reads a decimal. -/
def read (text : List Char) : Except DecimalFault Decimal :=
  if text.any isExponentMark then readScientific text else readPlain text

/-- The decimal text of a number, with all its places and at least one digit before the point. -/
def text (d : Decimal) : List Char :=
  let digits := Text.paddedDecimal (d.scale + 1) d.coefficient.natAbs
  let whole := digits.take (digits.length - d.scale)
  let places := digits.drop (digits.length - d.scale)
  (if d.coefficient < 0 then ['-'] else []) ++ whole ++
    (if places.isEmpty then [] else '.' :: places)

/-- The decimal that is a given integer. -/
def ofInt? (n : Int) : Option Decimal :=
  ofParts? (decide (n < 0)) n.natAbs 0

/-- The decimal that the shortest digits of a binary number denote. -/
def ofBinary? {format : BinaryFormat} (x : Binary format) : Option Decimal :=
  x.plainText? >>= fun text => (readPlain text).toOption

end Decimal

end PolicyText
