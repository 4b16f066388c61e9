import PolicyText.Binary.Basic
import PolicyText.Text.Integer

/-!
# Decimal literals of binary numbers

`Binary.read` reads an optional sign, digits with an optional point among, before or behind them,
and an optional exponent, and rounds once to the format.  The words for infinity and the undefined
value are recognised in any case and refused like a number that overflows, since only finite
numbers are values of a policy.
-/

namespace PolicyText

/-- Why a text is no finite number. -/
inductive NumberFault where
  | empty
  | invalid
  | notFinite
  deriving DecidableEq, Repr

/-- What is said about a text that is no finite number. -/
def NumberFault.message : NumberFault → String
  | .empty => "not a number: cannot parse float from empty string"
  | .invalid => "not a number: invalid float literal"
  | .notFinite => "number must be finite"

namespace Binary

/-- Reads the exponent of a literal, which is absent or `e`, an optional sign and digits up to
the end of the text. -/
def readExponent? : List Char → Option Int
  | [] => some 0
  | c :: rest =>
    if c = 'e' || c = 'E' then
      let (negative, digits) :=
        match rest with
        | '-' :: digits => (true, digits)
        | '+' :: digits => (false, digits)
        | digits => (false, digits)
      if digits.isEmpty || !digits.all Char.isDigit then none
      else if negative then some (-(Text.digitsValue digits : Int))
      else some (Text.digitsValue digits : Int)
    else none

/-- Reads an unsigned literal into its digits, taken as a whole number, and the exponent of the
last of them. -/
def readUnsigned? (text : List Char) : Option (Nat × Int) :=
  let whole := text.takeWhile Char.isDigit
  let rest := text.dropWhile Char.isDigit
  let (places, rest) :=
    match rest with
    | '.' :: rest => (rest.takeWhile Char.isDigit, rest.dropWhile Char.isDigit)
    | rest => ([], rest)
  if whole.isEmpty && places.isEmpty then none
  else
    (readExponent? rest).map fun exponent =>
      (Text.digitsValue (whole ++ places), exponent - places.length)

/-- The words that stand for a value that is not finite. -/
def isWordForNonFinite (text : List Char) : Bool :=
  [['i', 'n', 'f'], ['i', 'n', 'f', 'i', 'n', 'i', 't', 'y'], ['n', 'a', 'n']].contains
    (text.map Char.toLower)

/-- Reads a finite number. -/
def read (format : BinaryFormat) (text : List Char) : Except NumberFault (Binary format) :=
  let (negative, unsigned) :=
    match text with
    | '-' :: rest => (true, rest)
    | '+' :: rest => (false, rest)
    | rest => (false, rest)
  if text.isEmpty then .error .empty
  else
    match readUnsigned? unsigned with
    | some (digits, exponent) =>
      let x := ofDecimal format negative digits exponent
      if x.isFinite then .ok x else .error .notFinite
    | none => if isWordForNonFinite unsigned then .error .notFinite else .error .invalid

end Binary

end PolicyText
