import PolicyText.Text.Integer
import PolicyText.Text.Segments

/-!
# Semantic versions

A version is a text of the form `MAJOR.MINOR.PATCH`, followed by an optional pre-release part
(`-alpha.1`) and an optional build part (`+b7`).  The three numbers fit 64 bits and have no leading
zeros; the dotted identifiers of the two parts are non-empty runs of ASCII letters, digits and
hyphens, and a numeric pre-release identifier has no leading zero either.

Since every part is written in exactly one way, a version is kept as its own text together with
the fact that the text is well formed (`Version.accepts`), and reading and writing it are inverse to
each other by construction (`Version.parse?_text`).
-/

namespace PolicyText

namespace Version

/-- The letters, digits and hyphens of which identifiers are made. -/
def isIdentifierChar (c : Char) : Bool :=
  c.isAlphanum || c == '-'

/-- Reads a number of a version core: digits without a leading zero that fit 64 bits.  What
follows the digits is returned. -/
def numberRest? (text : List Char) : Option (List Char) :=
  let digits := text.takeWhile Char.isDigit
  if digits.isEmpty then none
  else if digits.head? == some '0' && digits.length != 1 then none
  else if 2 ^ 64 ≤ Text.digitsValue digits then none
  else some (text.dropWhile Char.isDigit)

/-- Reads a dot. -/
def dotRest? : List Char → Option (List Char)
  | '.' :: rest => some rest
  | _ => none

/-- A build identifier is a non-empty run of identifier characters. -/
def isBuildIdentifier (segment : List Char) : Bool :=
  !segment.isEmpty && segment.all isIdentifierChar

/-- A pre-release identifier is a build identifier that, where it is a number, has no leading
zero. -/
def isPreReleaseIdentifier (segment : List Char) : Bool :=
  isBuildIdentifier segment &&
    !(segment.all Char.isDigit && segment.head? == some '0' && segment.length != 1)

/-- The optional build part, up to the end of the text. -/
def acceptsBuild : List Char → Bool
  | [] => true
  | '+' :: rest => (Text.segments '.' rest).all isBuildIdentifier
  | _ => false

/-- The optional pre-release part and what follows it. -/
def acceptsSuffix : List Char → Bool
  | '-' :: rest =>
    (Text.segments '.' (rest.takeWhile (· != '+'))).all isPreReleaseIdentifier &&
      acceptsBuild (rest.dropWhile (· != '+'))
  | rest => acceptsBuild rest

/-- Whether a text is a semantic version. -/
def acceptsChars (text : List Char) : Bool :=
  match numberRest? text >>= dotRest? >>= numberRest? >>= dotRest? >>= numberRest? with
  | some rest => acceptsSuffix rest
  | none => false

/-- Whether a string is a semantic version. -/
def accepts (text : String) : Bool :=
  acceptsChars text.toList

end Version

/-- A semantic version, kept as its one written form. -/
structure Version where
  text : String
  accepted : Version.accepts text = true
  deriving DecidableEq

namespace Version

/-- Reads a version. -/
def parse? (text : String) : Option Version :=
  if h : accepts text = true then some ⟨text, h⟩ else none

@[simp] theorem parse?_text (v : Version) : parse? v.text = some v := by
  simp [parse?, v.accepted]

end Version

end PolicyText
