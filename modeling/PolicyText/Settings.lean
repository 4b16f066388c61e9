import PolicyText.Limits
import PolicyText.Settings.Token

/-!
# Settings files

A settings file holds limits in the TOML notation.  They stand in the table `parser`, which can be
written with a header, with dotted names, as an inline table, or as the list of its values:

* `[parser]` and below it `max_depth = 64`,
* `parser.max_depth = 64`,
* `parser = { max_depth = 64 }`,
* `parser = [64]`.

Nothing else is a setting.  A limit is a natural number that fits a signed integer of 64 bits, and
is given at most once; so is the table, but for its dotted names.  `Limits.ofSettings?` reads a
file.
-/

namespace PolicyText.Settings

/-! ## Numbers -/

/-- Reads digits of a base, which underscores can separate. -/
def digits? (base : Nat) (text : List Char) : Option Nat :=
  let groups := Text.segments '_' text
  if groups.any List.isEmpty then none
  else
    (groups.flatten.mapM fun c => (Text.hexDigitValue? c).filter (· < base)).map fun digits =>
      digits.foldl (fun total digit => total * base + digit) 0

/-- Reads decimal digits without a leading zero. -/
def decimal? (text : List Char) : Option Nat :=
  if text.head? = some '0' ∧ text ≠ ['0'] then none else digits? 10 text

/-- Reads an integer: a decimal one with an optional sign, or one of another base without. -/
def integer? : List Char → Option Int
  | '0' :: 'x' :: rest => (digits? 16 rest).map Int.ofNat
  | '0' :: 'o' :: rest => (digits? 8 rest).map Int.ofNat
  | '0' :: 'b' :: rest => (digits? 2 rest).map Int.ofNat
  | '+' :: rest => (decimal? rest).map Int.ofNat
  | '-' :: rest => (decimal? rest).map fun n => -Int.ofNat n
  | text => (decimal? text).map Int.ofNat

/-- Reads an integer of 64 bits. -/
def integer64? (text : List Char) : Option Text.Integer64 :=
  integer? text >>= Text.Bounded.ofInt? .int64

/-! ## Lines -/

/-- How the table of limits has been written. -/
inductive Opening where
  | header
  | dotted
  | value
  deriving DecidableEq, Repr

/-- The limits that have been read, and how their table has been written so far. -/
structure Draft where
  limits : Limits := {}
  opening : Option Opening := none
  deriving DecidableEq, Repr

/-- The name that a token is. -/
def Token.name? : Token → Option String
  | .word text => if text.contains '+' then none else some (String.ofList text)
  | .quoted text => some (String.ofList text)
  | .mark _ | .lineEnd => none

/-- The name of the table of limits. -/
def tableName : String := "parser"

/-- Sets a limit that has not been set. -/
def setLimit (limits : Limits) (name : String) (n : Text.Integer64) : Option Limits :=
  if n.value < 0 then none
  else if name = "max_depth" ∧ limits.maxDepth = none then
    some { limits with maxDepth := some n.value.toNat }
  else if name = "max_input_len" ∧ limits.maxInputLength = none then
    some { limits with maxInputLength := some n.value.toNat }
  else none

/-- Reads a limit from the tokens of its name and value. -/
def readLimit (limits : Limits) (key : Token) (number : List Char) : Option Limits := do
  let name ← key.name?
  let n ← integer64? number
  setLimit limits name n

/-- Reads the entries of an inline table, which is not empty, up to its end. -/
def readEntries (limits : Limits) : List Token → Option Limits
  | [key, .mark '=', .word number, .mark '\x7d'] => readLimit limits key number
  | key :: .mark '=' :: .word number :: .mark ',' :: rest => do
    let limits ← readLimit limits key number
    readEntries limits rest
  | _ => none

/-- Reads the numbers of a list up to its end. -/
def readNumbers : List Token → Option (List Text.Integer64)
  | [.mark ']'] => some []
  | [.word number, .mark ']'] => (integer64? number).map fun n => [n]
  | .word number :: .mark ',' :: rest => do
    let n ← integer64? number
    let others ← readNumbers rest
    some (n :: others)
  | _ => none

/-- The limits that a list of values gives; the values behind the last limit have no meaning. -/
def limitsOfNumbers : List Text.Integer64 → Option Limits
  | [] => some {}
  | [depth] => setLimit {} "max_depth" depth
  | depth :: length :: _ => do
    let limits ← setLimit {} "max_depth" depth
    setLimit limits "max_input_len" length

/-- Reads the value of the table of limits. -/
def readTable : List Token → Option Limits
  | [.mark '\x7b', .mark '\x7d'] => some {}
  | .mark '\x7b' :: entries => readEntries {} entries
  | .mark '[' :: items => readNumbers items >>= limitsOfNumbers
  | _ => none

/-- Reads a line that is not empty. -/
def Draft.readAssignment (draft : Draft) : List Token → Option Draft
  | [.mark '[', key, .mark ']'] =>
    if key.name? = some tableName ∧ draft.opening = none then
      some { draft with opening := some .header }
    else none
  | [table, .mark '.', key, .mark '=', .word number] =>
    if table.name? = some tableName ∧
        (draft.opening = none ∨ draft.opening = some .dotted) then
      (readLimit draft.limits key number).map fun limits => ⟨limits, some .dotted⟩
    else none
  | key :: .mark '=' :: value =>
    match draft.opening, value with
    | some .header, [.word number] =>
      (readLimit draft.limits key number).map fun limits => ⟨limits, some .header⟩
    | none, table =>
      if key.name? = some tableName then
        (readTable table).map fun limits => ⟨limits, some .value⟩
      else none
    | _, _ => none
  | _ => none

/-- Reads a line. -/
def Draft.readLine (draft : Draft) (line : List Token) : Option Draft :=
  if line.isEmpty then some draft else draft.readAssignment line

end PolicyText.Settings

namespace PolicyText

/-- Reads the limits of a settings file. -/
def Limits.ofSettings? (text : String) : Option Limits := do
  let lines ← Settings.settingsLines? text.toList
  let draft ← lines.foldlM Settings.Draft.readLine {}
  some draft.limits

end PolicyText
