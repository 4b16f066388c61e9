import PolicyText.Binary.Shortest
import PolicyText.Json.Basic

/-!
# Writing JSON

`Json.compact` writes a value without any white space; `Json.pretty` puts every item and field on
a line of its own, indented by two spaces for each level, and leaves empty arrays and objects on one
line.  In strings the quote, the backslash and the control characters below U+0020 are escaped, the
latter by their short forms where there is one and else by four hexadecimal digits in lower case;
every other character stands for itself.
-/

namespace PolicyText.Json

/-- A hexadecimal digit in lower case. -/
def hexDigit (n : Nat) : Char :=
  if n < 10 then Char.ofNat (n + 48) else Char.ofNat (n + 87)

/-- A character as it stands inside a string. -/
def escapeChar (c : Char) : List Char :=
  if c = '\x22' then ['\\', '\x22']
  else if c = '\\' then ['\\', '\\']
  else if c.toNat = 8 then ['\\', 'b']
  else if c.toNat = 9 then ['\\', 't']
  else if c.toNat = 10 then ['\\', 'n']
  else if c.toNat = 12 then ['\\', 'f']
  else if c.toNat = 13 then ['\\', 'r']
  else if c.toNat < 32 then
    ['\\', 'u', '0', '0', hexDigit (c.toNat / 16), hexDigit (c.toNat % 16)]
  else [c]

/-- A string in quotes. -/
def quoted (s : String) : List Char :=
  '\x22' :: s.toList.flatMap escapeChar ++ ['\x22']

/-- The text of a number. -/
def numberText : JsonNumber → List Char
  | .integer n => Text.integerText n
  | .double x => x.jsonText
  | .single x => x.jsonText

/-- The word for a truth value. -/
def boolText : Bool → List Char
  | true => ['t', 'r', 'u', 'e']
  | false => ['f', 'a', 'l', 's', 'e']

/-- The word for the null value. -/
def nullText : List Char :=
  ['n', 'u', 'l', 'l']

mutual

/-- A value without white space. -/
def compact : Json → List Char
  | .null => nullText
  | .bool b => boolText b
  | .number n => numberText n
  | .string s => quoted s
  | .array items => '[' :: compactItems items ++ [']']
  | .object fields => '\x7b' :: compactFields fields ++ ['\x7d']

/-- The items of an array with commas between them. -/
def compactItems : List Json → List Char
  | [] => []
  | [item] => compact item
  | item :: rest => compact item ++ ',' :: compactItems rest

/-- The fields of an object with commas between them. -/
def compactFields : List (String × Json) → List Char
  | [] => []
  | [(name, value)] => quoted name ++ ':' :: compact value
  | (name, value) :: rest => quoted name ++ ':' :: compact value ++ ',' :: compactFields rest

end

/-- The end of a line and the indentation of the next one. -/
def newline (level : Nat) : List Char :=
  '\n' :: List.replicate (2 * level) ' '

mutual

/-- A value over several lines, at a level of indentation. -/
def prettyAt (level : Nat) : Json → List Char
  | .null => nullText
  | .bool b => boolText b
  | .number n => numberText n
  | .string s => quoted s
  | .array [] => ['[', ']']
  | .array (item :: rest) =>
    '[' :: prettyItems (level + 1) (item :: rest) ++ newline level ++ [']']
  | .object [] => ['\x7b', '\x7d']
  | .object (field :: rest) =>
    '\x7b' :: prettyFields (level + 1) (field :: rest) ++ newline level ++ ['\x7d']

/-- The items of an array, each on a line of its own. -/
def prettyItems (level : Nat) : List Json → List Char
  | [] => []
  | [item] => newline level ++ prettyAt level item
  | item :: rest => newline level ++ prettyAt level item ++ ',' :: prettyItems level rest

/-- The fields of an object, each on a line of its own. -/
def prettyFields (level : Nat) : List (String × Json) → List Char
  | [] => []
  | [(name, value)] =>
    newline level ++ quoted name ++ [':', ' '] ++ prettyAt level value
  | (name, value) :: rest =>
    newline level ++ quoted name ++ [':', ' '] ++ prettyAt level value ++
      ',' :: prettyFields level rest

end

/-- A value over several lines. -/
def pretty (value : Json) : List Char :=
  prettyAt 0 value

/-- The compact text of a value as a string. -/
def compactString (value : Json) : String :=
  String.ofList value.compact

/-- The text of a value over several lines as a string. -/
def prettyString (value : Json) : String :=
  String.ofList value.pretty

end PolicyText.Json
