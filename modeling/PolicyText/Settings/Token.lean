import PolicyText.Text.Integer
import PolicyText.Text.Segments

/-!
# Tokens of a settings file

A settings file is a text in the TOML notation.  It is read character by character: every character
takes the state of the reader (`Lexer`) to the next one or is refused (`Lexer.step`).  Spaces and
comments leave no token.

`settingsLines` gives the lines of a file as lists of tokens.  A line end between the brackets of a
list ends no line.
-/

namespace PolicyText.Settings

/-- What the lines of a settings file are made of: words, which are bare names or numbers, names in
quotes, punctuation marks and line ends. -/
inductive Token where
  | word (text : List Char)
  | quoted (text : List Char)
  | mark (c : Char)
  | lineEnd
  deriving DecidableEq, Repr

/-- Whether a character can stand in a word. -/
def isWordChar (c : Char) : Bool :=
  c.isAlphanum || c == '_' || c == '-' || c == '+'

/-- Whether a character can stand in a comment or between quotes: no control character but the
tabulator. -/
def isPrintable (c : Char) : Bool :=
  c == '\t' || (32 ≤ c.toNat && c.toNat != 127)

/-- The punctuation marks. -/
def marks : List Char :=
  ['=', '.', ',', '[', ']', '\x7b', '\x7d']

/-- The character for which a letter stands behind a backslash. -/
def escaped? : Char → Option Char
  | 'b' => some '\x08'
  | 't' => some '\t'
  | 'n' => some '\n'
  | 'f' => some '\x0c'
  | 'r' => some '\r'
  | '\x22' => some '\x22'
  | '\\' => some '\\'
  | _ => none

/-- What the next character belongs to. -/
inductive Mode where
  | plain
  | carriageReturn
  | comment
  | word (text : List Char)
  /-- Between single quotes, where every character stands for itself. -/
  | literal (text : List Char)
  /-- Between double quotes, where a backslash begins an escape. -/
  | basic (text : List Char)
  | escape (text : List Char)
  /-- Inside the hexadecimal code of a character, some digits of which are missing. -/
  | code (text : List Char) (missing value : Nat)
  deriving DecidableEq, Repr

/-- The tokens that have been completed and the mode for the next character. -/
structure Lexer where
  tokens : List Token := []
  mode : Mode := .plain
  deriving DecidableEq, Repr

namespace Lexer

/-- The state behind a token. -/
def push (tokens : List Token) (token : Token) : Lexer :=
  { tokens := tokens ++ [token] }

/-- Reads a character that stands outside words, quotes and comments. -/
def stepPlain (tokens : List Token) (c : Char) : Option Lexer :=
  if c = ' ' ∨ c = '\t' then some ⟨tokens, .plain⟩
  else if c = '\n' then some (push tokens .lineEnd)
  else if c = '\r' then some ⟨tokens, .carriageReturn⟩
  else if c = '#' then some ⟨tokens, .comment⟩
  else if c = '\x27' then some ⟨tokens, .literal []⟩
  else if c = '\x22' then some ⟨tokens, .basic []⟩
  else if c ∈ marks then some (push tokens (.mark c))
  else if isWordChar c then some ⟨tokens, .word [c]⟩
  else none

/-- Reads a digit of the code of a character. -/
def stepCode (tokens : List Token) (text : List Char) (missing value : Nat) (c : Char) :
    Option Lexer :=
  match Text.hexDigitValue? c with
  | none => none
  | some d =>
    if 1 < missing then some ⟨tokens, .code text (missing - 1) (value * 16 + d)⟩
    else if Nat.isValidChar (value * 16 + d) then
      some ⟨tokens, .basic (text ++ [Char.ofNat (value * 16 + d)])⟩
    else none

/-- Reads a character. -/
def step (lexer : Lexer) (c : Char) : Option Lexer :=
  match lexer.mode with
  | .plain => stepPlain lexer.tokens c
  | .carriageReturn => if c = '\n' then some (push lexer.tokens .lineEnd) else none
  | .comment =>
    if isPrintable c then some lexer else stepPlain lexer.tokens c
  | .word text =>
    if isWordChar c then some ⟨lexer.tokens, .word (text ++ [c])⟩
    else stepPlain (lexer.tokens ++ [.word text]) c
  | .literal text =>
    if c = '\x27' then some (push lexer.tokens (.quoted text))
    else if isPrintable c then some ⟨lexer.tokens, .literal (text ++ [c])⟩
    else none
  | .basic text =>
    if c = '\x22' then some (push lexer.tokens (.quoted text))
    else if c = '\\' then some ⟨lexer.tokens, .escape text⟩
    else if isPrintable c then some ⟨lexer.tokens, .basic (text ++ [c])⟩
    else none
  | .escape text =>
    if c = 'u' then some ⟨lexer.tokens, .code text 4 0⟩
    else if c = 'U' then some ⟨lexer.tokens, .code text 8 0⟩
    else (escaped? c).map fun d => ⟨lexer.tokens, .basic (text ++ [d])⟩
  | .code text missing value => stepCode lexer.tokens text missing value c

/-- The tokens of a text that ends here. -/
def finish (lexer : Lexer) : Option (List Token) :=
  match lexer.mode with
  | .plain | .comment => some lexer.tokens
  | .word text => some (lexer.tokens ++ [.word text])
  | .carriageReturn | .literal _ | .basic _ | .escape _ | .code .. => none

end Lexer

/-- The tokens of a text. -/
def tokens? (text : List Char) : Option (List Token) :=
  text.foldlM Lexer.step {} >>= Lexer.finish

/-- The tokens without the line ends between the brackets of a list, which opens behind an equals
sign. -/
def joinLists (inList : Bool) : List Token → List Token
  | [] => []
  | .mark '=' :: .mark '[' :: rest => .mark '=' :: .mark '[' :: joinLists true rest
  | .mark ']' :: rest => .mark ']' :: joinLists false rest
  | .lineEnd :: rest =>
    if inList then joinLists inList rest else .lineEnd :: joinLists inList rest
  | token :: rest => token :: joinLists inList rest

/-- The text without a byte order mark. -/
def dropByteOrderMark : List Char → List Char
  | '\ufeff' :: rest => rest
  | text => text

/-- The lines of a settings file. -/
def settingsLines? (text : List Char) : Option (List (List Token)) :=
  (tokens? (dropByteOrderMark text)).map fun tokens =>
    Text.segments .lineEnd (joinLists false tokens)

end PolicyText.Settings
