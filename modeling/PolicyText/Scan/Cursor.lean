import PolicyText.Text.Blank

/-!
# Characters and cursors

A character of an expression belongs to one of six classes.  Fillers, which are white space and all
that has no meaning of its own, are passed over between tokens.

A `Cursor` is a place in a text: what is left of the text from there on, and the number of
characters before it.  The scanners take a cursor and give one that has less left; the length lemmas
say so.
-/

namespace PolicyText

/-- The classes of characters. -/
inductive CharClass where
  | sigil
  | opening
  | closing
  | delimiter
  | filler
  | content
  deriving DecidableEq, Repr

/-- The punctuation with which a token of content can begin. -/
def contentPunctuation : List Char :=
  ['(', ')', '[', ']', '\x7b', '\x7d', ',', '.', '-', '+', '*', '/', '=', '$', '#', '\x60', '\x22',
    '_']

/-- The class of a character. -/
def CharClass.of (c : Char) : CharClass :=
  if c = '#' ∨ c = '*' then .sigil
  else if c = '(' then .opening
  else if c = ')' then .closing
  else if c = ',' then .delimiter
  else if c.isAlphanum ∨ c ∈ contentPunctuation then .content
  else .filler

/-- Whether a character is passed over between tokens. -/
def isFiller (c : Char) : Bool :=
  CharClass.of c == .filler

/-- A place in a text. -/
structure Cursor where
  position : Nat
  rest : List Char
  deriving DecidableEq, Repr

namespace Cursor

/-- The beginning of a text. -/
def start (text : List Char) : Cursor :=
  ⟨0, text⟩

/-- The place that lies a number of characters further on. -/
def advance (n : Nat) (c : Cursor) : Cursor :=
  ⟨c.position + n, c.rest.drop n⟩

/-- The next place at which a character does not satisfy `p`. -/
def skipWhile (p : Char → Bool) (c : Cursor) : Cursor :=
  ⟨c.position + (c.rest.takeWhile p).length, c.rest.dropWhile p⟩

/-- The next place at which a token can begin. -/
def skipFiller (c : Cursor) : Cursor :=
  c.skipWhile isFiller

@[simp] theorem length_rest_advance (n : Nat) (c : Cursor) :
    (c.advance n).rest.length = c.rest.length - n := by
  simp [advance]

theorem length_rest_advance_le (n : Nat) (c : Cursor) :
    (c.advance n).rest.length ≤ c.rest.length := by
  rw [length_rest_advance]
  exact Nat.sub_le _ _

theorem length_rest_advance_lt {c : Cursor} {d : Char} {tail : List Char}
    (h : c.rest = d :: tail) : (c.advance 1).rest.length < c.rest.length := by
  rw [length_rest_advance, h, List.length_cons]
  exact Nat.lt_succ_self _

theorem length_rest_skipWhile_le (p : Char → Bool) (c : Cursor) :
    (c.skipWhile p).rest.length ≤ c.rest.length :=
  Text.length_dropWhile_le p c.rest

theorem length_rest_skipFiller_le (c : Cursor) : c.skipFiller.rest.length ≤ c.rest.length :=
  length_rest_skipWhile_le isFiller c

end Cursor

end PolicyText
