/-!
# Byte offsets

Some positions are counted in bytes of the UTF-8 form of a text rather than in characters.
`utf8` is that form, and `lineAndColumn` turns a byte offset into a line, counted from one, and
the number of bytes between the start of that line and the offset.
-/

namespace PolicyText.Text

/-- The UTF-8 form of a text. -/
def utf8 (text : List Char) : List UInt8 :=
  text.flatMap String.utf8EncodeChar

/-- The number of bytes of a text. -/
def utf8Length (text : List Char) : Nat :=
  text.foldl (fun total c => total + c.utf8Size) 0

/-- The line of a byte offset, counted from one, and the bytes before it in that line. -/
def lineAndColumn (text : List Char) (offset : Nat) : Nat × Nat :=
  let before := (utf8 text).take offset
  (1 + before.count 10, (before.reverse.takeWhile (· != 10)).length)

end PolicyText.Text
