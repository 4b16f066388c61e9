/-!
# Types whose values are words

The values of many small types are written as fixed words, in expressions and in documents alike.
`Literal` gives such a type the list of its values and their words; a word is read by looking it up
(`Literal.ofLiteral?`), and every word reads back as its own value (`Literal.ofLiteral?_literal`).
-/

namespace PolicyText

/-- A type whose values are written as words, no two of them alike. -/
class Literal (α : Type) where
  all : List α
  literal : α → String
  find_literal : ∀ a, all.find? (fun b => literal b == literal a) = some a

namespace Literal

variable {α : Type} [Literal α]

/-- The value with a given word. -/
def ofLiteral? (word : String) : Option α :=
  (all : List α).find? fun a => literal a == word

@[simp] theorem ofLiteral?_literal (a : α) : ofLiteral? (literal a) = some a :=
  find_literal a

theorem literal_of_ofLiteral? {word : String} {a : α} (h : ofLiteral? word = some a) :
    literal a = word := by
  simpa using List.find?_some h

end Literal

end PolicyText
