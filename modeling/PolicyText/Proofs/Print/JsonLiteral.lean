import PolicyText.Proofs.Json.Printed
import PolicyText.Proofs.Print.Literal

/-!
# JSON literals

Objects and arrays are written as literals by their compact text.  Between backticks it is read
verbatim, if it has none itself, and what is read back is the value (`parse_jsonLiteral`).  The
keyword for arrays refuses an object, and the keyword for objects an array.
-/

namespace PolicyText

open Json

lemma read_compactString {d : Json} (hTree : d.IsTree) (hIntegral : d.integral = true)
    (hNesting : d.nesting ≤ 127) : parse d.compactString.toList = .ok d := by
  rw [compactString, String.toList_ofList]
  exact parse_compact hTree hIntegral (Nat.lt_succ_of_le hNesting)

/-- **JSON literals survive the text form.**  Let an object or an array be built from null values,
truth values, strings and integers from -2⁶³ to 2⁶⁴ - 1, let its objects have their fields in the
order of the names, each of which occurs once, let it have at most 127 levels of nesting, and let
there be no backtick in its compact text.  This text between backticks is read as a static variable
whose value is the object or the array; and behind the keyword for the other kind of value it is an
invalid literal. -/
theorem parse_jsonLiteral {d : Json} (hTree : d.IsTree) (hIntegral : d.integral = true)
    (hNesting : d.nesting ≤ 127) (hBacktick : '\x60' ∉ d.compact) :
    (∀ fields, d = .object fields →
      Variable.parse {} ("#obj(\x60" ++ d.compactString ++ "\x60)")
          = .ok (.static { value := .object fields }) ∧
        Variable.parse {} ("#arr(\x60" ++ d.compactString ++ "\x60)")
          = .error (.invalidLiteral "#arr" d.compactString "expected a JSON array")) ∧
      ∀ items, d = .array items →
        Variable.parse {} ("#arr(\x60" ++ d.compactString ++ "\x60)")
            = .ok (.static { value := .array items }) ∧
          Variable.parse {} ("#obj(\x60" ++ d.compactString ++ "\x60)")
            = .error (.invalidLiteral "#obj" d.compactString "expected a JSON object") := by
  have hRead := read_compactString hTree hIntegral hNesting
  have hRaw : '\x60' ∉ d.compactString.toList := by
    rwa [compactString, String.toList_ofList]
  have hObject : Variable.parse {} ("#obj(\x60" ++ d.compactString ++ "\x60)")
      = Variable.ofLiteral .object d.compactString :=
    Variable.parse_backticks hRaw .object
  have hArray : Variable.parse {} ("#arr(\x60" ++ d.compactString ++ "\x60)")
      = Variable.ofLiteral .array d.compactString :=
    Variable.parse_backticks hRaw .array
  rw [hObject, hArray]
  constructor
  · rintro fields rfl
    constructor
    · simp only [Variable.ofLiteral, StaticValue.read, readObject, hRead]
    · simp only [Variable.ofLiteral, StaticValue.read, readArray, hRead]
      rfl
  · rintro items rfl
    constructor
    · simp only [Variable.ofLiteral, StaticValue.read, readArray, hRead]
    · simp only [Variable.ofLiteral, StaticValue.read, readObject, hRead]
      rfl

/-- Fields with escapes in a name and in a string, both ends of the integers, and empty arrays and
objects. -/
def escapedFields : List (String × Json) :=
  [("", .array [.int (-2 ^ 63), .int (2 ^ 64 - 1), .int 0, .null, .bool true]),
    ("\"\\", .string "\x01\n\t é😀\x7f"), ("empty", .array [.array [], .object []])]

/-- An object and an array around it survive the text form. -/
theorem parse_jsonLiteral_escaped :
    Variable.parse {} ("#obj(\x60" ++ (Json.object escapedFields).compactString ++ "\x60)")
        = .ok (.static { value := .object escapedFields }) ∧
      Variable.parse {}
          ("#arr(\x60" ++ (Json.array [.object escapedFields]).compactString ++ "\x60)")
        = .ok (.static { value := .array [.object escapedFields] }) :=
  ⟨((parse_jsonLiteral (d := .object escapedFields) (by decide +kernel) rfl (by decide)
      (by decide +kernel)).1 _ rfl).1,
    ((parse_jsonLiteral (d := .array [.object escapedFields]) (by decide +kernel) rfl (by decide)
      (by decide +kernel)).2 _ rfl).1⟩

end PolicyText
