import PolicyText.Document.Record

/-!
# Limits

A text can be refused because it is longer, or its commands more deeply nested, than a limit allows.
Without a limit everything is read.  In a document both limits always stand, and no other field may.
-/

namespace PolicyText

/-- The limits for reading a text. -/
structure Limits where
  maxDepth : Option Nat := none
  maxInputLength : Option Nat := none
  deriving DecidableEq, Repr

namespace Limits

/-- Limits, completed by others where they say nothing. -/
def orElse (limits others : Limits) : Limits :=
  { maxDepth := limits.maxDepth.or others.maxDepth
    maxInputLength := limits.maxInputLength.or others.maxInputLength }

/-- The document of a limit. -/
def limitDocument : Option Nat → Json
  | some n => .int n
  | none => .null

/-- The document of limits. -/
def document (limits : Limits) : Json :=
  .object
    [("max_depth", limitDocument limits.maxDepth),
      ("max_input_len", limitDocument limits.maxInputLength)]

/-- Reads a limit, a natural number of 64 bits. -/
def limitOfDocument? (document : Json) : Option Nat :=
  (document.integer? .nat64).map fun n => n.value.toNat

/-- Whether a document has no field but the limits. -/
def hasKnownFields : Json → Bool
  | .object fields =>
    fields.all fun field => field.1 == "max_depth" || field.1 == "max_input_len"
  | _ => true

/-- Reads the document of limits. -/
def ofDocument? (document : Json) : Option Limits := do
  let record ← Record.ofDocument? 2 document
  if !hasKnownFields document then none
  else
    let maxDepth ← record.optional? 0 "max_depth" limitOfDocument?
    let maxInputLength ← record.optional? 1 "max_input_len" limitOfDocument?
    some { maxDepth := maxDepth, maxInputLength := maxInputLength }

end Limits

end PolicyText
