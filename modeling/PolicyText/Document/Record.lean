import PolicyText.Json.Basic
import PolicyText.Literal
import PolicyText.Text.Integer

/-!
# Reading the parts of documents

A structure is read from an object, whose fields are found by name, or from an array, whose items
are the fields in the order of their declaration (`Record`).  A field can be required or optional;
an optional one may be absent or null.  Fields that nobody asks for are passed over.

Reading a nested type goes from a document to the values of its fields, which are smaller
(`sizeOf_lookup_lt`, `Record.sizeOf_value?_lt`).
-/

namespace PolicyText

/-- A JSON string. -/
def Json.string? : Json → Option String
  | .string s => some s
  | _ => none

/-- A JSON truth value. -/
def Json.bool? : Json → Option Bool
  | .bool b => some b
  | _ => none

/-- A JSON integer of a given range. -/
def Json.integer? (range : Text.IntegerRange) : Json → Option (Text.Bounded range)
  | .number (.integer n) => Text.Bounded.ofInt? range n
  | _ => none

/-- An array whose items are all read in the same way. -/
def Json.list? {α : Type} (item? : Json → Option α) : Json → Option (List α)
  | .array items => items.mapM item?
  | _ => none

/-- A word, written as a string or as the only name of an object with the null value. -/
def Json.literal? {α : Type} [Literal α] : Json → Option α
  | .string word => Literal.ofLiteral? word
  | .object [(word, .null)] => Literal.ofLiteral? word
  | _ => none

/-- A value that may be absent or null. -/
def Json.optional? {α : Type} (read? : Json → Option α) : Option Json → Option (Option α)
  | none => some none
  | some .null => some none
  | some value => (read? value).map some

theorem sizeOf_lookup_lt {name : String} {fields : List (String × Json)} {value : Json}
    (h : fields.lookup name = some value) : sizeOf value < sizeOf fields := by
  induction fields with
  | nil => simp at h
  | cons field rest ih =>
    obtain ⟨other, found⟩ := field
    simp only [List.lookup_cons] at h
    split at h
    · cases h
      simp
      omega
    · have := ih h
      simp
      omega

/-- The fields of a structure, by name or by their places. -/
inductive Record where
  | named (fields : List (String × Json))
  | positional (items : List Json)

namespace Record

/-- The structure of `count` fields that a document holds. -/
def ofDocument? (count : Nat) : Json → Option Record
  | .object fields => some (.named fields)
  | .array items => if items.length ≤ count then some (.positional items) else none
  | _ => none

/-- The value of the field with a given place and name. -/
def value? (place : Nat) (name : String) : Record → Option Json
  | .named fields => fields.lookup name
  | .positional items => items[place]?

/-- Reads a required field. -/
def required? {α : Type} (place : Nat) (name : String) (read? : Json → Option α)
    (record : Record) : Option α :=
  record.value? place name >>= read?

/-- Reads an optional field. -/
def optional? {α : Type} (place : Nat) (name : String) (read? : Json → Option α)
    (record : Record) : Option (Option α) :=
  Json.optional? read? (record.value? place name)

theorem sizeOf_value?_lt {document value : Json} {record : Record} {count place : Nat}
    {name : String} (h : ofDocument? count document = some record)
    (hv : record.value? place name = some value) : sizeOf value < sizeOf document := by
  cases document with
  | object fields =>
    cases h
    have := sizeOf_lookup_lt hv
    simp
    omega
  | array items =>
    simp only [ofDocument?] at h
    split at h
    · cases h
      have := List.sizeOf_lt_of_mem (List.mem_of_getElem? hv)
      simp
      omega
    · cases h
  | _ => cases h

end Record

end PolicyText
