import PolicyText.Json.Parser

/-!
# Documents as texts

A document comes as a JSON text.  A text that is no JSON value is malformed; a JSON value that is no
document of the wanted type does not fit, and neither does one that has two fields of one name.
Only inside the objects and arrays that are static values, which can be any JSON, a name may be
repeated, and then its last value counts.
-/

namespace PolicyText

/-- Why a text is no document of a type. -/
inductive DocumentFault where
  | malformed
  | unfit
  deriving DecidableEq, Repr

namespace Json

/-- Whether fields are those of a static value that can hold any JSON. -/
def isFreeForm (fields : List (String × Json)) : Bool :=
  match fields.lookup "type" with
  | some (.string word) => word == "OBJECT" || word == "ARRAY"
  | _ => false

/-- Whether a name stands twice in a list of fields. -/
def repeatsOwnName : List (String × Json) → Bool
  | [] => false
  | (name, _) :: rest => rest.any (fun field => field.1 == name) || repeatsOwnName rest

mutual

/-- Whether a name is repeated in one of the objects of a document. -/
def repeatsName : Json → Bool
  | .object fields => repeatsOwnName fields || fieldsRepeatName (isFreeForm fields) fields
  | .array items => itemsRepeatName items
  | .null | .bool _ | .number _ | .string _ => false

/-- Whether a name is repeated inside the items of an array. -/
def itemsRepeatName : List Json → Bool
  | [] => false
  | item :: rest => repeatsName item || itemsRepeatName rest

/-- Whether a name is repeated inside the values of fields, leaving out a value of any form. -/
def fieldsRepeatName (freeForm : Bool) : List (String × Json) → Bool
  | [] => false
  | (name, value) :: rest =>
    (!(freeForm && name == "value") && repeatsName value) || fieldsRepeatName freeForm rest

end

end Json

/-- Reads the text of a document. -/
def readDocument {α : Type} (ofDocument? : Json → Option α) (text : String) :
    Except DocumentFault α :=
  match Json.parseAsWritten text.toList with
  | .error _ => .error .malformed
  | .ok document =>
    if document.repeatsName then .error .unfit
    else
      match ofDocument? document.ordered with
      | some a => .ok a
      | none => .error .unfit

end PolicyText
