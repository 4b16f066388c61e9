import PolicyText.Literal
import PolicyText.Version

/-!
# Identity and references

Every named entity carries `Metadata`, whose four fields are all optional.  An entity that is
defined elsewhere is pointed at by an `EntityRef`; a `Reference` says moreover what kind of entity
it points at, and a `Slot` is the place in an entity where another entity stands, either inline or
by reference.
-/

namespace PolicyText

/-- Identity data of a named entity.  An entity without an id can only be used inline. -/
structure Metadata where
  id : Option String := none
  version : Option Version := none
  description : Option String := none
  labels : Option (List String) := none
  deriving DecidableEq

namespace Metadata

/-- Metadata that says nothing. -/
def empty : Metadata := {}

/-- Whether no field is given. -/
def isEmpty (m : Metadata) : Bool :=
  m.id.isNone && m.version.isNone && m.description.isNone && m.labels.isNone

end Metadata

/-- A pointer to an entity that is defined elsewhere.  A missing version means the latest one. -/
structure EntityRef where
  id : String
  version : Option Version := none
  deriving DecidableEq

/-- The kinds of entity that can be referred to. -/
inductive ReferenceKind where
  | variable
  | resolver
  | condition
  | policy
  | action
  deriving DecidableEq, Repr

instance : Literal ReferenceKind where
  all := [.variable, .resolver, .condition, .policy, .action]
  literal
    | .variable => "variable"
    | .resolver => "resolver"
    | .condition => "condition"
    | .policy => "policy"
    | .action => "action"
  find_literal kind := by cases kind <;> decide

/-- How a reference of a kind is called in messages. -/
def ReferenceKind.description (kind : ReferenceKind) : String :=
  Literal.literal kind ++ " reference"

/-- A pointer together with the kind of entity it points at. -/
structure Reference where
  kind : ReferenceKind
  target : EntityRef
  deriving DecidableEq

/-- A place that holds an entity of type `α`, inline or by reference. -/
inductive Slot (α : Type) where
  | value (entity : α)
  | ref (target : EntityRef)
  deriving DecidableEq

end PolicyText
