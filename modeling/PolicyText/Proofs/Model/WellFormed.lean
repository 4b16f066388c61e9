import PolicyText.Proofs.Model.Demands
import PolicyText.Proofs.Options.Values

/-!
# Well-formed entities

Not every entity that could be written down in the types of the model makes sense: a negation of two
conditions does not, nor does a format on the value of an integer.  `wellFormed` says what is
demanded of every part of an entity, and `Variable.Meets wellFormed` and its like demand it at every
depth.

`Variable.kind`, `Condition.kind` and `Policy.kind` are the kinds that the grammar has for entities.
-/

namespace PolicyText

/-- Well-formed identity data: texts are not empty, and labels are a list, not empty, of trimmed
texts without bars that are not empty either. -/
structure Metadata.WellFormed (m : Metadata) : Prop where
  id : ∀ text ∈ m.id, text ≠ ""
  description : ∀ text ∈ m.description, text ≠ ""
  labels : ∀ labels ∈ m.labels, WritableLabels labels

/-- A value is finite if it is a number of a binary format. -/
def StaticValue.IsFinite : StaticValue → Prop
  | .number x => x.isFinite = true
  | .float x => x.isFinite = true
  | _ => True

/-- An object or array that is a value stays as it is when the fields of objects are arranged. -/
def StaticValue.KeptBy (arrange : Json → Json) : StaticValue → Prop
  | .object fields => arrange (.object fields) = .object fields
  | .array items => arrange (.array items) = .array items
  | _ => True

/-- A value is a tree if objects in it have their fields in the order of their names and no name
twice. -/
def StaticValue.IsTree : StaticValue → Prop :=
  KeptBy Json.ordered

/-- The types whose values can have a format. -/
def ValueType.IsTemporal (type : ValueType) : Prop :=
  type = .date ∨ type = .dateTime ∨ type = .time

/-- A well-formed static variable: its value is finite and a tree, only dates and times have
formats, and only a string can be the text of a JSON value. -/
structure StaticVariable.WellFormed (v : StaticVariable) : Prop where
  finite : v.value.IsFinite
  tree : v.value.IsTree
  format : ∀ text ∈ v.format, text ≠ "" ∧ v.value.type.IsTemporal
  isJson : v.isJson ≠ none → v.value.type = .string

/-- A well-formed combination of conditions: there is a condition, a negation has exactly one, and a
choice of some conditions says how many. -/
structure CompositeWellFormed (logic : Logic) (conditions : List (Slot Condition))
    (settings : CompositeSettings) : Prop where
  ne_nil : conditions ≠ []
  not : logic = .not → conditions.length = 1
  nOf : logic = .nOf → settings.minimumConditions ≠ none

/-- What is demanded of the parts of a well-formed entity. -/
def wellFormed : Demands where
  metadata m := m.WellFormed
  staticVariable v := v.WellFormed
  resolver r := ∀ text ∈ r.key, text ≠ ""
  dynamicVariable v := v.resolvers ≠ [] ∧ ∀ text ∈ v.format, text ≠ ""
  atomic c := c.args.length = c.operation.arity
  composite logic conditions settings := CompositeWellFormed logic conditions settings
  actionLink link := ∀ modes ∈ link.executionMode, modes.toList ≠ []
  policySet members := members ≠ []

/-! ## Kinds -/

/-- The kind of a variable. -/
def Variable.kind : Variable → EntityKind
  | .static _ => .staticVariable
  | .dynamic _ => .dynamicVariable

/-- The kind of a condition. -/
def Condition.kind : Condition → EntityKind
  | .atomic _ => .atomicCondition
  | .composite .. => .compositeCondition
  | .constant _ => .constantCondition

/-- The kind of a policy. -/
def Policy.kind : Policy → EntityKind
  | .basic _ => .basicPolicy
  | .set .. => .policySet
  | .default _ => .defaultPolicy

end PolicyText
