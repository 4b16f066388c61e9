import PolicyText.Grammar.Command
import PolicyText.ParseError

/-!
# What a reference means

The same text `#ref(id)` is a reference to a variable inside an operation and to a condition inside
a combination of conditions: only the command around it decides (`EntityKind.referenceKind?`).
-/

namespace PolicyText

/-- The kind of entity that a reference points at inside a command of a kind, if a reference can
stand there. -/
def EntityKind.referenceKind? : EntityKind → Option ReferenceKind
  | .atomicCondition | .action => some .variable
  | .dynamicVariable => some .resolver
  | .compositeCondition | .basicPolicy | .constraint => some .condition
  | .policySet | .member => some .policy
  | .actionLink => some .action
  | .staticVariable | .resolver | .constantCondition | .defaultPolicy | .reference | .options =>
    none

/-- Reads the version of a reference. -/
def readVersion (value : String) : Except ParseError Version :=
  match Version.parse? value with
  | some version => .ok version
  | none => .error (.invalidVersion value)

/-- The pointer that the entries of a reference make, an id and an optional version. -/
def entityRefOf : List String → Except ParseError EntityRef
  | [] => .ok { id := "" }
  | [id] => .ok { id := id }
  | id :: version :: _ =>
    match readVersion version with
    | .ok version => .ok { id := id, version := some version }
    | .error error => .error error

/-- What the entries of a reference mean inside a command. -/
def Command.resolveReference (parent : Command) (entries : List String) :
    Except ParseError Reference :=
  match entityRefOf entries with
  | .error error => .error error
  | .ok target =>
    match parent.kind.referenceKind? with
    | some kind => .ok ⟨kind, target⟩
    | none => .error (.unsupportedReference parent.keyword)

end PolicyText
