import PolicyText.Literal

/-!
# Kinds of entities

Every command stands for an entity of one of fifteen kinds.  The five categories group the kinds
that can be asked for as a whole: a caller wants a variable, a resolver, a condition, an action or a
policy.
-/

namespace PolicyText

/-- What a command stands for. -/
inductive EntityKind where
  | staticVariable
  | dynamicVariable
  | resolver
  | atomicCondition
  | compositeCondition
  | constantCondition
  | basicPolicy
  | policySet
  | defaultPolicy
  | action
  | reference
  | options
  | constraint
  | actionLink
  | member
  deriving DecidableEq, Repr

instance : Literal EntityKind where
  all :=
    [.staticVariable, .dynamicVariable, .resolver, .atomicCondition, .compositeCondition,
      .constantCondition, .basicPolicy, .policySet, .defaultPolicy, .action, .reference, .options,
      .constraint, .actionLink, .member]
  literal
    | .staticVariable => "static variable"
    | .dynamicVariable => "dynamic variable"
    | .resolver => "value resolver"
    | .atomicCondition => "atomic condition"
    | .compositeCondition => "composite condition"
    | .constantCondition => "default condition"
    | .basicPolicy => "policy"
    | .policySet => "policy set"
    | .defaultPolicy => "default policy"
    | .action => "policy action"
    | .reference => "reference"
    | .options => "options"
    | .constraint => "constraint"
    | .actionLink => "action relationship"
    | .member => "policy relationship"
  find_literal kind := by cases kind <;> decide

/-- A family of entities that a text can be read as. -/
inductive Category where
  | variable
  | resolver
  | condition
  | action
  | policy
  deriving DecidableEq, Repr

namespace Category

/-- Whether a kind belongs to a category. -/
def accepts : Category → EntityKind → Bool
  | .variable, .staticVariable => true
  | .variable, .dynamicVariable => true
  | .resolver, .resolver => true
  | .condition, .atomicCondition => true
  | .condition, .compositeCondition => true
  | .condition, .constantCondition => true
  | .action, .action => true
  | .policy, .basicPolicy => true
  | .policy, .policySet => true
  | .policy, .defaultPolicy => true
  | _, _ => false

/-- What is expected when a category is asked for. -/
def description : Category → String
  | .variable => "a variable"
  | .resolver => "a value resolver"
  | .condition => "a condition"
  | .action => "a policy action"
  | .policy => "a policy"

end Category

end PolicyText
