import PolicyText.Grammar.EntityKind
import PolicyText.Model.Policy

/-!
# Commands

A command is what a keyword stands for, `#int` or `*notNull`: it names the type of a static value,
the operation of a condition, the effect of an action and so on.  Each has a kind, the kinds that
its child commands can have, and bounds for the number of its arguments; `Command.all` lists the
seventy-two commands.

Keywords are matched with their case, and no keyword followed by an opening parenthesis begins
another one, so that a text begins with at most one command.
-/

namespace PolicyText

/-- What a keyword stands for. -/
inductive Command where
  | staticVariable (type : ValueType)
  | resolver (engine : Engine)
  | dynamicVariable
  | atomic (operation : Operation)
  | composite (logic : Logic)
  | constant (value : ConstantCondition)
  | basicPolicy (effect : TargetEffect)
  | defaultPolicy (decision : DefaultPolicy)
  | policySet (logic : CombinationLogic)
  | action (type : ActionType)
  | actionLink
  | member
  | constraint
  | reference
  | options
  deriving DecidableEq

namespace Command

/-- The keyword of a type of static values. -/
def valueKeyword : ValueType → String
  | .string => "#str"
  | .date => "#date"
  | .dateTime => "#dTime"
  | .time => "#time"
  | .period => "#per"
  | .duration => "#dur"
  | .int => "#int"
  | .long => "#long"
  | .number => "#num"
  | .float => "#float"
  | .bigDecimal => "#bigD"
  | .boolean => "#bool"
  | .object => "#obj"
  | .array => "#arr"

/-- The keyword of an operation. -/
def operationKeyword : Operation → String
  | .greaterThan => "*gt"
  | .greaterThanEqual => "*gte"
  | .lessThan => "*lt"
  | .lessThanEqual => "*lte"
  | .isNull => "*isNull"
  | .isNotNull => "*notNull"
  | .isEmpty => "*isEmpty"
  | .isNotEmpty => "*notEmpty"
  | .isBlank => "*isBlank"
  | .isNotBlank => "*notBlank"
  | .startsWith => "*sw"
  | .endsWith => "*ew"
  | .contains => "*contains"
  | .isIn => "*isIn"
  | .equals => "*eq"
  | .isPositive => "*pos"
  | .isNegative => "*neg"
  | .isZero => "*zero"
  | .isPastDate => "*past"
  | .isFutureDate => "*future"
  | .regexpMatch => "*regexp"
  | .hasKey => "*hasKey"
  | .isUnique => "*unique"
  | .schemaMatch => "*schema"

/-- The keyword of a way to combine conditions. -/
def logicKeyword : Logic → String
  | .and => "*all"
  | .or => "*any"
  | .not => "*not"
  | .nOf => "*nOf"

/-- The keyword of a fixed decision. -/
def decisionKeyword : DefaultPolicy → String
  | .permit => "#permit"
  | .deny => "#deny"
  | .notApplicable => "#NA"
  | .indeterminateDenyPermit => "#indDP"
  | .indeterminateDeny => "#indD"
  | .indeterminatePermit => "#indP"

/-- The keyword of a way to combine the decisions of policies. -/
def setKeyword : CombinationLogic → String
  | .denyOverrides => "*DOverrides"
  | .permitOverrides => "*POverrides"
  | .denyUnlessPermit => "*DUnlessP"
  | .permitUnlessDeny => "*PUnlessD"
  | .firstApplicable => "*firstAppl"
  | .onlyOneApplicable => "*onlyOneAppl"

/-- The keyword of a command. -/
def keyword : Command → String
  | .staticVariable type => valueKeyword type
  | .resolver .jsonPath => "*path"
  | .resolver .jq => "*jq"
  | .resolver .key => "*key"
  | .dynamicVariable => "*dyn"
  | .atomic operation => operationKeyword operation
  | .composite logic => logicKeyword logic
  | .constant .true => "#true"
  | .constant .false => "#false"
  | .constant .null => "#null"
  | .basicPolicy .permit => "*permit"
  | .basicPolicy .deny => "*deny"
  | .defaultPolicy decision => decisionKeyword decision
  | .policySet logic => setKeyword logic
  | .action .save => "*save"
  | .action .clear => "*clear"
  | .action .patch => "*patch"
  | .action .merge => "*merge"
  | .actionLink => "*act"
  | .member => "*pol"
  | .constraint => "*constraint"
  | .reference => "#ref"
  | .options => "#opts"

/-- All commands in the order of the grammar. -/
def all : List Command :=
  (Literal.all.map staticVariable) ++
    [.resolver .jsonPath, .resolver .jq, .resolver .key, .dynamicVariable] ++
    Literal.all.map atomic ++
    [.composite .or, .composite .and, .composite .not, .composite .nOf, .constant .true,
      .constant .false, .constant .null, .basicPolicy .permit, .basicPolicy .deny] ++
    Literal.all.map defaultPolicy ++
    Literal.all.map policySet ++
    [.action .save, .action .clear, .action .patch, .action .merge, .actionLink, .member,
      .constraint, .reference, .options]

/-- The command with a given keyword. -/
def ofKeyword? (word : List Char) : Option Command :=
  all.find? fun command => command.keyword.toList == word

/-- The commands of which the keyword is found in a word: the word begins with it, and does so also
if both are followed by a parenthesis, since `*not` is not to be found in `*notNull`. -/
def matching (word : List Char) : List Command :=
  all.filter fun command =>
    command.keyword.toList.isPrefixOf word &&
      (command.keyword.toList ++ ['(']).isPrefixOf (word ++ ['('])

/-- What a command stands for. -/
def kind : Command → EntityKind
  | .staticVariable _ => .staticVariable
  | .resolver _ => .resolver
  | .dynamicVariable => .dynamicVariable
  | .atomic _ => .atomicCondition
  | .composite _ => .compositeCondition
  | .constant _ => .constantCondition
  | .basicPolicy _ => .basicPolicy
  | .defaultPolicy _ => .defaultPolicy
  | .policySet _ => .policySet
  | .action _ => .action
  | .actionLink => .actionLink
  | .member => .member
  | .constraint => .constraint
  | .reference => .reference
  | .options => .options

/-- The kinds of the arguments that are variables. -/
def variableKinds : List EntityKind :=
  [.staticVariable, .dynamicVariable, .reference]

/-- The kinds of the arguments that are conditions. -/
def conditionKinds : List EntityKind :=
  [.atomicCondition, .compositeCondition, .constantCondition, .reference]

/-- The kinds that the child commands of a command can have. -/
def children : Command → List EntityKind
  | .dynamicVariable => [.resolver, .reference]
  | .atomic _ => variableKinds
  | .composite _ => conditionKinds
  | .basicPolicy _ =>
    [.atomicCondition, .compositeCondition, .constantCondition, .actionLink, .reference]
  | .policySet _ =>
    [.basicPolicy, .policySet, .defaultPolicy, .member, .actionLink, .reference]
  | .action .clear => []
  | .action _ => variableKinds
  | .actionLink => [.action, .reference]
  | .member => [.basicPolicy, .policySet, .defaultPolicy, .reference]
  | .constraint => conditionKinds
  | .staticVariable _ | .resolver _ | .constant _ | .defaultPolicy _ | .reference | .options => []

/-- Whether a command accepts a child command of a kind. -/
def accepts (parent : Command) (kind : EntityKind) : Bool :=
  parent.children.contains kind

/-- The number of arguments of the command of an operation. -/
def operandCount : Operation → Nat
  | .greaterThan | .greaterThanEqual | .lessThan | .lessThanEqual => 2
  | .isNull | .isNotNull | .isEmpty | .isNotEmpty | .isBlank | .isNotBlank => 1
  | .startsWith | .endsWith | .contains | .isIn | .equals => 2
  | .isPositive | .isNegative | .isZero | .isPastDate | .isFutureDate => 1
  | .regexpMatch | .hasKey => 2
  | .isUnique => 1
  | .schemaMatch => 2

/-- The least number of arguments. -/
def leastArguments : Command → Nat
  | .atomic operation => operandCount operation
  | .constant _ | .defaultPolicy _ | .options => 0
  | .action .save => 2
  | .action .patch | .action .merge => 3
  | _ => 1

/-- The greatest number of arguments, if there is one. -/
def mostArguments? : Command → Option Nat
  | .staticVariable _ | .resolver _ | .composite .not | .actionLink | .member | .constraint =>
    some 1
  | .atomic operation => some (operandCount operation)
  | .constant _ | .defaultPolicy _ => some 0
  | .action .save | .reference => some 2
  | .action .clear => some 1
  | .action .patch | .action .merge => some 3
  | .dynamicVariable | .composite _ | .basicPolicy _ | .policySet _ | .options => none

theorem operandCount_eq_arity (operation : Operation) :
    operandCount operation = operation.arity := by
  cases operation <;> rfl

theorem leastArguments_atomic (operation : Operation) :
    (atomic operation).leastArguments = operation.arity :=
  operandCount_eq_arity operation

theorem mostArguments?_atomic (operation : Operation) :
    (atomic operation).mostArguments? = some operation.arity :=
  congrArg some (operandCount_eq_arity operation)

/-- The length of the shortest keyword. -/
def shortestKeyword : Nat := 3

/-- The length of the longest keyword. -/
def longestKeyword : Nat := 12

theorem keyword_length_extremes :
    (all.map fun command => command.keyword.length).min? = some shortestKeyword ∧
      (all.map fun command => command.keyword.length).max? = some longestKeyword := by
  decide +kernel

theorem mem_all (command : Command) : command ∈ all := by
  rcases command with a | a | _ | a | a | a | a | a | a | a | _ | _ | _ | _ | _ <;>
    first
    | decide
    | (cases a <;> decide)

end Command

end PolicyText
