import PolicyText.Model.Variable

/-!
# Conditions

A condition is a test: an operation on one or two variables (`AtomicCondition`), a combination of
other conditions, or a constant.
-/

namespace PolicyText

/-- The operations of atomic conditions. -/
inductive Operation where
  | greaterThan
  | greaterThanEqual
  | lessThan
  | lessThanEqual
  | isNull
  | isNotNull
  | isEmpty
  | isNotEmpty
  | isBlank
  | isNotBlank
  | startsWith
  | endsWith
  | contains
  | isIn
  | equals
  | isPositive
  | isNegative
  | isZero
  | isPastDate
  | isFutureDate
  | regexpMatch
  | hasKey
  | isUnique
  | schemaMatch
  deriving DecidableEq, Repr

instance : Literal Operation where
  all :=
    [.greaterThan, .greaterThanEqual, .lessThan, .lessThanEqual, .isNull, .isNotNull, .isEmpty,
      .isNotEmpty, .isBlank, .isNotBlank, .startsWith, .endsWith, .contains, .isIn, .equals,
      .isPositive, .isNegative, .isZero, .isPastDate, .isFutureDate, .regexpMatch, .hasKey,
      .isUnique, .schemaMatch]
  literal
    | .greaterThan => "GREATER_THAN"
    | .greaterThanEqual => "GREATER_THAN_EQUAL"
    | .lessThan => "LESS_THAN"
    | .lessThanEqual => "LESS_THAN_EQUAL"
    | .isNull => "IS_NULL"
    | .isNotNull => "IS_NOT_NULL"
    | .isEmpty => "IS_EMPTY"
    | .isNotEmpty => "IS_NOT_EMPTY"
    | .isBlank => "IS_BLANK"
    | .isNotBlank => "IS_NOT_BLANK"
    | .startsWith => "STARTS_WITH"
    | .endsWith => "ENDS_WITH"
    | .contains => "CONTAINS"
    | .isIn => "IS_IN"
    | .equals => "EQUALS"
    | .isPositive => "IS_POSITIVE"
    | .isNegative => "IS_NEGATIVE"
    | .isZero => "IS_ZERO"
    | .isPastDate => "IS_PAST_DATE"
    | .isFutureDate => "IS_FUTURE_DATE"
    | .regexpMatch => "REGEXP_MATCH"
    | .hasKey => "HAS_KEY"
    | .isUnique => "IS_UNIQUE"
    | .schemaMatch => "SCHEMA_MATCH"
  find_literal operation := by cases operation <;> decide

/-- The number of arguments of an operation. -/
def Operation.arity : Operation → Nat
  | .isNull | .isNotNull | .isEmpty | .isNotEmpty | .isBlank | .isNotBlank | .isPositive
  | .isNegative | .isZero | .isPastDate | .isFutureDate | .isUnique => 1
  | .greaterThan | .greaterThanEqual | .lessThan | .lessThanEqual | .startsWith | .endsWith
  | .contains | .isIn | .equals | .regexpMatch | .hasKey | .schemaMatch => 2

/-- The ways to combine conditions. -/
inductive Logic where
  | and
  | or
  | not
  | nOf
  deriving DecidableEq, Repr

instance : Literal Logic where
  all := [.and, .or, .not, .nOf]
  literal
    | .and => "AND"
    | .or => "OR"
    | .not => "NOT"
    | .nOf => "N_OF"
  find_literal logic := by cases logic <;> decide

/-- The conditions with a fixed result. -/
inductive ConstantCondition where
  | true
  | false
  | null
  deriving DecidableEq, Repr

instance : Literal ConstantCondition where
  all := [.true, .false, .null]
  literal
    | .true => "TRUE"
    | .false => "FALSE"
    | .null => "NULL"
  find_literal constant := by cases constant <;> decide

/-- An operation on variables. -/
structure AtomicCondition where
  metadata : Metadata := {}
  operation : Operation
  args : List (Slot Variable)
  negateResult : Option Bool := none
  stringIgnoreCase : Option Bool := none
  fieldsStrictCheck : Option Bool := none
  arrayOrderStrictCheck : Option Bool := none
  deriving DecidableEq

/-- How a combination of conditions is evaluated. -/
structure CompositeSettings where
  minimumConditions : Option Text.Integer32 := none
  optimize : Option Bool := none
  negateResult : Option Bool := none
  strictCheck : Option Bool := none
  deriving DecidableEq

/-- A condition. -/
inductive Condition where
  | atomic (condition : AtomicCondition)
  | composite (metadata : Metadata) (logic : Logic) (conditions : List (Slot Condition))
      (settings : CompositeSettings)
  | constant (value : ConstantCondition)

/-- The identity data of a condition; a constant has none. -/
def Condition.metadata? : Condition → Option Metadata
  | .atomic condition => some condition.metadata
  | .composite metadata _ _ _ => some metadata
  | .constant _ => none

end PolicyText
