import PolicyText.Model.Action
import PolicyText.Model.Condition

/-!
# Policies

A policy is a basic policy, which permits or denies where its condition holds; a set of policies,
which combines their decisions; or a fixed decision.  Basic policies and sets run actions after the
decision (`ActionLink`), and a set tells for each of its members how it takes part (`Member`).
-/

namespace PolicyText

/-- What a basic policy decides where its condition holds. -/
inductive TargetEffect where
  | permit
  | deny
  deriving DecidableEq, Repr

instance : Literal TargetEffect where
  all := [.permit, .deny]
  literal
    | .permit => "PERMIT"
    | .deny => "DENY"
  find_literal target := by cases target <;> decide

/-- The ways to combine the decisions of policies. -/
inductive CombinationLogic where
  | denyOverrides
  | permitOverrides
  | denyUnlessPermit
  | permitUnlessDeny
  | firstApplicable
  | onlyOneApplicable
  deriving DecidableEq, Repr

instance : Literal CombinationLogic where
  all :=
    [.denyOverrides, .permitOverrides, .denyUnlessPermit, .permitUnlessDeny, .firstApplicable,
      .onlyOneApplicable]
  literal
    | .denyOverrides => "DENY_OVERRIDES"
    | .permitOverrides => "PERMIT_OVERRIDES"
    | .denyUnlessPermit => "DENY_UNLESS_PERMIT"
    | .permitUnlessDeny => "PERMIT_UNLESS_DENY"
    | .firstApplicable => "FIRST_APPLICABLE"
    | .onlyOneApplicable => "ONLY_ONE_APPLICABLE"
  find_literal logic := by cases logic <;> decide

/-- The decisions that a policy can always give. -/
inductive DefaultPolicy where
  | permit
  | deny
  | notApplicable
  | indeterminateDenyPermit
  | indeterminateDeny
  | indeterminatePermit
  deriving DecidableEq, Repr

instance : Literal DefaultPolicy where
  all :=
    [.permit, .deny, .notApplicable, .indeterminateDenyPermit, .indeterminateDeny,
      .indeterminatePermit]
  literal
    | .permit => "PERMIT"
    | .deny => "DENY"
    | .notApplicable => "NOT_APPLICABLE"
    | .indeterminateDenyPermit => "INDETERMINATE_DENY_PERMIT"
    | .indeterminateDeny => "INDETERMINATE_DENY"
    | .indeterminatePermit => "INDETERMINATE_PERMIT"
  find_literal decision := by cases decision <;> decide

/-- The decisions after which an action can run. -/
inductive ExecutionMode where
  | onPermit
  | onDeny
  | onIndeterminate
  | onNotApplicable
  deriving DecidableEq, Repr

instance : Literal ExecutionMode where
  all := [.onPermit, .onDeny, .onIndeterminate, .onNotApplicable]
  literal
    | .onPermit => "ON_PERMIT"
    | .onDeny => "ON_DENY"
    | .onIndeterminate => "ON_INDETERMINATE"
    | .onNotApplicable => "ON_NOT_APPLICABLE"
  find_literal mode := by cases mode <;> decide

/-- A set of execution modes. -/
structure ExecutionModes where
  onPermit : Bool := false
  onDeny : Bool := false
  onIndeterminate : Bool := false
  onNotApplicable : Bool := false
  deriving DecidableEq, Repr

namespace ExecutionModes

/-- Whether a mode belongs to a set. -/
def contains (modes : ExecutionModes) : ExecutionMode → Bool
  | .onPermit => modes.onPermit
  | .onDeny => modes.onDeny
  | .onIndeterminate => modes.onIndeterminate
  | .onNotApplicable => modes.onNotApplicable

/-- The set of the modes of a list. -/
def ofList (modes : List ExecutionMode) : ExecutionModes :=
  { onPermit := modes.contains .onPermit
    onDeny := modes.contains .onDeny
    onIndeterminate := modes.contains .onIndeterminate
    onNotApplicable := modes.contains .onNotApplicable }

/-- The modes of a set in the order of `ExecutionMode`. -/
def toList (modes : ExecutionModes) : List ExecutionMode :=
  Literal.all.filter modes.contains

@[simp] theorem contains_ofList (modes : List ExecutionMode) (mode : ExecutionMode) :
    (ofList modes).contains mode = modes.contains mode := by
  cases mode <;> rfl

theorem ext_contains {a b : ExecutionModes} (h : ∀ mode, a.contains mode = b.contains mode) :
    a = b := by
  cases a
  cases b
  have hPermit := h .onPermit
  have hDeny := h .onDeny
  have hIndeterminate := h .onIndeterminate
  have hNotApplicable := h .onNotApplicable
  simp_all [contains]

@[simp] theorem ofList_toList (modes : ExecutionModes) : ofList modes.toList = modes := by
  rcases modes with ⟨_ | _, _ | _, _ | _, _ | _⟩ <;> decide

end ExecutionModes

/-- How the actions of a policy are run one after the other. -/
inductive ExecutionStrategy where
  | runAll
  | stopOnFailure
  | untilSuccess
  | rollbackOnFailure
  deriving DecidableEq, Repr

instance : Literal ExecutionStrategy where
  all := [.runAll, .stopOnFailure, .untilSuccess, .rollbackOnFailure]
  literal
    | .runAll => "RUN_ALL"
    | .stopOnFailure => "STOP_ON_FAILURE"
    | .untilSuccess => "UNTIL_SUCCESS"
    | .rollbackOnFailure => "ROLLBACK_ON_FAILURE"
  find_literal strategy := by cases strategy <;> decide

/-- The part that an action has in a policy. -/
structure ActionLink where
  action : Slot Action
  constraint : Option (Slot Condition) := none
  executionMode : Option ExecutionModes := none
  priority : Option Text.Integer32 := none

/-- A policy that permits or denies where its condition holds. -/
structure BasicPolicy where
  metadata : Metadata := {}
  targetEffect : TargetEffect
  condition : Slot Condition
  constraint : Option (Slot Condition) := none
  actions : List ActionLink := []
  strictTargetEffect : Option Bool := none
  lenientConstraints : Option Bool := none
  actionExecutionStrategy : Option ExecutionStrategy := none
  ignoreErrors : Option Bool := none
  skipCache : Option Bool := none

/-- The part that a policy has in a set. -/
structure Member (α : Type) where
  policy : Slot α
  constraint : Option (Slot Condition) := none
  runAction : Option Bool := none
  priority : Option Text.Integer32 := none

/-- A member without anything said about its part. -/
def Member.plain {α : Type} (policy : Slot α) : Member α :=
  { policy := policy }

/-- What is said about a set besides its members. -/
structure SetSettings where
  constraint : Option (Slot Condition) := none
  actions : List ActionLink := []
  lenientConstraints : Option Bool := none
  actionExecutionStrategy : Option ExecutionStrategy := none
  ignoreErrors : Option Bool := none
  skipCache : Option Bool := none
  runChildActions : Option Bool := none
  indeterminateOnActionFail : Option Bool := none
  strictUnlessLogic : Option Bool := none

/-- A policy. -/
inductive Policy where
  | basic (policy : BasicPolicy)
  | set (metadata : Metadata) (logic : CombinationLogic) (members : List (Member Policy))
      (settings : SetSettings)
  | default (decision : DefaultPolicy)

/-- The identity data of a policy; a fixed decision has none. -/
def Policy.metadata? : Policy → Option Metadata
  | .basic policy => some policy.metadata
  | .set metadata _ _ _ => some metadata
  | .default _ => none

end PolicyText
