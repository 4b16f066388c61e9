import PolicyText.Build.Collected
import PolicyText.Build.StaticValue

/-!
# Building entities

From the collected arguments of a command its entity is built.  Every builder first checks that the
arguments have the shape that it needs and then takes over the options which concern it; an option
that is not given stays open.

The kind of the command chooses the builder, and the builder looks up what the command stands for
among the commands that it knows.
-/

namespace PolicyText

/-! ## What commands stand for -/

namespace Command

/-- The type of the static values that a command writes. -/
def valueType? : Command → Option ValueType
  | .staticVariable type => some type
  | _ => none

/-- The engine of the resolvers that a command writes. -/
def engine? : Command → Option Engine
  | .resolver engine => some engine
  | _ => none

/-- The operation that a command stands for. -/
def operation? : Command → Option Operation
  | .atomic operation => some operation
  | _ => none

/-- The way in which a command combines conditions. -/
def logic? : Command → Option Logic
  | .composite logic => some logic
  | _ => none

/-- The constant condition that a command stands for. -/
def constant? : Command → Option ConstantCondition
  | .constant value => some value
  | _ => none

/-- The effect of the policies that a command writes. -/
def targetEffect? : Command → Option TargetEffect
  | .basicPolicy effect => some effect
  | _ => none

/-- The way in which a command combines the decisions of policies. -/
def combination? : Command → Option CombinationLogic
  | .policySet logic => some logic
  | _ => none

/-- The fixed decision that a command stands for. -/
def decision? : Command → Option DefaultPolicy
  | .defaultPolicy decision => some decision
  | _ => none

/-- The type of the actions that a command writes. -/
def actionType? : Command → Option ActionType
  | .action type => some type
  | _ => none

end Command

/-! ## Variables and resolvers -/

/-- Builds a static variable. -/
def buildStaticVariable (command : Command) (args : Collected) :
    Except ParseError StaticVariable := do
  args.rejectChildren command
  args.rejectConstraint command
  let raw ← args.singleContent command
  let type ← command.require "does not build a static value" command.valueType?
  let options := args.settings
  match StaticValue.read options raw type with
  | .error fault => .error (.invalidLiteral command.keyword raw fault.message)
  | .ok value =>
    .ok
      { metadata := options.metadata
        value := value
        format := options.formatFor type
        isJson := if type = .string then options.isJson else none }

/-- Builds a resolver. -/
def buildResolver (command : Command) (args : Collected) : Except ParseError Resolver := do
  args.rejectChildren command
  args.rejectConstraint command
  let expression ← args.singleContent command
  let engine ← command.require "does not build a resolver" command.engine?
  let options := args.settings
  .ok
    { metadata := options.metadata
      engine := engine
      expression := expression
      source := options.source
      key := options.key }

/-- Builds a dynamic variable. -/
def buildDynamicVariable (command : Command) (args : Collected) :
    Except ParseError DynamicVariable := do
  args.rejectContents command
  args.rejectConstraint command
  let resolvers ← args.children.mapM (Node.resolverSlot command)
  let options := args.settings
  .ok
    { metadata := options.metadata
      resolvers := resolvers
      type := options.type
      format := options.format }

/-! ## Conditions -/

/-- Builds an atomic condition. -/
def buildAtomic (command : Command) (args : Collected) :
    Except ParseError AtomicCondition := do
  args.rejectContents command
  args.rejectConstraint command
  let operation ← command.require "is not a condition operation" command.operation?
  if args.children.length ≠ operation.arity then
    .error (command.shapeError (.arity operation.arity args.children.length))
  else
    let slots ← args.children.mapM (Node.variableSlot command)
    let options := args.settings
    .ok
      { metadata := options.metadata
        operation := operation
        args := slots
        negateResult := options.negateResult
        stringIgnoreCase := options.stringIgnoreCase
        fieldsStrictCheck := options.fieldsStrictCheck
        arrayOrderStrictCheck := options.arrayOrderStrictCheck }

/-- A choice of some conditions needs to know how many of them. -/
def checkMinimum (command : Command) (logic : Logic) (args : Collected) :
    Except ParseError Unit :=
  if logic = .nOf then
    match args.options with
    | none => .error (command.shapeError .missingOptions)
    | some options =>
      if options.minimumConditions.isNone then .error (command.shapeError .missingMinimum)
      else .ok ()
  else .ok ()

/-- Builds a combination of conditions. -/
def buildComposite (command : Command) (args : Collected) : Except ParseError Condition := do
  args.rejectContents command
  args.rejectConstraint command
  let logic ← command.require "is not a condition combinator" command.logic?
  checkMinimum command logic args
  let conditions ← args.children.mapM (Node.conditionSlot command)
  let options := args.settings
  .ok
    (.composite options.metadata logic conditions
      { minimumConditions := options.minimumConditions
        optimize := options.optimize
        negateResult := options.negateResult
        strictCheck := options.strictCheck })

/-- Builds a constant condition. -/
def buildConstant (command : Command) (args : Collected) : Except ParseError Condition := do
  args.rejectContents command
  args.rejectConstraint command
  let value ← command.require "is not a default condition" command.constant?
  .ok (.constant value)

/-- Builds a constraint, which is a condition or a reference to one. -/
def buildConstraint (args : Collected) : Except ParseError (Slot Condition) := do
  args.rejectContents .constraint
  args.rejectConstraint .constraint
  let node ← args.singleChild .constraint
  node.conditionSlot .constraint

/-! ## Actions -/

/-- The number of variables that an action takes. -/
def ActionType.operandCount : ActionType → Nat
  | .save => 1
  | .clear => 0
  | .patch | .merge => 2

/-- The effect of an action on its operands. -/
def effectOf? (options : Options) : ActionType → List (Slot Variable) → Option Effect
  | .save, [value] => some (.save value options.failOnExistingKey)
  | .clear, [] => some (.clear options.failOnMissingKey)
  | .patch, [source, change] =>
    some
      (.patch source change options.castNullSourceToArray options.failOnMissingKey
        options.failOnNullSource)
  | .merge, [source, other] =>
    some
      (.merge source other options.failOnMissingKey options.failOnExistingKey
        options.failOnNullSource options.failOnNullMerge)
  | _, _ => none

/-- The key of an action, its only content. -/
def actionKey (command : Command) (args : Collected) : Except ParseError String :=
  match args.contents with
  | [] => .error (command.shapeError .missingKey)
  | [key] => .ok key
  | _ :: extra :: _ => .error (command.shapeError (.extraContent extra))

/-- Builds an action.  Its variables are taken in the order in which it uses them. -/
def buildAction (command : Command) (args : Collected) : Except ParseError Action := do
  args.rejectConstraint command
  let key ← actionKey command args
  let type ← command.require "is not a policy action" command.actionType?
  if args.children.length ≠ type.operandCount then
    .error (command.shapeError (.operandCount type.operandCount args.children.length))
  else
    let operands ← args.children.mapM (Node.variableSlot command)
    match effectOf? args.settings type operands with
    | none => .error (command.shapeError .missingOperand)
    | some effect =>
      .ok { metadata := args.settings.metadata, key := key, effect := effect }

/-- Builds the part that an action has in a policy. -/
def buildActionLink (command : Command) (args : Collected) : Except ParseError ActionLink := do
  args.rejectContents command
  let node ← args.singleChild command
  let action ← node.actionSlot command
  let options := args.settings
  .ok
    { action := action
      constraint := args.constraint
      executionMode := options.executionMode
      priority := options.priority }

/-! ## Policies -/

/-- The conditions and the actions among the children of a basic policy. -/
def policyParts (command : Command) :
    List Node → Except ParseError (List (Slot Condition) × List ActionLink)
  | [] => .ok ([], [])
  | node :: rest =>
    match node with
    | .condition c => do
      let (conditions, actions) ← policyParts command rest
      .ok (.value c :: conditions, actions)
    | .reference ⟨.condition, target⟩ => do
      let (conditions, actions) ← policyParts command rest
      .ok (.ref target :: conditions, actions)
    | .actionLink link => do
      let (conditions, actions) ← policyParts command rest
      .ok (conditions, link :: actions)
    | node =>
      .error
        (node.wrong command "a condition, condition reference or action relationship")

/-- Builds a basic policy. -/
def buildBasicPolicy (command : Command) (args : Collected) :
    Except ParseError BasicPolicy := do
  args.rejectContents command
  let effect ← command.require "is not a policy" command.targetEffect?
  let (conditions, actions) ← policyParts command args.children
  match conditions with
  | [condition] =>
    let options := args.settings
    .ok
      { metadata := options.metadata
        targetEffect := effect
        condition := condition
        constraint := args.constraint
        actions := actions
        strictTargetEffect := options.strictTargetEffect
        lenientConstraints := options.lenientConstraints
        actionExecutionStrategy := options.actionExecutionStrategy
        ignoreErrors := options.ignoreErrors
        skipCache := options.skipCache }
  | conditions => .error (command.shapeError (.conditionCount conditions.length))

/-- The members and the actions among the children of a set.  A policy and a reference to one are
plain members. -/
def setParts (command : Command) :
    List Node → Except ParseError (List (Member Policy) × List ActionLink)
  | [] => .ok ([], [])
  | node :: rest =>
    match node with
    | .policy p => do
      let (members, actions) ← setParts command rest
      .ok (.plain (.value p) :: members, actions)
    | .reference ⟨.policy, target⟩ => do
      let (members, actions) ← setParts command rest
      .ok (.plain (.ref target) :: members, actions)
    | .member m => do
      let (members, actions) ← setParts command rest
      .ok (m :: members, actions)
    | .actionLink link => do
      let (members, actions) ← setParts command rest
      .ok (members, link :: actions)
    | node =>
      .error
        (node.wrong command
          "a policy, policy reference, policy relationship or action relationship")

/-- Builds a set of policies. -/
def buildPolicySet (command : Command) (args : Collected) : Except ParseError Policy := do
  args.rejectContents command
  let logic ← command.require "is not a policy set" command.combination?
  let (members, actions) ← setParts command args.children
  if members.isEmpty then .error (command.shapeError .noPolicy)
  else
    let options := args.settings
    .ok
      (.set options.metadata logic members
        { constraint := args.constraint
          actions := actions
          lenientConstraints := options.lenientConstraints
          actionExecutionStrategy := options.actionExecutionStrategy
          ignoreErrors := options.ignoreErrors
          skipCache := options.skipCache
          runChildActions := options.runChildActions
          indeterminateOnActionFail := options.indeterminateOnActionFail
          strictUnlessLogic := options.strictUnlessLogic })

/-- Builds a fixed decision. -/
def buildDefaultPolicy (command : Command) (args : Collected) : Except ParseError Policy := do
  args.rejectContents command
  args.rejectConstraint command
  let decision ← command.require "is not a default policy" command.decision?
  .ok (.default decision)

/-- Builds the part that a policy has in a set. -/
def buildMember (command : Command) (args : Collected) : Except ParseError (Member Policy) := do
  args.rejectContents command
  let node ← args.singleChild command
  let policy ← node.policySlot command
  let options := args.settings
  .ok
    { policy := policy
      constraint := args.constraint
      runAction := options.runAction
      priority := options.priority }

/-! ## All commands -/

/-- Builds the entity of a command. -/
def Command.build (command : Command) (args : Collected) : Except ParseError Node :=
  match command.kind with
  | .staticVariable =>
    (buildStaticVariable command args).map fun v => .variable (.static v)
  | .dynamicVariable =>
    (buildDynamicVariable command args).map fun v => .variable (.dynamic v)
  | .resolver => (buildResolver command args).map .resolver
  | .atomicCondition => (buildAtomic command args).map fun c => .condition (.atomic c)
  | .compositeCondition => (buildComposite command args).map .condition
  | .constantCondition => (buildConstant command args).map .condition
  | .basicPolicy => (buildBasicPolicy command args).map fun p => .policy (.basic p)
  | .policySet => (buildPolicySet command args).map .policy
  | .defaultPolicy => (buildDefaultPolicy command args).map .policy
  | .action => (buildAction command args).map .action
  | .actionLink => (buildActionLink command args).map .actionLink
  | .member => (buildMember command args).map .member
  | .constraint | .reference | .options => .error (command.shapeError .notStandalone)

/-- What a command with its arguments adds to the arguments among which it stands. -/
def Command.attach (command : Command) (args : Collected) :
    Except ParseError (Collected → Collected) :=
  if command = .constraint then (buildConstraint args).map Collected.consConstraint
  else (command.build args).map Collected.consChild

end PolicyText
