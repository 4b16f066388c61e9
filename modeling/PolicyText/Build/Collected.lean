import PolicyText.Grammar.Command
import PolicyText.Options
import PolicyText.ParseError

/-!
# Collected arguments

When the arguments of a command have been read, they are its child entities and its contents, each
in the order of the text, its options and its constraint.  Before the entity of the command is built
from them, their number is compared with the bounds of the grammar.

The checks of this module are shared by the builders: each refuses arguments of which a command has
no use, or finds the one argument that it wants.
-/

namespace PolicyText

/-- An entity that stands among the arguments of a command. -/
inductive Node where
  | variable (v : Variable)
  | resolver (r : Resolver)
  | condition (c : Condition)
  | policy (p : Policy)
  | action (a : Action)
  | actionLink (link : ActionLink)
  | member (m : Member Policy)
  | reference (r : Reference)

/-- How an entity is called in messages. -/
def Node.description : Node → String
  | .variable _ => "variable"
  | .resolver _ => "value resolver"
  | .condition _ => "condition"
  | .policy _ => "policy"
  | .action _ => "policy action"
  | .actionLink _ => "action relationship"
  | .member _ => "policy relationship"
  | .reference r => r.kind.description

/-- The arguments of a command. -/
structure Collected where
  children : List Node := []
  contents : List String := []
  options : Option Options := none
  constraint : Option (Slot Condition) := none

namespace Collected

/-- A content in front of other arguments. -/
def consContent (text : String) (args : Collected) : Collected :=
  { args with contents := text :: args.contents }

/-- A child in front of other arguments. -/
def consChild (node : Node) (args : Collected) : Collected :=
  { args with children := node :: args.children }

/-- Options in front of other arguments.  Options that follow replace them. -/
def consOptions (options : Options) (args : Collected) : Collected :=
  { args with options := some (args.options.getD options) }

/-- A constraint in front of other arguments.  A constraint that follows replaces it. -/
def consConstraint (constraint : Slot Condition) (args : Collected) : Collected :=
  { args with constraint := some (args.constraint.getD constraint) }

/-- The number of arguments.  Options and a constraint do not count. -/
def count (args : Collected) : Nat :=
  args.children.length + args.contents.length

/-- The options, or those that say nothing. -/
def settings (args : Collected) : Options :=
  args.options.getD {}

end Collected

/-- An error that concerns the arguments of a command. -/
def Command.shapeError (command : Command) (fault : ShapeFault) : ParseError :=
  .shape command.keyword fault

/-- Compares the number of arguments with the bounds of the grammar. -/
def Command.checkCount (command : Command) (args : Collected) : Except ParseError Unit :=
  if args.count < command.leastArguments then
    .error (.notEnoughArguments command.keyword command.leastArguments args.count)
  else
    match command.mostArguments? with
    | some most =>
      if most < args.count then .error (.tooManyArguments command.keyword most args.count)
      else .ok ()
    | none => .ok ()

namespace Collected

/-- Refuses contents. -/
def rejectContents (command : Command) (args : Collected) : Except ParseError Unit :=
  match args.contents with
  | [] => .ok ()
  | text :: _ => .error (command.shapeError (.unexpectedContent text))

/-- Refuses children. -/
def rejectChildren (command : Command) (args : Collected) : Except ParseError Unit :=
  match args.children with
  | [] => .ok ()
  | node :: _ => .error (command.shapeError (.unexpectedChild node.description))

/-- Refuses a constraint. -/
def rejectConstraint (command : Command) (args : Collected) : Except ParseError Unit :=
  match args.constraint with
  | none => .ok ()
  | some _ => .error (command.shapeError .unsupportedConstraint)

/-- The one content. -/
def singleContent (command : Command) (args : Collected) : Except ParseError String :=
  match args.contents with
  | [text] => .ok text
  | contents => .error (command.shapeError (.contentCount contents.length))

/-- The one child. -/
def singleChild (command : Command) (args : Collected) : Except ParseError Node :=
  match args.children with
  | [node] => .ok node
  | children => .error (command.shapeError (.childCount children.length))

end Collected

/-- What a command stands for, if it is among those that its builder knows; otherwise the builder
says what the command is not. -/
def Command.require {α : Type} (command : Command) (denial : String) :
    Option α → Except ParseError α
  | some a => .ok a
  | none => .error (command.shapeError (.unknownCommand denial))

/-- An error about a child of the wrong kind. -/
def Node.wrong (command : Command) (wanted : String) (node : Node) : ParseError :=
  command.shapeError (.wrongChild wanted node.description)

/-- A child that has to be a variable or a reference to one. -/
def Node.variableSlot (command : Command) : Node → Except ParseError (Slot Variable)
  | .variable v => .ok (.value v)
  | .reference ⟨.variable, target⟩ => .ok (.ref target)
  | node => .error (node.wrong command "a variable or variable reference")

/-- A child that has to be a resolver or a reference to one. -/
def Node.resolverSlot (command : Command) : Node → Except ParseError (Slot Resolver)
  | .resolver r => .ok (.value r)
  | .reference ⟨.resolver, target⟩ => .ok (.ref target)
  | node => .error (node.wrong command "a value resolver or resolver reference")

/-- A child that has to be a condition or a reference to one. -/
def Node.conditionSlot (command : Command) : Node → Except ParseError (Slot Condition)
  | .condition c => .ok (.value c)
  | .reference ⟨.condition, target⟩ => .ok (.ref target)
  | node => .error (node.wrong command "a condition or condition reference")

/-- A child that has to be an action or a reference to one. -/
def Node.actionSlot (command : Command) : Node → Except ParseError (Slot Action)
  | .action a => .ok (.value a)
  | .reference ⟨.action, target⟩ => .ok (.ref target)
  | node => .error (node.wrong command "a policy action or action reference")

/-- A child that has to be a policy or a reference to one. -/
def Node.policySlot (command : Command) : Node → Except ParseError (Slot Policy)
  | .policy p => .ok (.value p)
  | .reference ⟨.policy, target⟩ => .ok (.ref target)
  | node => .error (node.wrong command "a policy or policy reference")

end PolicyText
