import PolicyText.Build.Entity
import PolicyText.Build.Reference
import PolicyText.Limits
import PolicyText.Scan.Arguments

/-!
# Reading expressions

An expression is one command with its arguments.  Its text is scanned into the structure of its
arguments (`scanArgumentsFrom`), whose meaning is then collected from left to right: each command
inside is built when its arguments are complete, before anything behind it is looked at (`collect`).
Behind the expression no more than fillers can follow.

`Variable.parse`, `Resolver.parse`, `Condition.parse`, `Action.parse` and `Policy.parse` read an
expression of one category; `Options.parse` reads an option list that stands alone.
-/

namespace PolicyText

/-! ## Collecting arguments -/

/-- Refuses a command at a depth beyond the limit.  The outermost command has depth one. -/
def Limits.enter (limits : Limits) (depth position : Nat) : Except ParseError Unit :=
  match limits.maxDepth with
  | some most => if most < depth then .error (.depthExceeded most position) else .ok ()
  | none => .ok ()

/-- The kinds that a command accepts, as they are listed in messages. -/
def Command.childrenText (command : Command) : String :=
  ", ".intercalate (command.children.map Literal.literal)

/-- An error about a child of a kind that a command does not accept. -/
def Command.unexpectedChild (parent child : Command) (position : Nat) : ParseError :=
  .unexpectedChild parent.keyword parent.childrenText child.keyword child.kind position

/-- Collects the arguments of a command and counts the depth: the counter is that of the command, it
goes up where another command is entered and down where the arguments are closed.  What is left of
it is returned. -/
def collectCounting (limits : Limits) (parent : Command) :
    Arguments → Nat → Except ParseError (Collected × Nat)
  | .closed, depth => .ok ({}, depth - 1)
  | .fault error, _ => .error error
  | .content text rest, depth => do
    let (args, left) ← collectCounting limits parent rest depth
    .ok (args.consContent text, left)
  | .options raw rest, depth => do
    let options ← Options.ofRaw raw
    let (args, left) ← collectCounting limits parent rest depth
    .ok (args.consOptions options, left)
  | .reference entries rest, depth => do
    let reference ← parent.resolveReference entries
    let (args, left) ← collectCounting limits parent rest depth
    .ok (args.consChild (.reference reference), left)
  | .command position child inner rest, depth =>
    if child = .constraint then do
      limits.enter (depth + 1) position
      let (innerArgs, back) ← collectCounting limits child inner (depth + 1)
      child.checkCount innerArgs
      let constraint ← buildConstraint innerArgs
      let (args, left) ← collectCounting limits parent rest back
      .ok (args.consConstraint constraint, left)
    else if parent.accepts child.kind then do
      limits.enter (depth + 1) position
      let (innerArgs, back) ← collectCounting limits child inner (depth + 1)
      child.checkCount innerArgs
      let node ← child.build innerArgs
      let (args, left) ← collectCounting limits parent rest back
      .ok (args.consChild node, left)
    else .error (parent.unexpectedChild child position)

/-- Collects the arguments of a command at a depth. -/
def collect (limits : Limits) (depth : Nat) (parent : Command) (arguments : Arguments) :
    Except ParseError Collected :=
  (collectCounting limits parent arguments depth).map Prod.fst

/-! ## Whole texts -/

/-- Refuses a text beyond the limit. -/
def Limits.checkLength (limits : Limits) (text : List Char) : Except ParseError Unit :=
  match limits.maxInputLength with
  | some most =>
    if most < text.length then .error (.inputTooLong most text.length) else .ok ()
  | none => .ok ()

/-- Refuses a text of which something is left. -/
def Cursor.expectEnd (c : Cursor) : Except ParseError Unit :=
  if c.rest.isEmpty then .ok () else .error (.trailingInput c.position)

/-- Reads the command at a place, whose parenthesis opens at another. -/
def parseCommand (limits : Limits) (command : Command) (c opened : Cursor) :
    Except ParseError Node := do
  let scanned := scanArgumentsFrom command.keyword c.position false opened
  limits.enter 1 c.position
  let args ← collect limits 1 command scanned.arguments
  command.checkCount args
  let node ← command.build args
  match scanned.last with
  | .error error => .error error
  | .ok ⟨last, _⟩ => do
    last.expectEnd
    .ok node

/-- Reads an expression of a category. -/
def parseNode (limits : Limits) (category : Category) (text : List Char) :
    Except ParseError Node := do
  limits.checkLength text
  let c := (Cursor.start text).skipFiller
  let (command, opened) ← scanKeyword c
  if category.accepts command.kind then parseCommand limits command c opened
  else .error (.unexpectedRoot category.description command.keyword command.kind)

/-- An error about an expression that turned out to be of another category. -/
def Category.mismatch (category : Category) (node : Node) : ParseError :=
  .shape "" (.wrongCategory category.description node.description)

/-- Reads a variable. -/
def Variable.parse (limits : Limits) (text : String) : Except ParseError Variable :=
  match parseNode limits .variable text.toList with
  | .ok (.variable v) => .ok v
  | .ok node => .error (Category.mismatch .variable node)
  | .error error => .error error

/-- Reads a resolver. -/
def Resolver.parse (limits : Limits) (text : String) : Except ParseError Resolver :=
  match parseNode limits .resolver text.toList with
  | .ok (.resolver r) => .ok r
  | .ok node => .error (Category.mismatch .resolver node)
  | .error error => .error error

/-- Reads a condition. -/
def Condition.parse (limits : Limits) (text : String) : Except ParseError Condition :=
  match parseNode limits .condition text.toList with
  | .ok (.condition c) => .ok c
  | .ok node => .error (Category.mismatch .condition node)
  | .error error => .error error

/-- Reads an action. -/
def Action.parse (limits : Limits) (text : String) : Except ParseError Action :=
  match parseNode limits .action text.toList with
  | .ok (.action a) => .ok a
  | .ok node => .error (Category.mismatch .action node)
  | .error error => .error error

/-- Reads a policy. -/
def Policy.parse (limits : Limits) (text : String) : Except ParseError Policy :=
  match parseNode limits .policy text.toList with
  | .ok (.policy p) => .ok p
  | .ok node => .error (Category.mismatch .policy node)
  | .error error => .error error

/-- Reads an option list that stands alone. -/
def Options.parse (limits : Limits) (text : String) : Except ParseError Options := do
  limits.checkLength text.toList
  let c := (Cursor.start text.toList).skipFiller
  let (command, opened) ← scanKeyword c
  if command = .options then do
    let (raw, last) ← scanOptions command.keyword opened
    last.expectEnd
    Options.ofRaw raw
  else .error (.unexpectedRoot "options" command.keyword command.kind)

end PolicyText
