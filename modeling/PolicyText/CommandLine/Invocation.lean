import PolicyText.CommandLine.Argument
import PolicyText.Limits
import PolicyText.Text.Integer

/-!
# What the command line asks for

A command line names a task, to parse an expression or only to check it, and behind the task its
target and the expression, which can also come from a file or from the standard input.  Most options
can stand before the task and behind it, once in each place; what stands behind the task counts
(`CommonOptions.within`).

The items are read from left to right up to the end or to a request for help or for the version, and
the first that makes no sense spoils the command line (`Request.ofArguments?`).
-/

namespace PolicyText.CommandLine

/-! ## Requests -/

/-- How results are written. -/
inductive OutputFormat where
  | text
  | json
  deriving DecidableEq, Repr

instance : Literal OutputFormat where
  all := [.text, .json]
  literal
    | .text => "text"
    | .json => "json"
  find_literal format := by cases format <;> decide

/-- What an expression is read as. -/
inductive Target where
  | variable
  | resolver
  | condition
  | action
  | policy
  | options
  deriving DecidableEq, Repr

instance : Literal Target where
  all := [.variable, .resolver, .condition, .action, .policy, .options]
  literal
    | .variable => "variable"
    | .resolver => "resolver"
    | .condition => "condition"
    | .action => "action"
    | .policy => "policy"
    | .options => "options"
  find_literal target := by cases target <;> decide

/-- What is done with an expression: its document is written, or only whether it has one. -/
inductive Task where
  | parse
  | check
  deriving DecidableEq, Repr

instance : Literal Task where
  all := [.parse, .check]
  literal
    | .parse => "parse"
    | .check => "check"
  find_literal task := by cases task <;> decide

/-- Where an expression comes from. -/
inductive Source where
  | argument (text : String)
  | file (path : String)
  | standardInput
  deriving DecidableEq, Repr

/-- A task with all that it needs. -/
structure Invocation where
  task : Task
  target : Target
  source : Source
  format : OutputFormat := .text
  quiet : Bool := false
  verbose : Bool := false
  settings : Option String := none
  limits : Limits := {}
  deriving DecidableEq, Repr

/-- What a command line asks for. -/
inductive Request where
  | help
  | version
  | run (invocation : Invocation)
  deriving DecidableEq, Repr

/-! ## Options before and behind the task -/

/-- The options that can stand before the task and behind it. -/
structure CommonOptions where
  format : Option OutputFormat := none
  quiet : Bool := false
  verbose : Bool := false
  settings : Option String := none
  limits : Limits := {}
  deriving DecidableEq, Repr

/-- Gives a value to what has none. -/
def setOnce {α : Type} (old new : Option α) : Option (Option α) :=
  match old, new with
  | none, some value => some (some value)
  | _, _ => none

/-- Reads the path of a file. -/
def path? (value : String) : Option String :=
  if value = "" then none else some value

/-- Reads a limit, a natural number of 64 bits. -/
def limit? (value : String) : Option Nat :=
  (Text.readBounded .nat64 value.toList).toOption.map fun n => n.value.toNat

namespace CommonOptions

/-- Sets a flag that has not been set. -/
def setFlag? (o : CommonOptions) : Flag → Option CommonOptions
  | .quiet => if o.quiet then none else some { o with quiet := true }
  | .verbose => if o.verbose then none else some { o with verbose := true }
  | .help | .version => none

/-- Sets an option that has not been set. -/
def setOption? (o : CommonOptions) (value : String) : ValueOption → Option CommonOptions
  | .output => do
    let format ← setOnce o.format (Literal.ofLiteral? value)
    some { o with format := format }
  | .config => do
    let settings ← setOnce o.settings (path? value)
    some { o with settings := settings }
  | .maxDepth => do
    let maxDepth ← setOnce o.limits.maxDepth (limit? value)
    some { o with limits := { o.limits with maxDepth := maxDepth } }
  | .maxInputLength => do
    let maxInputLength ← setOnce o.limits.maxInputLength (limit? value)
    some { o with limits := { o.limits with maxInputLength := maxInputLength } }
  | .file => none

/-- The options behind the task, completed by those before it. -/
def within (inner outer : CommonOptions) : CommonOptions :=
  { format := inner.format.or outer.format
    quiet := inner.quiet || outer.quiet
    verbose := inner.verbose || outer.verbose
    settings := inner.settings.or outer.settings
    limits := inner.limits.orElse outer.limits }

end CommonOptions

/-! ## Reading the items -/

/-- What has been read behind the task. -/
structure Draft where
  options : CommonOptions := {}
  target : Option Target := none
  expression : Option String := none
  file : Option String := none
  deriving DecidableEq, Repr

namespace Draft

/-- Adds a word, which is the target or the expression. -/
def addWord? (draft : Draft) (word : String) : Option Draft :=
  match draft.target, draft.expression with
  | none, _ => (Literal.ofLiteral? word).map fun target => { draft with target := some target }
  | some _, none => some { draft with expression := some word }
  | some _, some _ => none

/-- Adds an option. -/
def addOption? (draft : Draft) (option : ValueOption) (value : String) : Option Draft :=
  if option = .file then do
    let file ← setOnce draft.file (path? value)
    some { draft with file := file }
  else (draft.options.setOption? value option).map fun options => { draft with options := options }

/-- Adds a flag. -/
def addFlag? (draft : Draft) (flag : Flag) : Option Draft :=
  (draft.options.setFlag? flag).map fun options => { draft with options := options }

/-- Where the expression comes from, which can be said in one way only. -/
def source? (draft : Draft) : Option Source :=
  match draft.expression, draft.file with
  | some text, none => some (.argument text)
  | none, some path => some (.file path)
  | none, none => some .standardInput
  | some _, some _ => none

/-- The invocation, given the task and the options before it. -/
def invocation? (draft : Draft) (task : Task) (outer : CommonOptions) : Option Invocation := do
  let target ← draft.target
  let source ← draft.source?
  let options := draft.options.within outer
  some
    { task := task, target := target, source := source,
      format := options.format.getD .text, quiet := options.quiet, verbose := options.verbose,
      settings := options.settings, limits := options.limits }

end Draft

/-- Reads the items behind the task. -/
def readBehindTask (task : Task) (outer : CommonOptions) (draft : Draft) :
    List Item → Option Request
  | [] => (draft.invocation? task outer).map .run
  | .word text :: rest => draft.addWord? text >>= fun draft => readBehindTask task outer draft rest
  | .option option value :: rest =>
    draft.addOption? option value >>= fun draft => readBehindTask task outer draft rest
  | .flag .help :: _ => some .help
  | .flag flag :: rest =>
    draft.addFlag? flag >>= fun draft => readBehindTask task outer draft rest
  | .separator :: rest => readBehindTask task outer draft rest
  | .fault :: _ => none

/-- Reads the words behind a request for help, at most the name of one task or that of help
itself. -/
def readHelp : List Item → Option Request
  | [] => some .help
  | [.word name] =>
    if name = "help" ∨ (Literal.ofLiteral? name : Option Task).isSome then some .help else none
  | _ => none

/-- Reads the items up to the task and on. -/
def readRequest (outer : CommonOptions) : List Item → Option Request
  | [] => none
  | .word name :: rest =>
    if name = "help" then readHelp rest
    else (Literal.ofLiteral? name) >>= fun task => readBehindTask task outer {} rest
  | .option option value :: rest =>
    outer.setOption? value option >>= fun outer => readRequest outer rest
  | .flag .help :: _ => some .help
  | .flag .version :: _ => some .version
  | .flag flag :: rest => outer.setFlag? flag >>= fun outer => readRequest outer rest
  | .separator :: _ | .fault :: _ => none

/-- What the arguments ask for, if they make sense. -/
def Request.ofArguments? (arguments : List String) : Option Request :=
  readRequest {} (items arguments)

end PolicyText.CommandLine
