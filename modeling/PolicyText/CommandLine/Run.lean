import PolicyText.CommandLine.Invocation
import PolicyText.Json.Printer
import PolicyText.Report.Reading
import PolicyText.Settings

/-!
# Running a command line

What a command line does depends on its arguments, on the files that it reads, on the standard
input and on how the environment wants a log (`Surroundings`), and consists of an exit code and of
what is written to the standard output and to the standard error stream (`Outcome`): `respond` is
this function.

The settings are read before the expression, and a limit in the arguments counts more than one in
the settings.  A failure has code 1 and is told on the standard error stream only; a command line
that makes no sense has code 2.

The log is written to the standard error stream, in front of what is said about a failure.  Which
events it has is decided by a filter: if the command line is verbose the filter for the level
`debug`, else that of the environment, and by default that for the level `warn`.
-/

namespace PolicyText.CommandLine

/-! ## What is read -/

/-- Why a file or a stream cannot be read. -/
inductive FileFault where
  | notFound
  | denied
  | notDirectory
  | directory
  | notText
  deriving DecidableEq, Repr

/-- What is said about a file that cannot be read. -/
def FileFault.message : FileFault → String
  | .notFound => "No such file or directory (os error 2)"
  | .denied => "Permission denied (os error 13)"
  | .notDirectory => "Not a directory (os error 20)"
  | .directory => "Is a directory (os error 21)"
  | .notText => "stream did not contain valid UTF-8"

/-- The files, the standard input and the log. -/
structure Surroundings where
  file : String → Except FileFault String
  standardInput : Except FileFault String
  /-- The filter for events that the environment sets, if it sets one. -/
  logFilter : Option (Event → Bool) := none
  /-- The line of an event in the log, which may tell the time; it is given how many lines there
  are before it. -/
  logLine : Nat → Event → String := fun _ event => event.line

/-- What can go wrong before there is an expression. -/
inductive InputFault where
  | unreadableSettings (path : String) (fault : FileFault)
  | malformedSettings (path : String)
  | unreadableFile (path : String) (fault : FileFault)
  | unreadableStandardInput (fault : FileFault)
  deriving DecidableEq, Repr

/-- What is said about it. -/
def InputFault.message : InputFault → String
  | .unreadableSettings path fault => s!"could not read '{path}': " ++ fault.message
  | .malformedSettings path => s!"could not parse '{path}': these are no settings"
  | .unreadableFile path fault => s!"error reading file '{path}': " ++ fault.message
  | .unreadableStandardInput fault => "error reading stdin: " ++ fault.message

/-- The text of an expression. -/
def Source.read (s : Surroundings) : Source → Except InputFault String
  | .argument text => .ok text
  | .file path => (s.file path).mapError (.unreadableFile path)
  | .standardInput => s.standardInput.mapError .unreadableStandardInput

/-- The limits of a settings file. -/
def readSettings (s : Surroundings) (path : String) : Except InputFault Limits :=
  match s.file path with
  | .error fault => .error (.unreadableSettings path fault)
  | .ok text =>
    match Limits.ofSettings? text with
    | some limits => .ok limits
    | none => .error (.malformedSettings path)

/-- The limits that hold for an invocation. -/
def Invocation.readLimits (s : Surroundings) (invocation : Invocation) :
    Except InputFault Limits :=
  match invocation.settings with
  | none => .ok invocation.limits
  | some path => (readSettings s path).map invocation.limits.orElse

/-! ## What is written -/

/-- The exit code and what is written. -/
structure Outcome where
  code : Nat
  output : String := ""
  errors : String := ""
  deriving DecidableEq, Repr

/-- A line of text. -/
def line (text : String) : String :=
  text ++ "\n"

/-- How a fault is told. -/
def InputFault.report (format : OutputFormat) (quiet : Bool) (fault : InputFault) : String :=
  match format with
  | .json => line (Json.object [("error", .string fault.message)]).compactString
  | .text => if quiet then "" else line ("error: " ++ fault.message)

/-- How an error in an expression is told. -/
def reportError (format : OutputFormat) (quiet : Bool) (error : ParseError) : String :=
  match format with
  | .json => line error.document.prettyString
  | .text => if quiet then "" else line ("parse error: " ++ error.message)

/-- How a document is told, or that there is one. -/
def reportDocument (format : OutputFormat) (quiet : Bool) (document : Json) : Task → String
  | .parse => line document.prettyString
  | .check =>
    match format with
    | .json => line (Json.object [("valid", .bool true)]).compactString
    | .text => if quiet then "" else line "ok"

/-! ## The run -/

/-- The document of the expression that a text is, read as a target. -/
def Target.parse (limits : Limits) (text : String) : Target → Except ParseError Json
  | .variable => (Variable.parse limits text).map Variable.document
  | .resolver => (Resolver.parse limits text).map Resolver.document
  | .condition => (Condition.parse limits text).map Condition.document
  | .action => (Action.parse limits text).map Action.document
  | .policy => (Policy.parse limits text).map Policy.document
  | .options => (Options.parse limits text).map Options.document

/-- The document of the expression that a text is, and what is told on the way to it. -/
def Target.report (limits : Limits) (text : String) : Target → Reported Json
  | .variable => Category.variable.report limits text
  | .resolver => Category.resolver.report limits text
  | .condition => Category.condition.report limits text
  | .action => Category.action.report limits text
  | .policy => Category.policy.report limits text
  | .options => do
    let options ← Options.report limits text.toList
    pure options.document

/-- Whether an event gets into the log. -/
def Surroundings.logs (s : Surroundings) (verbose : Bool) (event : Event) : Bool :=
  if verbose then EventLevel.debug.admits event
  else
    match s.logFilter with
    | some filter => filter event
    | none => EventLevel.warn.admits event

/-- The log of events. -/
def Surroundings.log (s : Surroundings) (verbose : Bool) (events : List Event) : String :=
  String.join ((events.filter (s.logs verbose)).mapIdx s.logLine)

/-- An outcome behind a log. -/
def Outcome.behindLog (log : String) (outcome : Outcome) : Outcome :=
  { outcome with errors := log ++ outcome.errors }

/-- The outcome for what has been read. -/
def Invocation.judge (invocation : Invocation) (result : Except ParseError Json) : Outcome :=
  match result with
  | .error error =>
    { code := 1, errors := reportError invocation.format invocation.quiet error }
  | .ok document =>
    { code := 0
      output := reportDocument invocation.format invocation.quiet document invocation.task }

/-- The outcome if there is nothing to judge. -/
def Invocation.refuse (invocation : Invocation) (fault : InputFault) : Outcome :=
  { code := 1, errors := fault.report invocation.format invocation.quiet }

/-- The outcome of an invocation. -/
def Invocation.run (s : Surroundings) (invocation : Invocation) : Outcome :=
  match invocation.readLimits s with
  | .error fault => invocation.refuse fault
  | .ok limits =>
    match invocation.source.read s with
    | .error fault =>
      (invocation.refuse fault).behindLog (s.log invocation.verbose [.configured limits])
    | .ok text =>
      let reported := invocation.target.report limits text
      (invocation.judge reported.result).behindLog
        (s.log invocation.verbose (.configured limits :: reported.events))

/-- How the program is called. -/
def usage : String :=
  "usage: peel [OPTIONS] parse|check TARGET [EXPR]"

/-- What is said about the version. -/
def versionText : String :=
  "peel 0.1.0"

/-- The outcome of a command line. -/
def respond (s : Surroundings) (arguments : List String) : Outcome :=
  match Request.ofArguments? arguments with
  | none => { code := 2, errors := line usage }
  | some .help => { code := 0, output := line usage }
  | some .version => { code := 0, output := line versionText }
  | some (.run invocation) => invocation.run s

end PolicyText.CommandLine
