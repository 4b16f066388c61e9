import PolicyText.Grammar.Command
import PolicyText.Limits

/-!
# Events

What happens on the way to a result can be told, for the sake of those who look for the reason of a
result.  An `Event` has a level, which says how much it matters, a message and fields with values.
How it is written, and whether it is written at all, is not decided here.

No event is a warning or worse: all of them are below what is told by default
(`Event.warn_lt_level`).
-/

namespace PolicyText

/-- How much an event matters. -/
inductive EventLevel where
  | error
  | warn
  | info
  | debug
  | trace
  deriving DecidableEq, Repr

instance : Literal EventLevel where
  all := [.error, .warn, .info, .debug, .trace]
  literal
    | .error => "error"
    | .warn => "warn"
    | .info => "info"
    | .debug => "debug"
    | .trace => "trace"
  find_literal level := by cases level <;> decide

/-- The place of a level in their order: the higher, the less it matters. -/
def EventLevel.rank : EventLevel → Nat
  | .error => 1
  | .warn => 2
  | .info => 3
  | .debug => 4
  | .trace => 5

/-- What can be told. -/
inductive Event where
  /-- The limits for the reader are known. -/
  | configured (limits : Limits)
  /-- A keyword is that of a command. -/
  | resolved (command : Command) (position : Nat)
  /-- The arguments of a command begin. -/
  | entered (command : Command) (position : Nat)
  /-- An option has no meaning. -/
  | ignoredOption (key : String)
  /-- An expression has been read from a text of some length. -/
  | readExpression (category : Category) (object : String) (length : Nat)
  /-- An option list that stands alone has been read. -/
  | readOptions (length : Nat)
  deriving DecidableEq

/-- The value of a field. -/
inductive EventValue where
  | quoted (text : String)
  | plain (text : String)
  | number (n : Nat)
  deriving DecidableEq, Repr

namespace Event

def level : Event → EventLevel
  | .configured _ | .ignoredOption _ | .readExpression .. | .readOptions _ => .debug
  | .resolved .. | .entered .. => .trace

def message : Event → String
  | .configured _ => "parser configured"
  | .resolved .. => "resolved command"
  | .entered .. => "command"
  | .ignoredOption _ => "ignoring unknown option"
  | .readExpression .. => "parsed expression"
  | .readOptions _ => "parsed options"

/-- How a limit is shown. -/
def shownLimit : Option Nat → String
  | some n => s!"Some({n})"
  | none => "None"

/-- How limits are shown. -/
def shownLimits (limits : Limits) : String :=
  "ParserConfig \x7b max_depth: " ++ shownLimit limits.maxDepth ++ ", max_input_len: " ++
    shownLimit limits.maxInputLength ++ " \x7d"

def fields : Event → List (String × EventValue)
  | .configured limits => [("parser_config", .plain (shownLimits limits))]
  | .resolved command position | .entered command position =>
    [("keyword", .quoted command.keyword), ("kind", .plain (Literal.literal command.kind)),
      ("position", .number position)]
  | .ignoredOption key => [("option", .quoted key)]
  | .readExpression category object length =>
    [("category", .quoted category.description), ("object", .quoted object),
      ("len", .number length)]
  | .readOptions length => [("len", .number length)]

theorem warn_lt_level (event : Event) : EventLevel.warn.rank < event.level.rank := by
  cases event <;> simp [level, EventLevel.rank]

end Event

/-- A value as it stands in a line. -/
def EventValue.shown : EventValue → String
  | .quoted text => s!"\"{text}\""
  | .plain text => text
  | .number n => s!"{n}"

/-- An event on one line, without the time. -/
def Event.line (event : Event) : String :=
  (Literal.literal event.level).toUpper ++ " " ++ event.message ++
    String.join (event.fields.map fun (name, value) => " " ++ name ++ "=" ++ value.shown) ++ "\n"

/-- A level stands for the filter that lets through what matters at least as much. -/
def EventLevel.admits (level : EventLevel) (event : Event) : Bool :=
  decide (event.level.rank ≤ level.rank)

end PolicyText
