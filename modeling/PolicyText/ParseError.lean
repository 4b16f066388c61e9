import PolicyText.Grammar.EntityKind
import PolicyText.Json.Basic

/-!
# What can be wrong with an expression

A text that is no expression is refused with the first thing that is wrong with it.  Every
`ParseError` belongs to one of six classes, may tell the keyword it concerns and the position at
which it was found, counted in characters from zero, and has a message.

`ShapeFault` is the class of those that concern the arguments of a command as a whole.
-/

namespace PolicyText

/-- What is wrong with the arguments of a command. -/
inductive ShapeFault where
  | unexpectedContent (text : String)
  | unexpectedChild (found : String)
  | unsupportedConstraint
  | contentCount (count : Nat)
  | childCount (count : Nat)
  | wrongChild (wanted found : String)
  | missingKey
  | extraContent (text : String)
  | operandCount (wanted count : Nat)
  | missingOperand
  | arity (wanted count : Nat)
  | missingOptions
  | missingMinimum
  | conditionCount (count : Nat)
  | noPolicy
  | notStandalone
  /-- A command that its builder does not know. -/
  | unknownCommand (denial : String)
  | wrongCategory (expected found : String)
  /-- A fault that is given in words. -/
  | stated (message : String)
  deriving DecidableEq, Repr

/-- What is said about the arguments of the command with a given keyword. -/
def ShapeFault.message (keyword : String) : ShapeFault → String
  | .unexpectedContent text =>
    s!"command '{keyword}' does not accept content arguments, got '{text}'"
  | .unexpectedChild found =>
    s!"command '{keyword}' does not accept child commands, got {found}"
  | .unsupportedConstraint => s!"Constraint is not supported for command '{keyword}'"
  | .contentCount count =>
    s!"command '{keyword}' requires exactly one content argument, got {count}"
  | .childCount count => s!"command '{keyword}' requires exactly one child command, got {count}"
  | .wrongChild wanted found => s!"command '{keyword}' expects {wanted} but got {found}"
  | .missingKey => s!"command '{keyword}' requires a key as its first content argument"
  | .extraContent text => s!"command '{keyword}' accepts only the key as content, got '{text}'"
  | .operandCount wanted count =>
    s!"command '{keyword}' requires a key and {wanted} variable(s), got {count} variable(s)"
  | .missingOperand => s!"command '{keyword}' is missing a variable"
  | .arity wanted count => s!"command '{keyword}' requires {wanted} argument(s), got {count}"
  | .missingOptions => s!"Options must be provided for command '{keyword}'"
  | .missingMinimum =>
    s!"Option 'minimumConditions' must be provided for command '{keyword}'"
  | .conditionCount count => s!"command '{keyword}' requires exactly one condition, got {count}"
  | .noPolicy => s!"command '{keyword}' requires at least one policy"
  | .notStandalone => s!"command '{keyword}' cannot stand on its own"
  | .unknownCommand denial => s!"command '{keyword}' {denial}"
  | .wrongCategory expected found => s!"expected {expected} but built {found}"
  | .stated message => message

/-- What is wrong with an expression. -/
inductive ParseError where
  | inputTooShort (position : Nat)
  | unterminatedLiteral (wrapper : String) (position : Nat)
  | missingTerminator (position : Nat)
  | notStarted (keyword : String) (position : Nat)
  | notCompleted (keyword : String) (position : Nat)
  | trailingInput (position : Nat)
  | unknownCommand (candidate : String) (position : Nat)
  | ambiguousCommand (candidate keywords : String) (position : Nat)
  | missingGroupOpen (keyword : String) (position : Nat)
  | unexpectedRoot (expected keyword : String) (kind : EntityKind)
  | unexpectedChild (parent expected keyword : String) (kind : EntityKind) (position : Nat)
  | notEnoughArguments (keyword : String) (least count : Nat)
  | tooManyArguments (keyword : String) (most count : Nat)
  | unsupportedReference (keyword : String)
  | emptyOptionKey (position : Nat)
  | emptyOptionValue (key : String)
  | invalidOptionValue (key value reason : String)
  | invalidVersion (value : String)
  | referenceArity (count position : Nat)
  | nestedInReference (position : Nat)
  | invalidLiteral (keyword value reason : String)
  | shape (keyword : String) (fault : ShapeFault)
  | inputTooLong (most length : Nat)
  | depthExceeded (most position : Nat)
  deriving DecidableEq, Repr

namespace ParseError

/-- The classes of errors. -/
inductive Class where
  | lexical
  | grammar
  | options
  | reference
  | arguments
  | limit
  deriving DecidableEq, Repr

/-- The word for a class of errors. -/
def Class.word : Class → String
  | .lexical => "lexical"
  | .grammar => "grammar"
  | .options => "options"
  | .reference => "reference"
  | .arguments => "deserialize"
  | .limit => "limit"

/-- The class of an error. -/
def classOf : ParseError → Class
  | .inputTooShort _ | .unterminatedLiteral .. | .missingTerminator _ | .notStarted ..
  | .notCompleted .. | .trailingInput _ => .lexical
  | .unknownCommand .. | .ambiguousCommand .. | .missingGroupOpen .. | .unexpectedRoot ..
  | .unexpectedChild .. | .notEnoughArguments .. | .tooManyArguments ..
  | .unsupportedReference _ => .grammar
  | .emptyOptionKey _ | .emptyOptionValue _ | .invalidOptionValue .. | .invalidVersion _ =>
    .options
  | .referenceArity .. | .nestedInReference _ => .reference
  | .invalidLiteral .. | .shape .. => .arguments
  | .inputTooLong .. | .depthExceeded .. => .limit

/-- The position at which an error was found, if it has one. -/
def position? : ParseError → Option Nat
  | .inputTooShort position | .unterminatedLiteral _ position | .missingTerminator position
  | .notStarted _ position | .notCompleted _ position | .trailingInput position
  | .unknownCommand _ position | .ambiguousCommand _ _ position | .missingGroupOpen _ position
  | .unexpectedChild _ _ _ _ position | .emptyOptionKey position | .referenceArity _ position
  | .nestedInReference position | .depthExceeded _ position => some position
  | .unexpectedRoot .. | .notEnoughArguments .. | .tooManyArguments ..
  | .unsupportedReference _ | .emptyOptionValue _ | .invalidOptionValue .. | .invalidVersion _
  | .invalidLiteral .. | .shape .. | .inputTooLong .. => none

/-- The keyword that an error concerns, if there is one. -/
def keyword? : ParseError → Option String
  | .notStarted keyword _ | .notCompleted keyword _ | .missingGroupOpen keyword _
  | .unexpectedRoot _ keyword _ | .unexpectedChild _ _ keyword _ _
  | .notEnoughArguments keyword _ _ | .tooManyArguments keyword _ _
  | .unsupportedReference keyword | .invalidLiteral keyword _ _ | .shape keyword _ =>
    some keyword
  | .unknownCommand candidate _ | .ambiguousCommand candidate _ _ => some candidate
  | .inputTooShort _ | .unterminatedLiteral .. | .missingTerminator _ | .trailingInput _
  | .emptyOptionKey _ | .emptyOptionValue _ | .invalidOptionValue .. | .invalidVersion _
  | .referenceArity .. | .nestedInReference _ | .inputTooLong .. | .depthExceeded .. => none

/-- What is said about an error. -/
def message : ParseError → String
  | .inputTooShort position =>
    s!"input is too short to contain a command at position {position}"
  | .unterminatedLiteral wrapper position =>
    s!"unterminated {wrapper} literal starting at position {position}"
  | .missingTerminator position =>
    s!"no delimiter or closing ')' found for content starting at position {position}"
  | .notStarted keyword position =>
    s!"command '{keyword}' at position {position} was not started"
  | .notCompleted keyword position =>
    s!"command '{keyword}' at position {position} was not completed"
  | .trailingInput position => s!"unexpected trailing input at position {position}"
  | .unknownCommand candidate position =>
    s!"unknown command '{candidate}' at position {position}"
  | .ambiguousCommand candidate keywords position =>
    s!"ambiguous command '{candidate}' at position {position}: matches {keywords}"
  | .missingGroupOpen keyword position =>
    s!"command '{keyword}' at position {position} must be followed by '('"
  | .unexpectedRoot expected keyword kind =>
    s!"expected {expected} but found command '{keyword}' (" ++ Literal.literal kind ++ ")"
  | .unexpectedChild parent expected keyword kind position =>
    s!"command '{parent}' accepts only [{expected}] but found '{keyword}' (" ++
      Literal.literal kind ++ s!") at position {position}"
  | .notEnoughArguments keyword least count =>
    s!"not enough arguments for command '{keyword}': expected at least {least}, got {count}"
  | .tooManyArguments keyword most count =>
    s!"too many arguments for command '{keyword}': expected at most {most}, got {count}"
  | .unsupportedReference keyword =>
    s!"references are not supported inside command '{keyword}'"
  | .emptyOptionKey position => s!"option key is empty at position {position}"
  | .emptyOptionValue key => s!"option value is empty for key '{key}'"
  | .invalidOptionValue key value reason =>
    s!"invalid value '{value}' for option '{key}': {reason}"
  | .invalidVersion value => s!"invalid semantic version '{value}'"
  | .referenceArity count position =>
    s!"reference at position {position} must have an id and an optional version, " ++
      s!"got {count} entries"
  | .nestedInReference position =>
    s!"commands are not allowed inside '#ref' (position {position})"
  | .invalidLiteral keyword value reason =>
    s!"invalid literal '{value}' for command '{keyword}': {reason}"
  | .shape keyword fault => fault.message keyword
  | .inputTooLong most length =>
    s!"input length {length} exceeds the configured maximum of {most}"
  | .depthExceeded most position =>
    s!"nesting depth exceeds the configured maximum of {most} at position {position}"

/-- The document of an error. -/
def document (error : ParseError) : Json :=
  .object
    [("keyword", (error.keyword?.map Json.string).getD .null),
      ("kind", .string error.classOf.word),
      ("message", .string error.message),
      ("position", (error.position?.map fun position => Json.int position).getD .null)]

end ParseError

end PolicyText
