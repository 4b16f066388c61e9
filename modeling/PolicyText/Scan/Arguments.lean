import PolicyText.Scan.Keyword
import PolicyText.Scan.Options
import PolicyText.Scan.Reference

/-!
# The arguments of a command in the text

Between the parentheses of a command stand tokens of content, option lists, references and other
commands, which again have arguments.  `Arguments` is this structure as it stands in the text.  It
ends at the closing parenthesis, or at the first place where the text cannot be scanned; such a
fault ends the arguments of every command that is still open there.

Nothing is said here about what the arguments mean or whether they are allowed: that is decided
along the structure, from left to right, so that of two things that are wrong the one that is met
first is reported.
-/

namespace PolicyText

/-- The arguments of a command from some place on. -/
inductive Arguments where
  /-- The closing parenthesis. -/
  | closed
  /-- A place where the text cannot be scanned. -/
  | fault (error : ParseError)
  | content (text : String) (rest : Arguments)
  | options (raw : RawOptions) (rest : Arguments)
  | reference (entries : List String) (rest : Arguments)
  /-- A command, the position of its keyword and its arguments. -/
  | command (position : Nat) (command : Command) (inner rest : Arguments)

/-- Arguments together with the place behind them, if they are closed.  The place lies behind that
at which they were looked for. -/
structure ScannedArguments (c : Cursor) where
  arguments : Arguments
  last : Except ParseError { d : Cursor // d.rest.length < c.rest.length }

namespace ScannedArguments

/-- Arguments that end at a fault. -/
def fault {c : Cursor} (error : ParseError) : ScannedArguments c :=
  ⟨.fault error, .error error⟩

/-- Arguments that were looked for further on. -/
def widen {c d : Cursor} (wrap : Arguments → Arguments)
    (h : d.rest.length ≤ c.rest.length) (scanned : ScannedArguments d) : ScannedArguments c :=
  { arguments := wrap scanned.arguments
    last :=
      match scanned.last with
      | .ok ⟨last, less⟩ => .ok ⟨last, Nat.lt_of_lt_of_le less h⟩
      | .error error => .error error }

end ScannedArguments

/-- Reads the arguments of a command up to its closing parenthesis; the keyword and its position
are those of the command.  A command that is closed before any parenthesis has opened was not
started. -/
def scanArgumentsFrom (keyword : String) (start : Nat) (started : Bool) (c : Cursor) :
    ScannedArguments c :=
  match hRest : c.rest with
  | [] => .fault (if started then .notCompleted keyword start else .notStarted keyword start)
  | d :: tail =>
    have hLess : (c.advance 1).rest.length < c.rest.length := Cursor.length_rest_advance_lt hRest
    match hClass : CharClass.of d with
    | .closing =>
      if started then
        { arguments := .closed
          last :=
            .ok ⟨(c.advance 1).skipFiller,
              Nat.lt_of_le_of_lt (Cursor.length_rest_skipFiller_le _) hLess⟩ }
      else .fault (.notStarted keyword start)
    | .opening =>
      (scanArgumentsFrom keyword start true (c.advance 1)).widen id (Nat.le_of_lt hLess)
    | .delimiter | .filler =>
      (scanArgumentsFrom keyword start started (c.advance 1)).widen id (Nat.le_of_lt hLess)
    | .content =>
      match hContent : scanContent ',' c with
      | .error error => .fault error
      | .ok (text, next) =>
        have hNext : next.rest.length < c.rest.length :=
          length_of_scanContent hRest (endsContent_of_content hClass) hContent
        (scanArgumentsFrom keyword start started next).widen (.content text)
          (Nat.le_of_lt hNext)
    | .sigil =>
      match hKeyword : scanKeyword c with
      | .error error => .fault error
      | .ok (.options, opened) =>
        match hOptions : scanOptions Command.options.keyword opened with
        | .error error => .fault error
        | .ok (raw, next) =>
          have hNext : next.rest.length < c.rest.length :=
            Nat.lt_trans (length_of_scanOptions hOptions) (length_of_scanKeyword hKeyword).1
          (scanArgumentsFrom keyword start started next).widen (.options raw)
            (Nat.le_of_lt hNext)
      | .ok (.reference, opened) =>
        match hReference : scanReference Command.reference.keyword opened with
        | .error error => .fault error
        | .ok (entries, next) =>
          have hNext : next.rest.length < c.rest.length :=
            Nat.lt_trans (length_of_scanReference hReference) (length_of_scanKeyword hKeyword).1
          (scanArgumentsFrom keyword start started next).widen (.reference entries)
            (Nat.le_of_lt hNext)
      | .ok (command, opened) =>
        have hOpened : opened.rest.length < c.rest.length := (length_of_scanKeyword hKeyword).1
        match scanArgumentsFrom command.keyword c.position false opened with
        | ⟨inner, .error error⟩ =>
          ⟨.command c.position command inner (.fault error), .error error⟩
        | ⟨inner, .ok ⟨next, hInner⟩⟩ =>
          have hNext : next.rest.length < c.rest.length := Nat.lt_trans hInner hOpened
          (scanArgumentsFrom keyword start started next).widen
            (.command c.position command inner) (Nat.le_of_lt hNext)
termination_by c.rest.length
decreasing_by all_goals assumption

/-- Reads the arguments of a command from a place behind its opening parenthesis. -/
def scanArguments (keyword : String) (start : Nat) (c : Cursor) : ScannedArguments c :=
  scanArgumentsFrom keyword start true c

end PolicyText
