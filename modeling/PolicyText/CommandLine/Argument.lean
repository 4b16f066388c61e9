import PolicyText.Literal

/-!
# Arguments of the command line

The arguments fall into items before anything is said about their meaning: words, flags, and options
together with their values.  A value is attached to its option by an equals sign or is the next
argument, which then must not begin with a hyphen; one hyphen alone is a word.  Letters behind
one hyphen are flags, one by one.  Behind a double hyphen that stands alone everything is a word.

An argument that is none of these becomes `Item.fault`, and it depends on the items before it
whether anybody comes to look at it.
-/

namespace PolicyText.CommandLine

/-- The options that have a value. -/
inductive ValueOption where
  | output
  | config
  | maxDepth
  | maxInputLength
  | file
  deriving DecidableEq, Repr

instance : Literal ValueOption where
  all := [.output, .config, .maxDepth, .maxInputLength, .file]
  literal
    | .output => "output"
    | .config => "config"
    | .maxDepth => "max-depth"
    | .maxInputLength => "max-input-len"
    | .file => "file"
  find_literal option := by cases option <;> decide

/-- The options without a value. -/
inductive Flag where
  | quiet
  | verbose
  | help
  | version
  deriving DecidableEq, Repr

instance : Literal Flag where
  all := [.quiet, .verbose, .help, .version]
  literal
    | .quiet => "quiet"
    | .verbose => "verbose"
    | .help => "help"
    | .version => "version"
  find_literal flag := by cases flag <;> decide

/-- The flag that a letter stands for. -/
def Flag.ofLetter? : Char → Option Flag
  | 'v' => some .verbose
  | 'h' => some .help
  | 'V' => some .version
  | _ => none

/-- The items of a command line. -/
inductive Item where
  | word (text : String)
  | option (option : ValueOption) (value : String)
  | flag (flag : Flag)
  | separator
  | fault
  deriving DecidableEq, Repr

/-- The outer form of an argument. -/
inductive ArgumentForm where
  | bare
  | separator
  | letters (letters : List Char)
  | named (name : String) (value : Option String)
  deriving DecidableEq, Repr

/-- The form of an argument. -/
def ArgumentForm.of (argument : String) : ArgumentForm :=
  match argument.toList with
  | ['-'] => .bare
  | ['-', '-'] => .separator
  | '-' :: '-' :: rest =>
    .named (String.ofList (rest.takeWhile (· != '=')))
      (if rest.contains '=' then some (String.ofList ((rest.dropWhile (· != '=')).drop 1))
        else none)
  | '-' :: rest => .letters rest
  | _ => .bare

/-- The item that a letter is. -/
def letterItem (letter : Char) : Item :=
  match Flag.ofLetter? letter with
  | some flag => .flag flag
  | none => .fault

/-- The item that a long name without a value is. -/
def flagItem (name : String) : Item :=
  match (Literal.ofLiteral? name : Option Flag) with
  | some flag => .flag flag
  | none => .fault

/-- The item that a long name with an attached value is. -/
def attachedItem (name value : String) : Item :=
  match (Literal.ofLiteral? name : Option ValueOption) with
  | some option => .option option value
  | none => .fault

/-- The items of the arguments. -/
def items : List String → List Item
  | [] => []
  | argument :: rest =>
    match ArgumentForm.of argument with
    | .bare => .word argument :: items rest
    | .separator => .separator :: rest.map .word
    | .letters letters => letters.map letterItem ++ items rest
    | .named name (some value) => attachedItem name value :: items rest
    | .named name none =>
      match (Literal.ofLiteral? name : Option ValueOption) with
      | none => flagItem name :: items rest
      | some option =>
        match rest with
        | [] => [.fault]
        | value :: others =>
          if ArgumentForm.of value = .bare then .option option value :: items others
          else [.fault]

end PolicyText.CommandLine
