import PolicyText.CommandLine.Run
import PolicyText.Proofs.CommandLine.Line
import PolicyText.Proofs.Json.Layout
import PolicyText.Proofs.Report.Reading

/-!
# The command line and the readers

What a command line does is what the reader of its target does with the text.  The settings of a
file and the limits on the line make the limits under which the text is read
(`Line.limitsOver`), the source of the text is the one that counts most, and then the two tasks
differ only in what they write of an object that has been read (`respond_faithful`).

The log is written in front of anything else on the standard error stream.  Both tasks have the same
one (`Line.log`), and there is none unless the environment asks for one
(`Surroundings.log_eq_empty`).

Not said here: what a command line does for which there is no text or no settings, or which is
verbose.
-/

namespace PolicyText.CommandLine

/-! ## Targets -/

namespace Target

/-- The objects that are read as a target. -/
def Object : Target → Type
  | .variable => Variable
  | .resolver => Resolver
  | .condition => Condition
  | .action => Action
  | .policy => Policy
  | .options => Options

/-- The reader of a target. -/
def read : (target : Target) → Limits → String → Except ParseError target.Object
  | .variable => Variable.parse
  | .resolver => Resolver.parse
  | .condition => Condition.parse
  | .action => Action.parse
  | .policy => Policy.parse
  | .options => Options.parse

/-- The document of an object. -/
def document : (target : Target) → target.Object → Json
  | .variable => Variable.document
  | .resolver => Resolver.document
  | .condition => Condition.document
  | .action => Action.document
  | .policy => Policy.document
  | .options => Options.document

lemma parse_eq (target : Target) (limits : Limits) (text : String) :
    target.parse limits text = (target.read limits text).map target.document := by
  cases target <;> rfl

lemma result_report (target : Target) (limits : Limits) (text : String) :
    (target.report limits text).result = target.parse limits text := by
  cases target with
  | options =>
    rw [report, Reported.result_bind, result_reportOptions]
    rfl
  | _ =>
    rw [report, PolicyText.result_report]
    simp only [parse, Variable.parse, Resolver.parse, Condition.parse, Action.parse, Policy.parse]
    split
    · rename_i hNode
      rw [hNode]
      rfl
    · rename_i node hOther hNode
      rw [hNode]
      cases node <;> first | rfl | exact absurd rfl (hOther _)
    · rename_i hNode
      rw [hNode]
      rfl

end Target

/-! ## The log -/

/-- Nothing is logged by a line that is not verbose if the environment sets no filter for events, or
one that lets none of them through. -/
lemma Surroundings.log_eq_empty {s : Surroundings}
    (hFilter : ∀ filter ∈ s.logFilter, ∀ event, filter event = false) (events : List Event) :
    s.log false events = "" := by
  have hNone (event : Event) : s.logs false event = false := by
    rw [logs, if_neg Bool.false_ne_true]
    cases hSet : s.logFilter with
    | none => exact decide_eq_false (Nat.not_le.2 event.warn_lt_level)
    | some filter => exact hFilter filter hSet event
  rw [log, List.filter_eq_nil_iff.2 fun event _ => by simp [hNone event]]
  rfl

/-! ## What is read -/

namespace Line

variable (line : Line) (s : Surroundings)

/-- The settings of a line are read: those of the file that it names, or else none. -/
def ReadsSettings (settings : Limits) : Prop :=
  match line.value? .config with
  | some path => ∃ content, s.file path = .ok content ∧ Limits.ofSettings? content = some settings
  | none => settings = {}

/-- The text of a line is read: the expression on it, or else that of the file that it names, or
else that of the standard input. -/
def ReadsText (text : String) : Prop :=
  match line.expression, line.value? .file with
  | some expression, _ => text = expression
  | none, some path => s.file path = .ok text
  | none, none => s.standardInput = .ok text

/-- The limits for the text: each is the one on the line, or else that of the settings. -/
def limitsOver (settings : Limits) : Limits :=
  { maxDepth := (line.limit? .maxDepth).or settings.maxDepth
    maxInputLength := (line.limit? .maxInputLength).or settings.maxInputLength }

/-- What is said about an error, on a line that says how. -/
def told (e : ParseError) : String :=
  match line.format, line.quiet with
  | .json, _ => e.document.prettyString ++ "\n"
  | .text, true => ""
  | .text, false => "parse error: " ++ e.message ++ "\n"

/-- The log for a text that is read under limits. -/
def log (limits : Limits) (text : String) : String :=
  s.log false (.configured limits :: (line.target.report limits text).events)

variable {line s}

lemma told_eq (line : Line) (e : ParseError) :
    reportError line.format line.quiet e = line.told e := by
  unfold reportError told
  cases line.format with
  | json => rfl
  | text => cases line.quiet <;> rfl

lemma readLimits_eq {settings : Limits} (task : Task) (hSettings : line.ReadsSettings s settings) :
    (line.invocation task).readLimits s = .ok (line.limitsOver settings) := by
  unfold ReadsSettings at hSettings
  rw [Invocation.readLimits, invocation]
  split at hSettings
  · rename_i path hPath
    obtain ⟨content, hFile, hContent⟩ := hSettings
    simp only [hPath, readSettings, hFile, hContent]
    rfl
  · rename_i hNone
    subst hSettings
    simp only [hNone, limitsOver, Option.or_none]

lemma readSource_eq {text : String} (task : Task) (hText : line.ReadsText s text) :
    (line.invocation task).source.read s = .ok text := by
  show line.source.read s = .ok text
  rw [ReadsText] at hText
  rw [source]
  cases hExpression : line.expression with
  | some expression =>
    simp only [hExpression] at hText
    rw [hText]
    rfl
  | none =>
    cases hFile : line.value? .file <;> simp only [hExpression, hFile] at hText <;>
      simp only [Source.read, hText, Except.mapError]

/-- What a line does is decided by the reader of its target. -/
lemma respond_eq {settings : Limits} {text : String} (task : Task)
    (hSettings : line.ReadsSettings s settings) (hText : line.ReadsText s text) :
    respond s (line.arguments task)
      = match line.target.read (line.limitsOver settings) text with
        | .error e =>
          { code := 1, errors := line.log s (line.limitsOver settings) text ++ line.told e }
        | .ok x =>
          { code := 0
            output := reportDocument line.format line.quiet (line.target.document x) task
            errors := line.log s (line.limitsOver settings) text } := by
  have hReported := line.target.result_report (line.limitsOver settings) text
  rw [respond, line.ofArguments?_arguments]
  simp only [Invocation.run, readLimits_eq task hSettings, readSource_eq task hText]
  dsimp only [invocation]
  rw [hReported, Target.parse_eq]
  cases line.target.read (line.limitsOver settings) text with
  | error e =>
    simp only [Except.map, Invocation.judge, Outcome.behindLog, line.told_eq]
    rfl
  | ok x =>
    simp only [Except.map, Invocation.judge, Outcome.behindLog, String.append_empty]
    rfl

lemma shows_told {e : ParseError} (hFormat : line.format = .json) :
    e.document.Shows (line.told e) := by
  rw [told, hFormat]
  exact Json.shows_pretty e.document

end Line

/-- A file of settings, a file with a negation, and something else on the standard input. -/
def sampleSurroundings : Surroundings where
  file path :=
    if path = "limits.toml" then .ok "[parser]\nmax_depth = 1\n"
    else if path = "policy.txt" then .ok "*not(#true())"
    else .error .notFound
  standardInput := .ok "#null("

/-- The depth that is wanted replaces that of the settings. -/
def deepLine : Line where
  before := [.quiet, .attached .maxDepth "2"]
  behindTask := [.apart .config "limits.toml"]
  target := .condition
  behindTarget := [.apart .file "policy.txt"]

/-- The depth of the settings holds, and the expression stands on the line. -/
def shallowLine : Line where
  before := [.apart .output "json", .apart .config "limits.toml"]
  target := .condition
  expression := some "*any(#ref(a), *not(#true()))"
  behindExpression := [.attached .maxInputLength "+100"]

/-- With a filter for the level `debug` a text that is read leaves two lines in the log. -/
example :
    deepLine.log { sampleSurroundings with logFilter := some EventLevel.debug.admits }
        ⟨some 2, none⟩ "*not(#true())"
      = "DEBUG parser configured parser_config=ParserConfig \x7b max_depth: Some(2), " ++
        "max_input_len: None \x7d\n" ++
        "DEBUG parsed expression category=\"a condition\" object=\"condition\" len=13\n" := by
  decide +kernel

end PolicyText.CommandLine
