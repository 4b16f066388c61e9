import PolicyText.Proofs.Build.Reachable
import PolicyText.Proofs.Json.Printed
import PolicyText.Proofs.Print.Literal

/-!
# Strings that are put into quotes

The text of a static string is the content of its command.  If the options say that it is to be a
JSON value, it is written as a JSON string instead: in quotes, with the quote, the backslash and
control characters escaped.  Nothing is lost by this, for the text is read as JSON to the string
that the content was (`Json.parse_quoted`), so that different contents stay different.

What a command is built of stands directly among its arguments: their contents, in the order of the
text, and the last of their option lists (`Arguments.contents`, `Arguments.lastOptions?`).  That
these are what the loop collects is one induction over arguments (`collect_direct`).  Among the
arguments of a static value that are collected there is no child, since the grammar lists none; so
one content and no constraint is all that a static string needs (`build_string`).
-/

namespace PolicyText

/-! ## Direct arguments -/

namespace Arguments

/-- The contents that stand directly among arguments. -/
def contents : Arguments → List String
  | .closed | .fault _ => []
  | .content text rest => text :: rest.contents
  | .options _ rest | .reference _ rest | .command _ _ _ rest => rest.contents

/-- The last of the option lists that stand directly among arguments. -/
def lastOptions? : Arguments → Option RawOptions
  | .closed | .fault _ => none
  | .options raw rest => some (rest.lastOptions?.getD raw)
  | .content _ rest | .reference _ rest | .command _ _ _ rest => rest.lastOptions?

/-- What the last option list says about whether a string is to be a JSON value. -/
def isJson? (arguments : Arguments) : Option Bool :=
  arguments.lastOptions?.bind fun raw => Options.flag? raw "isJson"

end Arguments

section Collecting

variable {limits : Limits} {depth : Nat} {arguments : Arguments} {args : Collected}

/-- The contents and the last option list among arguments are those that are collected, and without
a constraint among them there is none. -/
lemma collect_direct {parent : Command}
    (h : collect limits depth parent arguments = .ok args) :
    args.contents = arguments.contents ∧
      arguments.lastOptions?.map Options.ofRaw = args.options.map Except.ok ∧
      (arguments.hasConstraint = false → args.constraint = none) := by
  induction arguments generalizing args with
  | closed =>
    cases h
    exact ⟨rfl, rfl, fun _ => rfl⟩
  | fault error => cases h
  | content text rest ih =>
    rw [collect_content] at h
    obtain ⟨others, hRest, h⟩ := Except.bind_eq_ok.1 h
    cases h
    obtain ⟨hContents, hOptions, hConstraint⟩ := ih hRest
    exact ⟨congrArg (text :: ·) hContents, hOptions, hConstraint⟩
  | options raw rest ih =>
    rw [collect_options] at h
    obtain ⟨o, hRaw, h⟩ := Except.bind_eq_ok.1 h
    obtain ⟨others, hRest, h⟩ := Except.bind_eq_ok.1 h
    cases h
    obtain ⟨hContents, hOptions, hConstraint⟩ := ih hRest
    refine ⟨hContents, ?_, hConstraint⟩
    -- A list that follows replaces this one, in the text as among the arguments.
    simp only [Arguments.lastOptions?, Collected.consOptions, Option.map_some]
    cases hLater : rest.lastOptions? with
    | none =>
      rw [hLater, Option.map_none, eq_comm, Option.map_eq_none_iff] at hOptions
      rw [hOptions, Option.getD_none, Option.getD_none, hRaw]
    | some later =>
      rw [hLater, Option.map_some, eq_comm, Option.map_eq_some_iff] at hOptions
      obtain ⟨found, hFound, hLast⟩ := hOptions
      rw [hFound, Option.getD_some, Option.getD_some, hLast]
  | reference entries rest ih =>
    rw [collect_reference] at h
    obtain ⟨r, -, h⟩ := Except.bind_eq_ok.1 h
    obtain ⟨others, hRest, h⟩ := Except.bind_eq_ok.1 h
    cases h
    have hOthers := ih hRest
    exact hOthers
  | command position child inner rest _ ih =>
    obtain ⟨-, -, innerArgs, add, others, -, hComplete, hRest, rfl⟩ := collect_command_eq_ok.1 h
    obtain ⟨hContents, hOptions, hConstraint⟩ := ih hRest
    obtain ⟨⟨⟩, -, hAttach⟩ := Except.bind_eq_ok.1 hComplete
    obtain ⟨slot, rfl, -, rfl⟩ | ⟨node, -, -, rfl⟩ := Command.attach_eq_ok hAttach
    · refine ⟨hContents, hOptions, fun hNone => ?_⟩
      cases hNone
    · refine ⟨hContents, hOptions, fun hNone => hConstraint ?_⟩
      rw [Arguments.hasConstraint, Bool.or_eq_false_iff] at hNone
      exact hNone.2

lemma isJson_settings_of_collect {parent : Command}
    (h : collect limits depth parent arguments = .ok args) :
    args.settings.isJson = arguments.isJson? := by
  obtain ⟨-, hOptions, -⟩ := collect_direct h
  rw [Collected.settings, Arguments.isJson?]
  cases hLast : arguments.lastOptions? with
  | none =>
    rw [hLast, Option.map_none, eq_comm, Option.map_eq_none_iff] at hOptions
    rw [hOptions]
    rfl
  | some raw =>
    rw [hLast, Option.map_some, eq_comm, Option.map_eq_some_iff] at hOptions
    obtain ⟨o, hFound, hRaw⟩ := hOptions
    rw [hFound, Option.getD_some, Option.bind_some]
    unfold Options.ofRaw at hRaw
    split at hRaw <;> cases hRaw
    rfl

/-- No child stands among the arguments of a static value. -/
lemma children_of_collect_staticVariable {type : ValueType}
    (h : collect limits depth (.staticVariable type) arguments = .ok args) :
    args.children = [] := by
  induction arguments generalizing args with
  | closed =>
    cases h
    rfl
  | fault error => cases h
  | content text rest ih =>
    rw [collect_content] at h
    obtain ⟨others, hRest, h⟩ := Except.bind_eq_ok.1 h
    cases h
    have hNone := ih hRest
    exact hNone
  | options raw rest ih =>
    rw [collect_options] at h
    obtain ⟨o, -, h⟩ := Except.bind_eq_ok.1 h
    obtain ⟨others, hRest, h⟩ := Except.bind_eq_ok.1 h
    cases h
    have hNone := ih hRest
    exact hNone
  | reference entries rest =>
    -- No kind of reference has a meaning inside of a static value.
    rw [collect_reference] at h
    obtain ⟨r, hReference, -⟩ := Except.bind_eq_ok.1 h
    unfold Command.resolveReference at hReference
    split at hReference <;> cases hReference
  | command position child inner rest _ ih =>
    obtain ⟨hAdmits, -, innerArgs, add, others, -, hComplete, hRest, rfl⟩ :=
      collect_command_eq_ok.1 h
    have hConstraint : child = .constraint := by
      refine hAdmits.resolve_right fun hAccepts => ?_
      cases hAccepts
    obtain ⟨⟨⟩, -, hAttach⟩ := Except.bind_eq_ok.1 hComplete
    obtain ⟨slot, -, -, rfl⟩ | ⟨node, hOther, -, -⟩ := Command.attach_eq_ok hAttach
    · have hNone := ih hRest
      exact hNone
    · exact absurd hConstraint hOther

end Collecting

/-! ## The text of a string -/

lemma Json.parse_quoted (s : String) : Json.parse (Json.quoted s) = .ok (.string s) :=
  Json.parse_compact (.string s) rfl (by rw [Json.nesting]; decide)

/-- A static variable holds a string: its value is a text that is read as JSON to the string if it
is to be a JSON value, and is the string itself otherwise. -/
def StaticVariable.HoldsString (v : StaticVariable) (isJson : Option Bool) (s : String) : Prop :=
  ∃ text, v.value = .string text ∧
    (isJson = some true → Json.parse text.toList = .ok (.string s)) ∧
      (isJson ≠ some true → text = s)

lemma StaticVariable.HoldsString.eq {v w : StaticVariable} {s t : String}
    (hv : v.HoldsString (some true) s) (hw : w.HoldsString (some true) t)
    (h : v.value = w.value) : s = t := by
  obtain ⟨text, hText, hJson, -⟩ := hv
  obtain ⟨other, hOther, hOtherJson, -⟩ := hw
  rw [hText, hOther] at h
  cases h
  cases (hJson rfl).symm.trans (hOtherJson rfl)
  rfl

section Strings

variable {limits : Limits} {depth : Nat} {arguments : Arguments} {args : Collected} {s : String}

lemma build_string (h : collect limits depth (.staticVariable .string) arguments = .ok args)
    (hContents : arguments.contents = [s]) (hConstraint : args.constraint = none) :
    (Command.staticVariable .string).checkCount args = .ok () ∧
      ∃ v, (Command.staticVariable .string).build args = .ok (.variable (.static v)) ∧
        v.HoldsString arguments.isJson? s := by
  have hChildren := children_of_collect_staticVariable h
  have hJson := isJson_settings_of_collect h
  obtain ⟨hSame, -, -⟩ := collect_direct h
  obtain ⟨children, contents, options, constraint⟩ := args
  obtain rfl : children = [] := hChildren
  obtain rfl : constraint = none := hConstraint
  obtain rfl : contents = [s] := hSame.trans hContents
  refine ⟨rfl, ?_⟩
  simp only [Command.build, Command.kind, buildStaticVariable_single, StaticValue.read]
  refine ⟨_, rfl, _, rfl, fun hTrue => ?_, fun hOther => ?_⟩
  · have hSet : (options.getD {}).isJson = some true := hJson.trans hTrue
    rw [if_pos hSet, String.toList_ofList]
    exact Json.parse_quoted s
  · exact if_neg fun hTrue => hOther (hJson.symm.trans hTrue)

lemma direct_of_build_string {node : Node}
    (h : collect limits depth (.staticVariable .string) arguments = .ok args)
    (hBuild : (Command.staticVariable .string).build args = .ok node) :
    (∃ s, arguments.contents = [s]) ∧ args.constraint = none := by
  obtain ⟨v, hVariable, -⟩ := Except.map_eq_ok.1 hBuild
  obtain ⟨⟨⟩, -, hVariable⟩ := Except.bind_eq_ok.1 hVariable
  obtain ⟨⟨⟩, -, hVariable⟩ := Except.bind_eq_ok.1 hVariable
  obtain ⟨raw, hSingle, -⟩ := Except.bind_eq_ok.1 hVariable
  refine ⟨⟨raw, ?_⟩, (Command.constraint_of_build hBuild).resolve_right nofun⟩
  rw [← (collect_direct h).1]
  unfold Collected.singleContent at hSingle
  split at hSingle <;> cases hSingle
  assumption

lemma Occurrence.IsRead.holdsString {found : Occurrence} (h : found.IsRead limits)
    (hCommand : found.command = .staticVariable .string) :
    ∃ s args v, found.arguments.contents = [s] ∧
      collect limits found.depth found.command found.arguments = .ok args ∧
      found.command.build args = .ok (.variable (.static v)) ∧
      v.HoldsString found.arguments.isJson? s := by
  obtain ⟨args, hCollect, -, hBuilt⟩ := h
  obtain ⟨slot, hConstraint, -⟩ | ⟨node, hBuild⟩ := hBuilt
  · cases hCommand.symm.trans hConstraint
  rw [hCommand] at hCollect hBuild ⊢
  obtain ⟨⟨s, hContents⟩, hConstraint⟩ := direct_of_build_string hCollect hBuild
  obtain ⟨-, v, hVariable, hHolds⟩ := build_string hCollect hContents hConstraint
  exact ⟨s, args, v, hContents, hCollect, hVariable, hHolds⟩

end Strings

/-- **Strings that are to be JSON values lose nothing.**  Let the arguments of a static string be
collected.  If one content stands among them, and no constraint, the command is built as a static
variable: its value is a text that is read as JSON, as a whole, to the string that the content is,
if the last option list sets `isJson`, and is the content itself otherwise.  In every text that is
read, whatever its category and the limits, all static strings are built of one content in this way,
and so is the variable that is read if the text begins with one.  With `isJson` equal values come
from equal contents. -/
theorem isJson_lossless :
    (∀ (limits : Limits) (depth : Nat) (arguments : Arguments) (args : Collected) (s : String),
      collect limits depth (.staticVariable .string) arguments = .ok args →
      arguments.contents = [s] → arguments.hasConstraint = false →
        (Command.staticVariable .string).checkCount args = .ok () ∧
          ∃ v, (Command.staticVariable .string).build args = .ok (.variable (.static v)) ∧
            v.HoldsString arguments.isJson? s) ∧
      (∀ (category : Category) (limits : Limits) (text : String) (x : category.Entity),
        category.parse limits text = .ok x →
          (∀ found ∈ occurrences text, found.command = .staticVariable .string →
            ∃ s args v, found.arguments.contents = [s] ∧
              collect limits found.depth found.command found.arguments = .ok args ∧
              found.command.build args = .ok (.variable (.static v)) ∧
              v.HoldsString found.arguments.isJson? s) ∧
          ∀ found ∈ (occurrences text).head?, found.command = .staticVariable .string →
            ∃ s v, found.arguments.contents = [s] ∧
              category.node x = .variable (.static v) ∧
              v.HoldsString found.arguments.isJson? s) ∧
      ∀ (v w : StaticVariable) (s t : String), v.HoldsString (some true) s →
        w.HoldsString (some true) t → v.value = w.value → s = t := by
  refine ⟨?_, ?_, fun v w s t hv hw h => hv.eq hw h⟩
  · intro limits depth arguments args s h hContents hConstraint
    exact build_string h hContents ((collect_direct h).2.2 hConstraint)
  · intro category limits text x h
    refine ⟨fun found hFound hCommand =>
      (Category.parse_isRead h found hFound).holdsString hCommand, ?_⟩
    intro found hFound hCommand
    obtain ⟨-, last, hRead, -⟩ := parseNode_eq_ok.1 (Category.parse_eq_ok.1 h)
    obtain ⟨command, opened, hKeyword, -, -, args, hCollect, -, hBuild, -⟩ :=
      readExpression_eq_ok.1 hRead
    rw [occurrences_eq hKeyword] at hFound
    obtain rfl := Option.some.inj hFound
    obtain rfl : command = .staticVariable .string := hCommand
    obtain ⟨⟨s, hContents⟩, hConstraint⟩ := direct_of_build_string hCollect hBuild
    obtain ⟨-, v, hVariable, hHolds⟩ := build_string hCollect hContents hConstraint
    exact ⟨s, v, hContents, Except.ok.inj (hBuild.symm.trans hVariable), hHolds⟩

/-- A quote, a backslash and the end of a line in a string that is to be a JSON value; and a string
of which the last option list says nothing about it. -/
theorem isJson_lossless_texts :
    (∃ v text, Category.variable.parse {} "#str(\x60a\x22\\\n\x60, #opts(isJson=true))"
        = .ok (.static v) ∧
      v.value = .string text ∧ Json.parse text.toList = .ok (.string "a\x22\\\n")) ∧
      ∃ v, Category.variable.parse {} "#str(a, #opts(isJson=true), #opts(desc=d))"
          = .ok (.static v) ∧ v.value = .string "a" := by
  have hHolds {text s : String} {isJson : Option Bool}
      (hOk : (Category.variable.parse {} text).isOk = true)
      (hSays : ((occurrences text).head?.map fun found =>
        (found.command, found.arguments.contents, found.arguments.isJson?))
          = some (.staticVariable .string, [s], isJson)) :
      ∃ v, Category.variable.parse {} text = .ok (.static v) ∧ v.HoldsString isJson s := by
    obtain ⟨x, hx⟩ := Except.exists_eq_ok hOk
    obtain ⟨found, hFound, hSays⟩ := Option.map_eq_some_iff.1 hSays
    simp only [Prod.mk.injEq] at hSays
    obtain ⟨hCommand, hContents, rfl⟩ := hSays
    obtain ⟨content, v, hSame, hNode, hString⟩ :=
      (isJson_lossless.2.1 .variable {} text x hx).2 found hFound hCommand
    obtain ⟨rfl, -⟩ := List.cons_eq_cons.1 (hSame.symm.trans hContents)
    obtain rfl : x = .static v := Node.variable.inj hNode
    exact ⟨v, hx, hString⟩
  constructor
  · obtain ⟨v, hv, text, hText, hJson, -⟩ := hHolds
      (by decide +kernel : (Category.variable.parse {}
        "#str(\x60a\x22\\\n\x60, #opts(isJson=true))").isOk = true)
      (by decide +kernel : _ = some (_, ["a\x22\\\n"], some true))
    exact ⟨v, text, hv, hText, hJson rfl⟩
  · obtain ⟨v, hv, text, hText, -, hSame⟩ := hHolds
      (by decide +kernel : (Category.variable.parse {}
        "#str(a, #opts(isJson=true), #opts(desc=d))").isOk = true)
      (by decide +kernel : _ = some (_, ["a"], none))
    obtain rfl := hSame nofun
    exact ⟨v, hv, hText⟩

end PolicyText
