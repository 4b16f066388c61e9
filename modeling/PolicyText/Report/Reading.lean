import PolicyText.Parse
import PolicyText.Report.Event

/-!
# Reading with a report

The readers of expressions tell what they do.  `Reported` is a result, or the error that was met,
together with the events on the way to it; an error ends the report, and the events before it stay.

A reader that reports goes over the text once: a command is recognised, its arguments are read one
after the other, each of them with its own report, and it is built when its parenthesis is closed
(`reportArguments`).  `Category.report` and `Options.report` read whole texts.
-/

namespace PolicyText

/-- A result with the events on the way to it. -/
structure Reported (α : Type) where
  events : List Event
  result : Except ParseError α

namespace Reported

variable {α β : Type}

/-- A result without any events. -/
def of (result : Except ParseError α) : Reported α :=
  ⟨[], result⟩

/-- An event and what follows it. -/
def behind (event : Event) (reported : Reported α) : Reported α :=
  { reported with events := event :: reported.events }

/-- A step and, if it has a result, the next one. -/
def bind (first : Reported α) (next : α → Reported β) : Reported β :=
  match first.result with
  | .error error => ⟨first.events, .error error⟩
  | .ok a =>
    let second := next a
    ⟨first.events ++ second.events, second.result⟩

instance : Monad Reported where
  pure a := .of (.ok a)
  bind := bind

@[simp] theorem result_of (result : Except ParseError α) : (of result).result = result := rfl

@[simp] theorem result_pure (a : α) : (pure a : Reported α).result = .ok a := rfl

@[simp] theorem result_behind (event : Event) (reported : Reported α) :
    (reported.behind event).result = reported.result := rfl

@[simp] theorem result_bind (first : Reported α) (next : α → Reported β) :
    (first >>= next).result = first.result >>= fun a => (next a).result := by
  show (first.bind next).result = _
  unfold bind
  cases first.result <;> rfl

end Reported

/-! ## Options -/

/-- The unknown keys of an option list, as far as its entries are checked. -/
def Options.ignoredKeys : RawOptions → List String
  | [] => []
  | (key, value) :: rest =>
    match OptionForm.of? key with
    | none => key :: ignoredKeys rest
    | some form =>
      match form.check key value with
      | .error _ => []
      | .ok () => ignoredKeys rest

/-- Reads an option list. -/
def Options.reportRaw (raw : RawOptions) : Reported Options :=
  ⟨(ignoredKeys raw).map .ignoredOption, Options.ofRaw raw⟩

/-! ## Arguments -/

/-- Arguments together with the place behind them, which lies behind that at which they were looked
for. -/
abbrev GatheredArguments (c : Cursor) : Type :=
  Collected × { d : Cursor // d.rest.length < c.rest.length }

/-- Arguments that were looked for further on, with something in front of them. -/
def GatheredArguments.widen {c d : Cursor} (add : Collected → Collected)
    (h : d.rest.length < c.rest.length) (found : GatheredArguments d) : GatheredArguments c :=
  (add found.1, ⟨found.2.1, Nat.lt_trans found.2.2 h⟩)

/-- Reads the arguments of a command at a depth from a place behind its opening parenthesis on. -/
def reportArguments (limits : Limits) (depth : Nat) (command : Command) (start : Nat)
    (c : Cursor) : Reported (GatheredArguments c) :=
  match hRest : c.rest with
  | [] => .of (.error (.notCompleted command.keyword start))
  | d :: tail =>
    have hLess : (c.advance 1).rest.length < c.rest.length := Cursor.length_rest_advance_lt hRest
    match hClass : CharClass.of d with
    | .closing =>
      pure
        ({}, ⟨(c.advance 1).skipFiller,
          Nat.lt_of_le_of_lt (Cursor.length_rest_skipFiller_le _) hLess⟩)
    | .opening | .delimiter | .filler => do
      let found ← reportArguments limits depth command start (c.advance 1)
      pure (found.widen id hLess)
    | .content =>
      match hContent : scanContent ',' c with
      | .error error => .of (.error error)
      | .ok (text, next) => do
        have hNext : next.rest.length < c.rest.length :=
          length_of_scanContent hRest (endsContent_of_content hClass) hContent
        let found ← reportArguments limits depth command start next
        pure (found.widen (Collected.consContent text) hNext)
    | .sigil =>
      match hKeyword : scanKeyword c with
      | .error error => .of (.error error)
      | .ok (.options, opened) =>
        .behind (.resolved .options c.position) <|
          match hOptions : scanOptions Command.options.keyword opened with
          | .error error => .of (.error error)
          | .ok (raw, next) => do
            have hNext : next.rest.length < c.rest.length :=
              Nat.lt_trans (length_of_scanOptions hOptions) (length_of_scanKeyword hKeyword).1
            let options ← Options.reportRaw raw
            let found ← reportArguments limits depth command start next
            pure (found.widen (Collected.consOptions options) hNext)
      | .ok (.reference, opened) =>
        .behind (.resolved .reference c.position) <|
          match hReference : scanReference Command.reference.keyword opened with
          | .error error => .of (.error error)
          | .ok (entries, next) => do
            have hNext : next.rest.length < c.rest.length :=
              Nat.lt_trans (length_of_scanReference hReference) (length_of_scanKeyword hKeyword).1
            let reference ← .of (command.resolveReference entries)
            let found ← reportArguments limits depth command start next
            pure (found.widen (Collected.consChild (.reference reference)) hNext)
      | .ok (child, opened) =>
        have hOpened : (opened.advance 1).rest.length < c.rest.length :=
          Nat.lt_of_le_of_lt (Cursor.length_rest_advance_le 1 opened)
            (length_of_scanKeyword hKeyword).1
        .behind (.resolved child c.position) <|
          if child = .constraint ∨ command.accepts child.kind then do
            .of (limits.enter (depth + 1) c.position)
            let ⟨innerArgs, next⟩ ← .behind (.entered child c.position) <|
              reportArguments limits (depth + 1) child c.position (opened.advance 1)
            have hNext : next.1.rest.length < c.rest.length := Nat.lt_trans next.2 hOpened
            .of (child.checkCount innerArgs)
            let add ← .of (child.attach innerArgs)
            let found ← reportArguments limits depth command start next.1
            pure (found.widen add hNext)
          else .of (.error (command.unexpectedChild child c.position))
termination_by c.rest.length
decreasing_by all_goals assumption

/-! ## Whole texts -/

/-- Reads an expression of a category. -/
def Category.reportNode (category : Category) (limits : Limits) (text : List Char) :
    Reported Node := do
  .of (limits.checkLength text)
  let c := (Cursor.start text).skipFiller
  let (command, opened) ← .of (scanKeyword c)
  .behind (.resolved command c.position) <|
    if category.accepts command.kind then do
      .of (limits.enter 1 c.position)
      let ⟨args, last⟩ ← .behind (.entered command c.position) <|
        reportArguments limits 1 command c.position (opened.advance 1)
      .of (command.checkCount args)
      let node ← .of (command.build args)
      .of last.1.expectEnd
      .behind (.readExpression category node.description text.length) <| pure node
    else .of (.error (.unexpectedRoot category.description command.keyword command.kind))

/-- Reads an option list that stands alone. -/
def Options.report (limits : Limits) (text : List Char) : Reported Options := do
  .of (limits.checkLength text)
  let c := (Cursor.start text).skipFiller
  let (command, opened) ← .of (scanKeyword c)
  .behind (.resolved command c.position) <|
    if command = .options then do
      let (raw, last) ← .of (scanOptions command.keyword opened)
      .of last.expectEnd
      let options ← Options.reportRaw raw
      .behind (.readOptions text.length) <| pure options
    else .of (.error (.unexpectedRoot "options" command.keyword command.kind))

/-- The document of an entity of a category. -/
def Category.document? : Category → Node → Option Json
  | .variable, .variable v => some v.document
  | .resolver, .resolver r => some r.document
  | .condition, .condition c => some c.document
  | .action, .action a => some a.document
  | .policy, .policy p => some p.document
  | _, _ => none

/-- Reads an expression of a category as a document. -/
def Category.report (category : Category) (limits : Limits) (text : String) : Reported Json := do
  let node ← category.reportNode limits text.toList
  match category.document? node with
  | some document => pure document
  | none => .of (.error (category.mismatch node))

end PolicyText
