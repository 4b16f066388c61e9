import PolicyText.Proofs.Scan.Keyword
import PolicyText.Proofs.Scan.OptionList
import PolicyText.Proofs.Scan.Reference
import PolicyText.Scan.Arguments

/-!
# The loop over arguments

The loop carries evidence of its progress, which is in the way when one asks what it reads.
`readArguments` is the loop without the evidence, from behind the opening parenthesis of a command
on; that there is one where the loop begins has been seen with the keyword
(`outcome_scanArgumentsFrom`), so that every command is started.

`readArguments_cons` is the one equation for it: the loop looks at one character and goes on behind
it, or behind the argument that begins there.  The lemmas that follow are the cases of this
equation.  `StepsTo` is what they have in common: where the loop goes on, what it has met stands in
front of what it finds from there on.
-/

namespace PolicyText

/-- Arguments and the place behind them, without the evidence that this place lies further on. -/
def ScannedArguments.outcome {c : Cursor} (scanned : ScannedArguments c) :
    Arguments × Except ParseError Cursor :=
  (scanned.arguments, scanned.last.map Subtype.val)

/-- Reads the arguments of a command: the arguments and the place behind them. -/
def readArguments (keyword : String) (start : Nat) (c : Cursor) :
    Arguments × Except ParseError Cursor :=
  (scanArguments keyword start c).outcome

lemma ScannedArguments.outcome_widen {c d : Cursor} (wrap : Arguments → Arguments)
    (h : d.rest.length ≤ c.rest.length) (scanned : ScannedArguments d) :
    (scanned.widen wrap h).outcome = scanned.outcome.map wrap id := by
  rcases scanned with ⟨arguments, error | last⟩ <;> rfl

lemma readArguments_nil (keyword : String) (start position : Nat) :
    readArguments keyword start ⟨position, []⟩
      = (.fault (.notCompleted keyword start), .error (.notCompleted keyword start)) := by
  rw [readArguments, scanArguments, scanArgumentsFrom]
  rfl

/-- From the opening parenthesis of a command on, its arguments are those that are found behind the
parenthesis. -/
lemma outcome_scanArgumentsFrom {c : Cursor} (hOpening : ∃ tail, c.rest = '(' :: tail)
    (keyword : String) (start : Nat) :
    (scanArgumentsFrom keyword start false c).outcome
      = readArguments keyword start (c.advance 1) := by
  obtain ⟨tail, hTail⟩ := hOpening
  rw [scanArgumentsFrom]
  split
  · rename_i hRest
    rw [hTail] at hRest
    cases hRest
  rename_i hRest
  rw [hTail] at hRest
  cases hRest
  exact ScannedArguments.outcome_widen id _ (scanArgumentsFrom keyword start true (c.advance 1))

/-- The loop looks at one character and goes on behind it, or behind the argument that it begins. -/
lemma readArguments_cons (keyword : String) (start position : Nat) (d : Char) (tail : List Char) :
    readArguments keyword start ⟨position, d :: tail⟩ =
      match CharClass.of d with
      | .closing => (.closed, .ok (Cursor.skipFiller ⟨position + 1, tail⟩))
      | .delimiter | .filler | .opening => readArguments keyword start ⟨position + 1, tail⟩
      | .content =>
        match scanContent ',' ⟨position, d :: tail⟩ with
        | .error error => (.fault error, .error error)
        | .ok (text, next) => (readArguments keyword start next).map (.content text) id
      | .sigil =>
        match scanKeyword ⟨position, d :: tail⟩ with
        | .error error => (.fault error, .error error)
        | .ok (.options, opened) =>
          match scanOptions Command.options.keyword opened with
          | .error error => (.fault error, .error error)
          | .ok (raw, next) => (readArguments keyword start next).map (.options raw) id
        | .ok (.reference, opened) =>
          match scanReference Command.reference.keyword opened with
          | .error error => (.fault error, .error error)
          | .ok (entries, next) => (readArguments keyword start next).map (.reference entries) id
        | .ok (command, opened) =>
          match readArguments command.keyword position (opened.advance 1) with
          | (inner, .error error) =>
            (.command position command inner (.fault error), .error error)
          | (inner, .ok next) =>
            (readArguments keyword start next).map (.command position command inner) id := by
  rw [readArguments, scanArguments, scanArgumentsFrom]
  split
  · rename_i hRest
    cases hRest
  rename_i hRest
  cases hRest
  split <;> rename_i hClass <;> simp only [hClass]
  · rfl
  · rw [ScannedArguments.outcome_widen]; rfl
  · rw [ScannedArguments.outcome_widen]; rfl
  · rw [ScannedArguments.outcome_widen]; rfl
  · split <;> rename_i hContent <;> simp only [hContent]
    · rfl
    · rw [ScannedArguments.outcome_widen]; rfl
  · split <;> rename_i hKeyword <;> simp only [hKeyword]
    · rfl
    · split <;> rename_i hOptions <;> simp only [hOptions]
      · rfl
      · rw [ScannedArguments.outcome_widen]; rfl
    · split <;> rename_i hReference <;> simp only [hReference]
      · rfl
      · rw [ScannedArguments.outcome_widen]; rfl
    · rw [← outcome_scanArgumentsFrom (length_of_scanKeyword hKeyword).2]
      split <;> rename_i hInner <;> simp only [hInner]
      · rfl
      · rw [ScannedArguments.outcome_widen]; rfl

/-! ## The cases of the loop -/

variable {keyword : String} {start position : Nat} {d : Char} {tail : List Char}
  {opened next : Cursor}

lemma readArguments_closing :
    readArguments keyword start ⟨position, ')' :: tail⟩
      = (.closed, .ok (Cursor.skipFiller ⟨position + 1, tail⟩)) :=
  readArguments_cons keyword start position ')' tail

lemma passesOver_readArguments (keyword : String) (start : Nat) :
    Cursor.PassesOver separatesArguments (readArguments keyword start) := by
  intro position c rest hc
  rw [readArguments_cons]
  rcases class_of_separatesArguments hc with hClass | hClass <;> rw [hClass]

lemma readArguments_content {text : String} (hClass : CharClass.of d = .content)
    (hContent : scanContent ',' ⟨position, d :: tail⟩ = .ok (text, next)) :
    readArguments keyword start ⟨position, d :: tail⟩
      = (readArguments keyword start next).map (.content text) id := by
  rw [readArguments_cons, hClass, hContent]

lemma readArguments_options {raw : RawOptions} (hClass : CharClass.of d = .sigil)
    (hKeyword : scanKeyword ⟨position, d :: tail⟩ = .ok (.options, opened))
    (hOptions : scanOptions Command.options.keyword opened = .ok (raw, next)) :
    readArguments keyword start ⟨position, d :: tail⟩
      = (readArguments keyword start next).map (.options raw) id := by
  simp only [readArguments_cons, hClass, hKeyword, hOptions]

lemma readArguments_reference {entries : List String} (hClass : CharClass.of d = .sigil)
    (hKeyword : scanKeyword ⟨position, d :: tail⟩ = .ok (.reference, opened))
    (hReference : scanReference Command.reference.keyword opened = .ok (entries, next)) :
    readArguments keyword start ⟨position, d :: tail⟩
      = (readArguments keyword start next).map (.reference entries) id := by
  simp only [readArguments_cons, hClass, hKeyword, hReference]

lemma readArguments_command {command : Command} {inner : Arguments}
    (hClass : CharClass.of d = .sigil) (hOptions : command ≠ .options)
    (hReference : command ≠ .reference)
    (hKeyword : scanKeyword ⟨position, d :: tail⟩ = .ok (command, opened))
    (hInner : readArguments command.keyword position (opened.advance 1) = (inner, .ok next)) :
    readArguments keyword start ⟨position, d :: tail⟩
      = (readArguments keyword start next).map (.command position command inner) id := by
  cases command with
  | options => exact absurd rfl hOptions
  | reference => exact absurd rfl hReference
  | _ => simp only [readArguments_cons, hClass, hKeyword, hInner]

lemma readArguments_unclosed {command : Command} {inner : Arguments} {error : ParseError}
    (hClass : CharClass.of d = .sigil) (hOptions : command ≠ .options)
    (hReference : command ≠ .reference)
    (hKeyword : scanKeyword ⟨position, d :: tail⟩ = .ok (command, opened))
    (hInner : readArguments command.keyword position (opened.advance 1) = (inner, .error error)) :
    readArguments keyword start ⟨position, d :: tail⟩
      = (.command position command inner (.fault error), .error error) := by
  cases command with
  | options => exact absurd rfl hOptions
  | reference => exact absurd rfl hReference
  | _ => simp only [readArguments_cons, hClass, hKeyword, hInner]

/-! ## One step of the loop -/

/-- The loop over arguments takes a step from one place to another: what it finds from the first on
is made of what it finds from the second on. -/
def StepsTo (wrap : Arguments → Arguments) (c next : Cursor) : Prop :=
  ∀ keyword start,
    readArguments keyword start c = (readArguments keyword start next).map wrap id

section Steps

variable {c : Cursor}

lemma stepsTo_passed
    (hClass : CharClass.of d = .delimiter ∨ CharClass.of d = .filler ∨ CharClass.of d = .opening)
    (position : Nat) (tail : List Char) :
    StepsTo id ⟨position, d :: tail⟩ ⟨position + 1, tail⟩ := by
  intro keyword start
  rw [readArguments_cons, Prod.map_id]
  rcases hClass with hClass | hClass | hClass <;> rw [hClass] <;> rfl

lemma stepsTo_content {text : String} (hClass : CharClass.of d = .content)
    (hContent : scanContent ',' ⟨position, d :: tail⟩ = .ok (text, next)) :
    StepsTo (.content text) ⟨position, d :: tail⟩ next := fun _ _ =>
  readArguments_content hClass hContent

lemma stepsTo_options {raw : RawOptions} (hKeyword : scanKeyword c = .ok (.options, opened))
    (hOptions : scanOptions Command.options.keyword opened = .ok (raw, next)) :
    StepsTo (.options raw) c next := by
  obtain ⟨position, d, tail, rfl, hClass⟩ := exists_cons_of_scanKeyword hKeyword
  exact fun _ _ => readArguments_options hClass hKeyword hOptions

lemma stepsTo_reference {entries : List String}
    (hKeyword : scanKeyword c = .ok (.reference, opened))
    (hReference : scanReference Command.reference.keyword opened = .ok (entries, next)) :
    StepsTo (.reference entries) c next := by
  obtain ⟨position, d, tail, rfl, hClass⟩ := exists_cons_of_scanKeyword hKeyword
  exact fun _ _ => readArguments_reference hClass hKeyword hReference

lemma stepsTo_command {child : Command} {inner : Arguments} (hOptions : child ≠ .options)
    (hReference : child ≠ .reference) (hKeyword : scanKeyword c = .ok (child, opened))
    (hInner : readArguments child.keyword c.position (opened.advance 1) = (inner, .ok next)) :
    StepsTo (.command c.position child inner) c next := by
  obtain ⟨position, d, tail, rfl, hClass⟩ := exists_cons_of_scanKeyword hKeyword
  exact fun _ _ => readArguments_command hClass hOptions hReference hKeyword hInner

end Steps

end PolicyText
