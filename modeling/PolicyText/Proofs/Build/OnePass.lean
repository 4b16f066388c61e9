import PolicyText.Proofs.Build.Located
import PolicyText.Proofs.Row.Meaning

/-!
# Arguments in one pass

The arguments of a command are scanned to their end before anything is collected from them.  A
reader that goes over the text once does both at a time: when an argument has been scanned, it is
collected at once, and a command is counted and built as soon as its parenthesis is closed.

`gatherFrom` gives what has been collected together with the place behind the arguments, and
`gatherChild` does so for one argument that begins with a sigil.  That they are read in one pass is
what the equations say: an argument is gathered, and then what follows it (`gatherFrom_content`,
`gatherFrom_sigil`).  For this it has to be known that arguments from which something is collected
are closed (`ReadsArguments.exists_last`), so that of an error in an argument and the missing
parenthesis behind it the one that is met first is reported.

What is gathered ends further on in the text (`ahead_of_gatherArguments`, `ahead_of_gatherChild`).
-/

namespace PolicyText

variable {limits : Limits} {depth : Nat}

/-! ## Gathering -/

/-- Reads and collects the arguments of a command from a place on: the arguments and the place
behind them. -/
def gatherFrom (limits : Limits) (depth : Nat) (command : Command) (start : Nat) (c : Cursor) :
    Except ParseError (Collected × Cursor) := do
  let args ← collect limits depth command (readArguments command.keyword start c).1
  let last ← (readArguments command.keyword start c).2
  .ok (args, last)

/-- Reads and collects the arguments of the command at a depth whose parenthesis opens at a place,
and counts them. -/
def gatherArguments (limits : Limits) (depth : Nat) (command : Command) (start : Nat)
    (opened : Cursor) : Except ParseError (Collected × Cursor) := do
  limits.enter depth start
  let (args, last) ← gatherFrom limits depth command start (opened.advance 1)
  command.checkCount args
  .ok (args, last)

/-- Reads the option list, the reference or the command at a place among the arguments of a command:
what it contributes and the place behind it. -/
def gatherChild (limits : Limits) (depth : Nat) (parent : Command) (c : Cursor) :
    Except ParseError (Piece × Cursor) := do
  let (child, opened) ← scanKeyword c
  match child with
  | .options => do
    let (raw, next) ← scanOptions child.keyword opened
    let options ← Options.ofRaw raw
    .ok (.options options, next)
  | .reference => do
    let (entries, next) ← scanReference child.keyword opened
    let reference ← parent.resolveReference entries
    .ok (.child (.reference reference), next)
  | child =>
    if parent.admits child then do
      let (args, next) ← gatherArguments limits (depth + 1) child c.position opened
      let piece ← child.piece args
      .ok (piece, next)
    else .error (parent.unexpectedChild child c.position)

lemma gatherChild_command {parent child : Command} {c opened : Cursor}
    (hOptions : child ≠ .options) (hReference : child ≠ .reference)
    (hKeyword : scanKeyword c = .ok (child, opened)) :
    gatherChild limits depth parent c =
      if parent.admits child then do
        let (args, next) ← gatherArguments limits (depth + 1) child c.position opened
        let piece ← child.piece args
        .ok (piece, next)
      else .error (parent.unexpectedChild child c.position) := by
  rw [gatherChild, hKeyword, Except.ok_bind]
  dsimp only
  split
  · exact absurd rfl hOptions
  · exact absurd rfl hReference
  · rfl

/-! ## One argument after the other -/

/-- Arguments that have been collected are closed. -/
lemma ReadsArguments.exists_last {keyword : String} {start : Nat} {c : Cursor}
    {arguments : Arguments} {last : Except ParseError Cursor}
    (h : ReadsArguments keyword start c arguments last) {command : Command} {args : Collected}
    (hCollect : collect limits depth command arguments = .ok args) : ∃ d, last = .ok d := by
  induction h generalizing args with
  | ended | stuck => cases hCollect
  | closing => exact ⟨_, rfl⟩
  | passed _ _ ih => exact ih hCollect
  | content _ _ _ ih =>
    rw [collect_content] at hCollect
    obtain ⟨others, hRest, -⟩ := Except.bind_eq_ok.1 hCollect
    exact ih hRest
  | options _ _ _ _ ih =>
    rw [collect_options] at hCollect
    obtain ⟨o, -, hCollect⟩ := Except.bind_eq_ok.1 hCollect
    obtain ⟨others, hRest, -⟩ := Except.bind_eq_ok.1 hCollect
    exact ih hRest
  | reference _ _ _ _ ih =>
    rw [collect_reference] at hCollect
    obtain ⟨r, -, hCollect⟩ := Except.bind_eq_ok.1 hCollect
    obtain ⟨others, hRest, -⟩ := Except.bind_eq_ok.1 hCollect
    exact ih hRest
  | unclosed =>
    obtain ⟨-, -, innerArgs, add, others, -, -, hRest, -⟩ := collect_command_eq_ok.1 hCollect
    cases hRest
  | command _ _ _ _ _ _ _ ih =>
    obtain ⟨-, -, innerArgs, add, others, -, -, hRest, -⟩ := collect_command_eq_ok.1 hCollect
    exact ih hRest

section Loop

variable {command : Command} {start position : Nat} {d : Char} {tail : List Char}

lemma gatherFrom_nil :
    gatherFrom limits depth command start ⟨position, []⟩
      = .error (.notCompleted command.keyword start) := by
  rw [gatherFrom, readArguments_nil]
  rfl

lemma gatherFrom_closing (hClass : CharClass.of d = .closing) :
    gatherFrom limits depth command start ⟨position, d :: tail⟩
      = .ok ({}, Cursor.skipFiller ⟨position + 1, tail⟩) := by
  rw [gatherFrom, readArguments_cons, hClass]
  rfl

lemma gatherFrom_passed
    (hClass : CharClass.of d = .delimiter ∨ CharClass.of d = .filler ∨ CharClass.of d = .opening) :
    gatherFrom limits depth command start ⟨position, d :: tail⟩
      = gatherFrom limits depth command start ⟨position + 1, tail⟩ := by
  rw [gatherFrom, readArguments_cons]
  obtain hClass | hClass | hClass := hClass <;> rw [hClass] <;> rfl

lemma gatherFrom_content (hClass : CharClass.of d = .content) :
    gatherFrom limits depth command start ⟨position, d :: tail⟩ = (do
      let (text, next) ← scanContent ',' ⟨position, d :: tail⟩
      let (args, last) ← gatherFrom limits depth command start next
      .ok (args.consContent text, last)) := by
  rw [gatherFrom, readArguments_cons, hClass]
  dsimp only
  cases scanContent ',' ⟨position, d :: tail⟩ with
  | error e => rfl
  | ok found =>
    obtain ⟨text, next⟩ := found
    dsimp only [Prod.map]
    rw [collect_content, Except.ok_bind, gatherFrom]
    simp only [bind_assoc]
    rfl

/-- A command of which nothing special is known is gathered with its own arguments. -/
lemma gatherFrom_command (hClass : CharClass.of d = .sigil) {child : Command} {opened : Cursor}
    (hOptions : child ≠ .options) (hReference : child ≠ .reference)
    (hKeyword : scanKeyword ⟨position, d :: tail⟩ = .ok (child, opened)) :
    gatherFrom limits depth command start ⟨position, d :: tail⟩ =
      if command.admits child then do
        let (inner, next) ← gatherArguments limits (depth + 1) child position opened
        let piece ← child.piece inner
        let (args, last) ← gatherFrom limits depth command start next
        .ok (piece.add args, last)
      else .error (command.unexpectedChild child position) := by
  have hRead := readsArguments child.keyword position (opened.advance 1)
  rw [gatherFrom, gatherArguments, gatherFrom]
  rcases hInner : readArguments child.keyword position (opened.advance 1) with ⟨inner, behind⟩
  rw [hInner] at hRead
  cases behind with
  | error e =>
    rw [readArguments_unclosed hClass hOptions hReference hKeyword hInner, collect_command]
    split
    · cases limits.enter (depth + 1) position with
      | error e => rfl
      | ok _ =>
        cases hCollect : collect limits (depth + 1) child inner with
        | error e => rfl
        | ok args =>
          obtain ⟨last, hLast⟩ := hRead.exists_last hCollect
          cases hLast
    · rfl
  | ok next =>
    rw [readArguments_command hClass hOptions hReference hKeyword hInner]
    dsimp only [Prod.map]
    rw [collect_command]
    split
    · simp only [Command.complete, Command.attach_eq_map, Except.map_bind, bind_assoc,
        Except.ok_bind, gatherFrom]
      rfl
    · rfl

/-- What begins with a sigil is gathered in front of what follows it. -/
lemma gatherFrom_sigil (hClass : CharClass.of d = .sigil) :
    gatherFrom limits depth command start ⟨position, d :: tail⟩ = (do
      let (piece, next) ← gatherChild limits depth command ⟨position, d :: tail⟩
      let (args, last) ← gatherFrom limits depth command start next
      .ok (piece.add args, last)) := by
  rw [gatherChild]
  cases hKeyword : scanKeyword ⟨position, d :: tail⟩ with
  | error e =>
    rw [gatherFrom, readArguments_cons]
    simp only [hClass, hKeyword]
    rfl
  | ok found =>
    obtain ⟨child, opened⟩ := found
    rw [Except.ok_bind]
    dsimp only
    split
    · rw [gatherFrom, readArguments_cons]
      simp only [hClass, hKeyword]
      cases hOptions : scanOptions Command.options.keyword opened with
      | error e => rfl
      | ok found =>
        obtain ⟨raw, next⟩ := found
        simp only [Prod.map, collect_options, Except.ok_bind, gatherFrom, bind_assoc]
        rfl
    · rw [gatherFrom, readArguments_cons]
      simp only [hClass, hKeyword]
      cases hReference : scanReference Command.reference.keyword opened with
      | error e => rfl
      | ok found =>
        obtain ⟨entries, next⟩ := found
        simp only [Prod.map, collect_reference, Except.ok_bind, gatherFrom, bind_assoc]
        rfl
    · rename_i hOptions hReference
      rw [gatherFrom_command hClass hOptions hReference hKeyword]
      split
      · simp only [bind_assoc, Except.ok_bind]
      · rfl

end Loop

lemma readCommand_eq_gather (limits : Limits) (command : Command) (c opened : Cursor) :
    readCommand limits command c opened = (do
      let (args, last) ← gatherArguments limits 1 command c.position opened
      let node ← command.build args
      .ok (node, last)) := by
  have hRead := readsArguments command.keyword c.position (opened.advance 1)
  rw [readCommand, gatherArguments, gatherFrom]
  simp only [bind_assoc, Except.ok_bind]
  congr 1
  funext _
  cases hCollect : collect limits 1 command
      (readArguments command.keyword c.position (opened.advance 1)).1 with
  | error e => rfl
  | ok args =>
    obtain ⟨last, hLast⟩ := hRead.exists_last hCollect
    rw [hLast]
    rfl

/-! ## Progress -/

section Progress

variable {command parent : Command} {start : Nat} {c opened last : Cursor} {args : Collected}

lemma ahead_of_gatherFrom (h : gatherFrom limits depth command start c = .ok (args, last)) :
    c.Leads last ∧ last.rest.length < c.rest.length ∧ last.Settled := by
  obtain ⟨found, -, h⟩ := Except.bind_eq_ok.1 h
  obtain ⟨d, hLast, h⟩ := Except.bind_eq_ok.1 h
  cases h
  have hRead := readsArguments command.keyword start c
  exact ⟨hRead.leads last hLast, length_of_readArguments (Prod.ext rfl hLast),
    hRead.settled last hLast⟩

lemma ahead_of_gatherArguments
    (h : gatherArguments limits depth command start opened = .ok (args, last)) :
    opened.Leads last ∧ last.rest.length < opened.rest.length ∧ last.Settled := by
  obtain ⟨⟨⟩, -, h⟩ := Except.bind_eq_ok.1 h
  obtain ⟨⟨found, d⟩, hFrom, h⟩ := Except.bind_eq_ok.1 h
  obtain ⟨⟨⟩, -, h⟩ := Except.bind_eq_ok.1 h
  cases h
  obtain ⟨hLeads, hLess, hSettled⟩ := ahead_of_gatherFrom hFrom
  rw [Cursor.length_rest_advance] at hLess
  exact ⟨(Cursor.leads_advance (by omega)).trans hLeads, by omega, hSettled⟩

/-- An argument that begins with a sigil ends further on. -/
lemma ahead_of_gatherChild {piece : Piece} {next : Cursor}
    (h : gatherChild limits depth parent c = .ok (piece, next)) :
    c.Leads next ∧ next.rest.length < c.rest.length := by
  obtain ⟨⟨child, opened⟩, hKeyword, h⟩ := Except.bind_eq_ok.1 h
  have hOpened := (leads_of_scanKeyword hKeyword).1
  have hLess := (length_of_scanKeyword hKeyword).1
  dsimp only at h
  split at h
  · obtain ⟨⟨raw, d⟩, hOptions, h⟩ := Except.bind_eq_ok.1 h
    obtain ⟨o, -, h⟩ := Except.bind_eq_ok.1 h
    cases h
    exact ⟨hOpened.trans (leads_of_scanOptions hOptions),
      Nat.lt_trans (length_of_scanOptions hOptions) hLess⟩
  · obtain ⟨⟨entries, d⟩, hReference, h⟩ := Except.bind_eq_ok.1 h
    obtain ⟨r, -, h⟩ := Except.bind_eq_ok.1 h
    cases h
    exact ⟨hOpened.trans (leads_of_scanReference hReference),
      Nat.lt_trans (length_of_scanReference hReference) hLess⟩
  · split at h
    · obtain ⟨⟨args, d⟩, hArgs, h⟩ := Except.bind_eq_ok.1 h
      obtain ⟨found, -, h⟩ := Except.bind_eq_ok.1 h
      cases h
      obtain ⟨hLeads, hInner, -⟩ := ahead_of_gatherArguments hArgs
      exact ⟨hOpened.trans hLeads, Nat.lt_trans hInner hLess⟩
    · cases h

end Progress

end PolicyText
