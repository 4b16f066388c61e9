import PolicyText.Proofs.Scan.Unclosed

/-!
# Groups of a text

No scanner knows which groups are open around it: each calls the next one and goes on where that
ends.  To say which parenthesis does what, a text is read here by a machine with a stack, part by
part.  `ReadsPart` has one rule for each `TextPart`: it opens a group, closes the last one that is
open, or leaves the stack as it is.

At most one rule applies at a place (`ReadsPart.unique`), and so of two readings of a text one goes
on where the other ends (`ReadsParts.total`).  The scanners read in this way, whatever is open
around them: from behind the opening parenthesis of a command to behind the one that closes it
(`ReadsArguments.readsParts`).  The groups that open on the way are those of the commands among the
arguments, in the order of the text (`Arguments.commands`).
-/

namespace PolicyText

/-! ## Parts of a text -/

/-- A part of a text between one parenthesis and the next. -/
inductive TextPart where
  /-- The keyword of a command, fillers and the parenthesis that opens its group. -/
  | opening (command : Command) (pad : List Char)
  /-- The parenthesis that closes a group, and fillers. -/
  | closing (pad : List Char)
  /-- A character between the items of a group, which can be a surplus opening parenthesis. -/
  | passed (d : Char)
  /-- A token of content. -/
  | content (run : List Char)
  /-- An entry of an option list. -/
  | entry (run : List Char)

namespace TextPart

/-- The characters of a part. -/
@[simp] def text : TextPart → List Char
  | .opening command pad => command.keyword.toList ++ (pad ++ ['('])
  | .closing pad => ')' :: pad
  | .passed d => [d]
  | .content run | .entry run => run

/-- The command of which a part opens the group. -/
@[simp] def command? : TextPart → Option Command
  | .opening command _ => some command
  | _ => none

/-- Whether a part closes a group. -/
@[simp] def closes : TextPart → Bool
  | .closing _ => true
  | _ => false

/-- Whether a part is a surplus opening parenthesis. -/
@[simp] def isSurplus : TextPart → Bool
  | .passed d => d == '('
  | _ => false

/-- What of a part is text of content or of an option. -/
@[simp] def item : TextPart → List Char
  | .content run | .entry run => run
  | _ => []

end TextPart

/-- A group that is open: its command and the position of its parenthesis. -/
structure OpenGroup where
  command : Command
  opened : Nat

/-- Reads one part of a text.  On the left is what is open before it, the last group first, and on
the right what is open behind it. -/
inductive ReadsPart : List OpenGroup → Cursor → TextPart → List OpenGroup → Cursor → Prop where
  | opening {stack : List OpenGroup} {c : Cursor} {command : Command} {pad tail : List Char}
    (hAround : ∀ group ∈ stack.head?, group.command ≠ .options ∧ group.command ≠ .reference)
    (hPad : ∀ d ∈ pad, isFiller d = true)
    (hText : c.rest = command.keyword.toList ++ (pad ++ '(' :: tail)) :
    ReadsPart stack c (.opening command pad)
      (⟨command, c.position + command.keyword.toList.length + pad.length⟩ :: stack)
      ⟨c.position + command.keyword.toList.length + pad.length + 1, tail⟩
  | closing {group : OpenGroup} {stack : List OpenGroup} {position : Nat} {tail : List Char} :
    ReadsPart (group :: stack) ⟨position, ')' :: tail⟩ (.closing (tail.takeWhile isFiller)) stack
      (Cursor.skipFiller ⟨position + 1, tail⟩)
  | passed {group : OpenGroup} {stack : List OpenGroup} {position : Nat} {d : Char}
    {tail : List Char} (hSkips : group.command.Skips d) :
    ReadsPart (group :: stack) ⟨position, d :: tail⟩ (.passed d) (group :: stack)
      ⟨position + 1, tail⟩
  | content {group : OpenGroup} {stack : List OpenGroup} {position : Nat} {d : Char}
    {tail run : List Char} {text : String} {next : Cursor} (hOptions : group.command ≠ .options)
    (hClass : CharClass.of d = .content)
    (hContent : scanContent ',' ⟨position, d :: tail⟩ = .ok (text, next))
    (hRun : d :: tail = run ++ next.rest) :
    ReadsPart (group :: stack) ⟨position, d :: tail⟩ (.content run) (group :: stack) next
  | entry {group : OpenGroup} {stack : List OpenGroup} {position : Nat} {d : Char}
    {tail run : List Char} {pair : String × String} {next : Cursor}
    (hOptions : group.command = .options) (hSeparates : separatesOptions d = false)
    (hClosing : d ≠ ')')
    (hEntry : scanOption Command.options.keyword group.opened ⟨position, d :: tail⟩
      = .ok (pair, next))
    (hRun : d :: tail = run ++ next.rest) :
    ReadsPart (group :: stack) ⟨position, d :: tail⟩ (.entry run) (group :: stack) next

/-- Reads parts of a text, one behind the other. -/
inductive ReadsParts :
    List OpenGroup → Cursor → List TextPart → List OpenGroup → Cursor → Prop where
  | done (stack : List OpenGroup) (c : Cursor) : ReadsParts stack c [] stack c
  | step {stack between last : List OpenGroup} {c d e : Cursor} {part : TextPart}
    {parts : List TextPart} (hPart : ReadsPart stack c part between d)
    (hRest : ReadsParts between d parts last e) : ReadsParts stack c (part :: parts) last e

/-! ## One part -/

lemma Command.Skips.separates {command : Command} {d : Char} (h : command.Skips d)
    (hOptions : command = .options) : separatesOptions d = true := by
  rwa [Skips, if_pos hOptions] at h

namespace ReadsPart

variable {stack between behind : List OpenGroup} {c d e : Cursor} {part other : TextPart}

lemma rest_eq (h : ReadsPart stack c part between d) : c.rest = part.text ++ d.rest := by
  cases h with
  | opening hAround hPad hText =>
    rw [hText, TextPart.text]
    simp only [List.append_assoc, List.singleton_append]
  | closing => exact congrArg (')' :: ·) List.takeWhile_append_dropWhile.symm
  | passed => rfl
  | content _ _ _ hRun => exact hRun
  | entry _ _ _ _ hRun => exact hRun

lemma rest_ne_nil (h : ReadsPart stack c part between d) : c.rest ≠ [] := by
  cases h with
  | @opening _ _ command _ _ _ _ hText =>
    obtain ⟨sigil, tail, hKeyword, -⟩ := command.exists_sigil
    rw [hText, hKeyword]
    exact List.cons_ne_nil _ _
  | closing => exact List.cons_ne_nil _ _
  | passed => exact List.cons_ne_nil _ _
  | content => exact List.cons_ne_nil _ _
  | entry => exact List.cons_ne_nil _ _

lemma length_stack (h : ReadsPart stack c part between d) :
    part.command?.toList.length + stack.length
      = between.length + if part.closes then 1 else 0 := by
  cases h with
  | opening => simp [Nat.add_comm]
  | closing => simp
  | passed => simp
  | content => simp
  | entry => simp

lemma exists_append {group : OpenGroup} (h : ReadsPart (group :: stack) c part between d) :
    ∃ groups, between = groups ++ stack := by
  cases h with
  | opening => exact ⟨[_, group], rfl⟩
  | closing => exact ⟨[], rfl⟩
  | passed => exact ⟨[group], rfl⟩
  | content => exact ⟨[group], rfl⟩
  | entry => exact ⟨[group], rfl⟩

/-- A command that is recognised opens a group, unless it stands in an option list or in a
reference. -/
lemma of_scanKeyword {command : Command} {opened : Cursor}
    (hAround : ∀ group ∈ stack.head?, group.command ≠ .options ∧ group.command ≠ .reference)
    (hKeyword : scanKeyword c = .ok (command, opened)) :
    ∃ pad, ReadsPart stack c (.opening command pad) (⟨command, opened.position⟩ :: stack)
      (opened.advance 1) := by
  obtain ⟨pad, tail, hPad, hText, rfl⟩ := keyword_of_scanKeyword hKeyword
  exact ⟨pad, .opening hAround hPad hText⟩

lemma of_head {group : OpenGroup} (hClosing : c.rest.head? = some ')') :
    ∃ pad, ReadsPart (group :: stack) c (.closing pad) stack (c.advance 1).skipFiller := by
  obtain ⟨position, rest⟩ := c
  obtain ⟨tail, rfl⟩ := List.head?_eq_some_iff.1 hClosing
  exact ⟨_, .closing⟩

lemma class_of_opening {command : Command} {first : Char} {tail rest : List Char}
    (hText : first :: tail = command.keyword.toList ++ rest) : CharClass.of first = .sigil := by
  obtain ⟨sigil, more, hKeyword, hClass⟩ := command.exists_sigil
  rw [hKeyword, List.cons_append] at hText
  rwa [(List.cons.inj hText).1]

/-- Where a group can open, nothing else is read. -/
lemma eq_opening {command : Command} {pad tail : List Char}
    (hAround : ∀ group ∈ stack.head?, group.command ≠ .options ∧ group.command ≠ .reference)
    (hPad : ∀ d ∈ pad, isFiller d = true)
    (hText : c.rest = command.keyword.toList ++ (pad ++ '(' :: tail))
    (h : ReadsPart stack c part between d) :
    part = .opening command pad ∧
      between = ⟨command, c.position + command.keyword.toList.length + pad.length⟩ :: stack ∧
      d = ⟨c.position + command.keyword.toList.length + pad.length + 1, tail⟩ := by
  cases h with
  | @opening _ _ found more behind _ hMore hOtherText =>
    have hKeyword := scanKeyword_written command tail c.position hPad
    rw [← hText, hOtherText, scanKeyword_written found behind c.position hMore] at hKeyword
    simp only [Except.ok.injEq, Prod.mk.injEq, Cursor.mk.injEq, List.cons.injEq, true_and]
      at hKeyword
    obtain ⟨rfl, -, rfl⟩ := hKeyword
    rw [hText, List.append_cancel_left_eq, List.append_cancel_right_eq] at hOtherText
    subst hOtherText
    exact ⟨rfl, rfl, rfl⟩
  | closing => cases class_of_opening hText
  | passed hSkips => exact absurd (class_of_opening hText) (hSkips.class (hAround _ rfl).1).2.1
  | content _ hClass =>
    rw [class_of_opening hText] at hClass
    cases hClass
  | entry hOptions => exact absurd hOptions (hAround _ rfl).1

/-- What is open and what the text is decide which part is read. -/
lemma unique (h : ReadsPart stack c part between d) (hOther : ReadsPart stack c other behind e) :
    other = part ∧ behind = between ∧ e = d := by
  cases h with
  | opening hAround hPad hText => exact eq_opening hAround hPad hText hOther
  | closing =>
    cases hOther with
    | opening hAround hPad hText => cases (eq_opening hAround hPad hText .closing).1
    | closing => exact ⟨rfl, rfl, rfl⟩
    | passed hSkips => exact absurd hSkips (Command.not_skips_closing _)
    | content _ hClass => cases hClass
    | entry _ _ hClosing => exact absurd rfl hClosing
  | passed hSkips =>
    cases hOther with
    | opening hAround hPad hText => cases (eq_opening hAround hPad hText (.passed hSkips)).1
    | closing => exact absurd hSkips (Command.not_skips_closing _)
    | passed => exact ⟨rfl, rfl, rfl⟩
    | content hOptions hClass => exact absurd hClass (hSkips.class hOptions).1
    | entry hOptions hSeparates =>
      rw [hSkips.separates hOptions] at hSeparates
      cases hSeparates
  | content hOptions hClass hContent hRun =>
    cases hOther with
    | opening hAround hPad hText =>
      cases (eq_opening hAround hPad hText (.content hOptions hClass hContent hRun)).1
    | closing => cases hClass
    | passed hSkips => exact absurd hClass (hSkips.class hOptions).1
    | content _ _ hOtherContent hOtherRun =>
      rw [hContent] at hOtherContent
      cases hOtherContent
      rw [hRun] at hOtherRun
      exact ⟨congrArg TextPart.content (List.append_cancel_right hOtherRun).symm, rfl, rfl⟩
    | entry hOther => exact absurd hOther hOptions
  | entry hOptions hSeparates hClosing hEntry hRun =>
    cases hOther with
    | opening hAround => exact absurd hOptions (hAround _ rfl).1
    | closing => exact absurd rfl hClosing
    | passed hSkips =>
      rw [hSkips.separates hOptions] at hSeparates
      cases hSeparates
    | content hOther => exact absurd hOptions hOther
    | entry _ _ _ hOtherEntry hOtherRun =>
      rw [hEntry] at hOtherEntry
      cases hOtherEntry
      rw [hRun] at hOtherRun
      exact ⟨congrArg TextPart.entry (List.append_cancel_right hOtherRun).symm, rfl, rfl⟩

end ReadsPart

/-! ## Parts one behind the other -/

namespace ReadsParts

variable {stack between behind last : List OpenGroup} {c d e : Cursor}
  {parts others : List TextPart}

lemma append (h : ReadsParts stack c parts between d) (hMore : ReadsParts between d others last e) :
    ReadsParts stack c (parts ++ others) last e := by
  induction h with
  | done => exact hMore
  | step hPart _ ih => exact .step hPart (ih hMore)

lemma single {part : TextPart} (h : ReadsPart stack c part between d) :
    ReadsParts stack c [part] between d :=
  .step h (.done _ _)

lemma rest_eq (h : ReadsParts stack c parts between d) :
    c.rest = parts.flatMap TextPart.text ++ d.rest := by
  induction h with
  | done => rfl
  | step hPart _ ih => rw [hPart.rest_eq, ih, List.flatMap_cons, List.append_assoc]

lemma eq_of_rest_eq_nil (h : ReadsParts stack c parts between d) (hEnd : c.rest = []) :
    parts = [] ∧ between = stack := by
  cases h with
  | done => exact ⟨rfl, rfl⟩
  | step hPart => exact absurd hEnd hPart.rest_ne_nil

lemma length_command?_cons (part : TextPart) (parts : List TextPart) :
    ((part :: parts).filterMap TextPart.command?).length
      = part.command?.toList.length + (parts.filterMap TextPart.command?).length := by
  rw [List.filterMap_cons]
  cases part.command? <;> simp [Nat.add_comm]

lemma length_stack (h : ReadsParts stack c parts between d) :
    (parts.filterMap TextPart.command?).length + stack.length
      = parts.countP TextPart.closes + between.length := by
  induction h with
  | done => rfl
  | @step _ _ _ _ _ _ part parts hPart _ ih =>
    have hLength := hPart.length_stack
    rw [length_command?_cons, List.countP_cons]
    omega

/-- There is only one way to read on: of two readings one goes on where the other ends. -/
lemma total (h : ReadsParts stack c parts between d) (hOther : ReadsParts stack c others behind e) :
    (∃ more, others = parts ++ more ∧ ReadsParts between d more behind e) ∨
      ∃ more, parts = others ++ more ∧ ReadsParts behind e more between d := by
  induction h generalizing others with
  | done => exact Or.inl ⟨others, rfl, hOther⟩
  | step hPart hRest ih =>
    cases hOther with
    | done => exact Or.inr ⟨_, rfl, .step hPart hRest⟩
    | step hOtherPart hOtherRest =>
      obtain ⟨rfl, rfl, rfl⟩ := hPart.unique hOtherPart
      obtain ⟨more, rfl, hMore⟩ | ⟨more, rfl, hMore⟩ := ih hOtherRest
      · exact Or.inl ⟨more, rfl, hMore⟩
      · exact Or.inr ⟨more, rfl, hMore⟩

lemma exists_closed {groups outer : List OpenGroup} (hGroups : groups ≠ [])
    (h : ReadsParts (groups ++ outer) c parts [] d) :
    ∃ front place, ReadsParts (groups ++ outer) c front outer place := by
  generalize hStack : groups ++ outer = stack at h
  generalize hLast : ([] : List OpenGroup) = last at h
  induction h generalizing groups with
  | done =>
    rw [← hLast] at hStack
    exact absurd (List.append_eq_nil_iff.1 hStack).1 hGroups
  | @step _ between _ _ place _ part _ hPart _ ih =>
    obtain ⟨group, inner, rfl⟩ := List.exists_cons_of_ne_nil hGroups
    subst hStack
    obtain ⟨more, hMore⟩ : ∃ more, between = more ++ (inner ++ outer) := hPart.exists_append
    rw [← List.append_assoc] at hMore
    by_cases hEmpty : more ++ inner = []
    · rw [hEmpty, List.nil_append] at hMore
      exact ⟨[part], place, .single (hMore ▸ hPart)⟩
    · obtain ⟨front, place, hFront⟩ := ih hEmpty hMore.symm hLast
      exact ⟨part :: front, place, .step hPart hFront⟩

end ReadsParts

/-! ## What the scanners read -/

section Scanners

variable {stack : List OpenGroup} {c d opened next : Cursor} {command : Command} {place : Nat}

lemma Command.Passes.readsParts (h : command.Passes place c d)
    (hCommand : command = .options ∨ command = .reference) :
    ∃ parts, ReadsParts (⟨command, place⟩ :: stack) c parts (⟨command, place⟩ :: stack) d ∧
      parts.filterMap TextPart.command? = [] := by
  induction h with
  | here => exact ⟨[], .done _ _, rfl⟩
  | skipped hSkips _ ih =>
    obtain ⟨parts, hParts, hOpened⟩ := ih hCommand
    exact ⟨_, .step (.passed hSkips) hParts, hOpened⟩
  | entry hSeparates hClosing hEntry _ ih =>
    obtain ⟨parts, hParts, hOpened⟩ := ih hCommand
    obtain ⟨run, hRun, -⟩ := leads_of_scanOption hEntry
    exact ⟨_, .step (.entry rfl hSeparates hClosing hEntry hRun) hParts, hOpened⟩
  | content hOptions hClass hContent _ ih =>
    obtain ⟨parts, hParts, hOpened⟩ := ih hCommand
    obtain ⟨run, hRun, -⟩ := leads_of_scanContent hContent
    exact ⟨_, .step (.content hOptions hClass hContent hRun) hParts, hOpened⟩
  | nested hOptions hReference => exact absurd hCommand (not_or.2 ⟨hOptions, hReference⟩)

lemma Command.Closes.readsParts (h : command.Closes place c next)
    (hCommand : command = .options ∨ command = .reference) :
    ∃ parts, ReadsParts (⟨command, place⟩ :: stack) c parts stack next ∧
      parts.filterMap TextPart.command? = [] := by
  obtain ⟨closing, hPasses, hClosing, rfl⟩ := h
  obtain ⟨parts, hParts, hOpened⟩ := @Command.Passes.readsParts stack _ _ _ _ hPasses hCommand
  obtain ⟨pad, hClose⟩ := @ReadsPart.of_head stack _ ⟨command, place⟩ hClosing
  refine ⟨_, hParts.append (.single hClose), ?_⟩
  rw [List.filterMap_append, hOpened]
  rfl

/-- A command among arguments is read by opening its group and reading on to where that is closed.
-/
lemma ReadsParts.over_command {group : OpenGroup} {last : List OpenGroup}
    {inner parts : List TextPart} {found others : List Command}
    (hOptions : group.command ≠ .options) (hReference : group.command ≠ .reference)
    (hKeyword : scanKeyword c = .ok (command, opened))
    (hInner : ReadsParts (⟨command, opened.position⟩ :: group :: stack) (opened.advance 1) inner
      (group :: stack) next)
    (hFound : inner.filterMap TextPart.command? = found)
    (hRest : ReadsParts (group :: stack) next parts last d)
    (hOthers : parts.filterMap TextPart.command? = others) :
    ∃ read, ReadsParts (group :: stack) c read last d ∧
      read.filterMap TextPart.command? = command :: (found ++ others) := by
  obtain ⟨pad, hOpening⟩ := @ReadsPart.of_scanKeyword (group :: stack) _ _ _
    (by rintro _ ⟨⟩; exact ⟨hOptions, hReference⟩) hKeyword
  refine ⟨_, .step hOpening (hInner.append hRest), ?_⟩
  rw [← hFound, ← hOthers, ← List.filterMap_append]
  rfl

end Scanners

namespace Arguments

/-- The commands among arguments at any depth, in the order of the text.  Option lists and
references count as well. -/
def commands : Arguments → List Command
  | .closed | .fault _ => []
  | .content _ rest => rest.commands
  | .options _ rest => .options :: rest.commands
  | .reference _ rest => .reference :: rest.commands
  | .command _ child inner rest => child :: (inner.commands ++ rest.commands)

end Arguments

/-- Arguments that are read to their end are read part by part to where the group of their command
is closed, and the groups that open on the way are those of the commands among them. -/
lemma ReadsArguments.readsParts {keyword : String} {start : Nat} {c : Cursor} {args : Arguments}
    {last : Except ParseError Cursor} {next : Cursor} (h : ReadsArguments keyword start c args last)
    (hLast : last = .ok next) {command : Command} (hOptions : command ≠ .options)
    (hReference : command ≠ .reference) (place : Nat) (stack : List OpenGroup) :
    ∃ parts, ReadsParts (⟨command, place⟩ :: stack) c parts stack next ∧
      parts.filterMap TextPart.command? = args.commands := by
  induction h generalizing command place stack next with
  | ended => cases hLast
  | closing =>
    cases hLast
    exact ⟨_, .single .closing, rfl⟩
  | passed hClass hRest ih =>
    obtain ⟨parts, hParts, hOpened⟩ := ih hLast hOptions hReference place stack
    exact ⟨_, .step (.passed (Command.skips_of_class hOptions hClass)) hParts, hOpened⟩
  | stuck => cases hLast
  | content hClass hContent hRest ih =>
    obtain ⟨parts, hParts, hOpened⟩ := ih hLast hOptions hReference place stack
    obtain ⟨run, hRun, -⟩ := leads_of_scanContent hContent
    exact ⟨_, .step (.content hOptions hClass hContent hRun) hParts, hOpened⟩
  | options hClass hChild hRead hRest ih =>
    obtain ⟨parts, hParts, hOpened⟩ := ih hLast hOptions hReference place stack
    obtain ⟨inner, hInner, hNone⟩ := (closes_of_scanOptions hRead).readsParts (Or.inl rfl)
    exact ReadsParts.over_command hOptions hReference hChild hInner hNone hParts hOpened
  | reference hClass hChild hRead hRest ih =>
    obtain ⟨parts, hParts, hOpened⟩ := ih hLast hOptions hReference place stack
    obtain ⟨inner, hInner, hNone⟩ := (closes_of_scanReference hRead).readsParts (Or.inr rfl)
    exact ReadsParts.over_command hOptions hReference hChild hInner hNone hParts hOpened
  | unclosed => cases hLast
  | command hClass hChildOptions hChildReference hChild hInner hRest ihInner ih =>
    obtain ⟨parts, hParts, hOpened⟩ := ih hLast hOptions hReference place stack
    obtain ⟨inner, hRead, hFound⟩ := ihInner rfl hChildOptions hChildReference _ _
    exact ReadsParts.over_command hOptions hReference hChild hRead hFound hParts hOpened

end PolicyText
