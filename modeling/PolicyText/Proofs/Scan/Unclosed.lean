import PolicyText.Proofs.Scan.Located
import PolicyText.Proofs.Scan.Recognition

/-!
# Commands without a closing parenthesis

When a text ends inside of the parentheses of a command, the scanners report that the command was
not completed.  This file says what is true of the text then.  `Command.Passes` describes, without a
scanner's loop, how one gets from place to place between the parentheses of a command: over what
separates its items and over its items, a nested command counting as one item only if it is closed
itself.  A command is `Unclosed` if one gets in this way to a place behind which there is no closing
parenthesis any more, and to no closing parenthesis.

There is only one way to go (`Command.Passes.total`), and at a closing parenthesis it ends, so that
the second half follows from the first (`Command.unclosed_of_runsOut`).  The loop over arguments
goes this way, too: to the closing parenthesis if it ends well (`ReadsArguments.closes`), and to
what is unclosed if not (`ReadsArguments.reports`).  What carries the second induction is that one
has got to a place from behind the opening parenthesis (`Command.Reaches`).

The two commands whose items are not arguments, option lists and references, are reported by the
position of their parenthesis; all others by that of their keyword (`Command.reportedAt`).
-/

namespace PolicyText

lemma Cursor.leads_advance_of_head {c : Cursor} {d : Char} (h : c.rest.head? = some d) :
    c.Leads (c.advance 1) := by
  obtain ⟨tail, hTail⟩ := List.head?_eq_some_iff.1 h
  exact leads_advance (by simp [hTail])

/-! ## Ways between parentheses -/

namespace Command

/-- What is passed over between the items of a command: commas and blanks in an option list, and
elsewhere commas, fillers and further opening parentheses. -/
def Skips (command : Command) (d : Char) : Prop :=
  if command = .options then separatesOptions d = true
  else CharClass.of d = .delimiter ∨ CharClass.of d = .filler ∨ CharClass.of d = .opening

/-- Between the parentheses of a command, of which the opening one stands at `opened`, one gets from
a place to another over separators and items. -/
inductive Passes : Command → Nat → Cursor → Cursor → Prop where
  | here (command : Command) (opened : Nat) (c : Cursor) : Passes command opened c c
  | skipped {command : Command} {opened position : Nat} {d : Char} {tail : List Char}
    {last : Cursor} (hSkips : command.Skips d)
    (hRest : Passes command opened ⟨position + 1, tail⟩ last) :
    Passes command opened ⟨position, d :: tail⟩ last
  | entry {opened position : Nat} {d : Char} {tail : List Char} {pair : String × String}
    {next last : Cursor} (hSeparates : separatesOptions d = false) (hClosing : d ≠ ')')
    (hEntry : scanOption Command.options.keyword opened ⟨position, d :: tail⟩ = .ok (pair, next))
    (hRest : Passes .options opened next last) :
    Passes .options opened ⟨position, d :: tail⟩ last
  | content {command : Command} {opened position : Nat} {d : Char} {tail : List Char}
    {text : String} {next last : Cursor} (hOptions : command ≠ .options)
    (hClass : CharClass.of d = .content)
    (hContent : scanContent ',' ⟨position, d :: tail⟩ = .ok (text, next))
    (hRest : Passes command opened next last) :
    Passes command opened ⟨position, d :: tail⟩ last
  /-- A nested command is closed by the parenthesis at the place `closing`. -/
  | nested {command child : Command} {opened position : Nat} {d : Char} {tail : List Char}
    {place closing last : Cursor} (hOptions : command ≠ .options)
    (hReference : command ≠ .reference) (hClass : CharClass.of d = .sigil)
    (hKeyword : scanKeyword ⟨position, d :: tail⟩ = .ok (child, place))
    (hInner : Passes child place.position (place.advance 1) closing)
    (hClosing : closing.rest.head? = some ')')
    (hRest : Passes command opened (closing.advance 1).skipFiller last) :
    Passes command opened ⟨position, d :: tail⟩ last

lemma skips_of_class {command : Command} {d : Char} (hOptions : command ≠ .options)
    (hClass : CharClass.of d = .delimiter ∨ CharClass.of d = .filler ∨
      CharClass.of d = .opening) : command.Skips d := by
  rwa [Skips, if_neg hOptions]

lemma Skips.class {command : Command} {d : Char} (h : command.Skips d)
    (hOptions : command ≠ .options) :
    CharClass.of d ≠ .content ∧ CharClass.of d ≠ .sigil ∧ CharClass.of d ≠ .closing := by
  rw [Skips, if_neg hOptions] at h
  obtain h | h | h := h <;> rw [h] <;> decide

lemma not_skips_closing (command : Command) : ¬ command.Skips ')' := by
  intro h
  by_cases hOptions : command = .options
  · rw [Skips, if_pos hOptions] at h
    cases h
  · exact (h.class hOptions).2.2 rfl

namespace Passes

variable {command : Command} {opened : Nat} {c d e : Cursor}

lemma trans (h : command.Passes opened c d) (hFurther : command.Passes opened d e) :
    command.Passes opened c e := by
  induction h with
  | here => exact hFurther
  | skipped hSkips _ ih => exact .skipped hSkips (ih hFurther)
  | entry hSeparates hClosing hEntry _ ih => exact .entry hSeparates hClosing hEntry (ih hFurther)
  | content hOptions hClass hContent _ ih => exact .content hOptions hClass hContent (ih hFurther)
  | nested hOptions hReference hClass hKeyword hInner hClosing _ _ ih =>
    exact .nested hOptions hReference hClass hKeyword hInner hClosing (ih hFurther)

lemma leads (h : command.Passes opened c d) : c.Leads d := by
  induction h with
  | here => exact .refl _
  | skipped _ _ ih => exact (Cursor.leads_tail _ _ _).trans ih
  | entry _ _ hEntry _ ih => exact (leads_of_scanOption hEntry).trans ih
  | content _ _ hContent _ ih => exact (leads_of_scanContent hContent).trans ih
  | nested _ _ _ hKeyword _ hClosing _ ihInner ih =>
    obtain ⟨hOpened, -, hAdvance⟩ := leads_of_scanKeyword hKeyword
    have hClose := Cursor.leads_advance_of_head hClosing
    exact (((hOpened.trans hAdvance).trans ihInner).trans hClose).trans
      ((Cursor.leads_skipFiller _).trans ih)

lemma eq_of_closing (h : command.Passes opened c d) (hClosing : c.rest.head? = some ')') :
    d = c := by
  cases h with
  | here => rfl
  | skipped hSkips =>
    cases hClosing
    exact absurd hSkips (not_skips_closing command)
  | entry _ hOther =>
    cases hClosing
    exact absurd rfl hOther
  | content _ hClass =>
    cases hClosing
    cases hClass
  | nested _ _ hClass =>
    cases hClosing
    cases hClass

/-- There is only one way: of two places on it one is behind the other. -/
lemma total (h : command.Passes opened c d) (hOther : command.Passes opened c e) :
    command.Passes opened d e ∨ command.Passes opened e d := by
  induction h generalizing e with
  | here => exact Or.inl hOther
  | @skipped command _ _ d _ _ hSkips hRest ih =>
    cases hOther with
    | here => exact Or.inr (.skipped hSkips hRest)
    | skipped _ hOtherRest => exact ih hOtherRest
    | entry hSeparates =>
      rw [Skips, if_pos rfl, hSeparates] at hSkips
      cases hSkips
    | content hOptions hClass => exact absurd hClass (hSkips.class hOptions).1
    | nested hOptions _ hClass => exact absurd hClass (hSkips.class hOptions).2.1
  | entry hSeparates hClosing hEntry hRest ih =>
    cases hOther with
    | here => exact Or.inr (.entry hSeparates hClosing hEntry hRest)
    | skipped hSkips =>
      rw [Skips, if_pos rfl, hSeparates] at hSkips
      cases hSkips
    | entry _ _ hOtherEntry hOtherRest =>
      rw [hEntry] at hOtherEntry
      cases hOtherEntry
      exact ih hOtherRest
    | content hOptions => exact absurd rfl hOptions
    | nested hOptions => exact absurd rfl hOptions
  | content hOptions hClass hContent hRest ih =>
    cases hOther with
    | here => exact Or.inr (.content hOptions hClass hContent hRest)
    | skipped hSkips => exact absurd hClass (hSkips.class hOptions).1
    | entry => exact absurd rfl hOptions
    | content _ _ hOtherContent hOtherRest =>
      rw [hContent] at hOtherContent
      cases hOtherContent
      exact ih hOtherRest
    | nested _ _ hSigil =>
      rw [hClass] at hSigil
      cases hSigil
  | nested hOptions hReference hClass hKeyword hInner hClosing hRest ihInner ih =>
    cases hOther with
    | here => exact Or.inr (.nested hOptions hReference hClass hKeyword hInner hClosing hRest)
    | skipped hSkips => exact absurd hClass (hSkips.class hOptions).2.1
    | entry => exact absurd rfl hOptions
    | content _ hContent =>
      rw [hClass] at hContent
      cases hContent
    | nested _ _ _ hOtherKeyword hOtherInner hOtherClosing hOtherRest =>
      rw [hKeyword] at hOtherKeyword
      cases hOtherKeyword
      -- Both ways through the nested command end at a parenthesis that closes it.
      obtain hBehind | hBehind := ihInner hOtherInner
      · rw [hBehind.eq_of_closing hClosing] at hOtherRest
        exact ih hOtherRest
      · rw [← hBehind.eq_of_closing hOtherClosing] at hOtherRest
        exact ih hOtherRest

end Passes

/-! ## Where a way leads -/

/-- From a place a way leads to the parenthesis that closes the command, and behind that and fillers
stands `next`. -/
def Closes (command : Command) (opened : Nat) (c next : Cursor) : Prop :=
  ∃ closing, command.Passes opened c closing ∧ closing.rest.head? = some ')' ∧
    next = (closing.advance 1).skipFiller

/-- From a place a way leads to where no closing parenthesis follows any more. -/
def RunsOut (command : Command) (opened : Nat) (c : Cursor) : Prop :=
  ∃ last, command.Passes opened c last ∧ ')' ∉ last.rest

namespace Passes

variable {command : Command} {opened : Nat} {c d next : Cursor}

lemma closes (h : command.Passes opened c d) (hCloses : command.Closes opened d next) :
    command.Closes opened c next := by
  obtain ⟨closing, hPasses, hClosing⟩ := hCloses
  exact ⟨closing, h.trans hPasses, hClosing⟩

lemma runsOut (h : command.Passes opened c d) (hRunsOut : command.RunsOut opened d) :
    command.RunsOut opened c := by
  obtain ⟨last, hPasses, hLast⟩ := hRunsOut
  exact ⟨last, h.trans hPasses, hLast⟩

lemma over_nested {child : Command} {position : Nat} {e : Char} {tail : List Char} {place : Cursor}
    (hOptions : command ≠ .options) (hReference : command ≠ .reference)
    (hClass : CharClass.of e = .sigil)
    (hKeyword : scanKeyword ⟨position, e :: tail⟩ = .ok (child, place))
    (hInner : child.Closes place.position (place.advance 1) next) :
    command.Passes opened ⟨position, e :: tail⟩ next := by
  obtain ⟨closing, hPasses, hClosing, rfl⟩ := hInner
  exact .nested hOptions hReference hClass hKeyword hPasses hClosing (.here _ _ _)

end Passes

/-! ## Unclosed commands -/

/-- The place behind a position of a text. -/
def inside (text : List Char) (opened : Nat) : Cursor :=
  ⟨opened + 1, text.drop (opened + 1)⟩

/-- A command whose parenthesis opens at a position is not closed: from behind the parenthesis one
gets to a place behind which nothing in the text could close it, and to no closing parenthesis. -/
structure Unclosed (command : Command) (text : List Char) (opened : Nat) : Prop where
  opening : text[opened]? = some '('
  exhausted : ∃ last, command.Passes opened (inside text opened) last ∧ ')' ∉ last.rest
  not_closed : ∀ last, command.Passes opened (inside text opened) last →
    last.rest.head? ≠ some ')'

lemma unclosed_of_runsOut {command : Command} {text : List Char} {position opened : Nat}
    (hStands : command.StandsAt text position opened)
    (hRunsOut : command.RunsOut opened (inside text opened)) : command.Unclosed text opened := by
  refine ⟨?_, hRunsOut, ?_⟩
  · obtain ⟨pad, rest, -, hText, rfl⟩ := hStands
    rw [← List.head?_drop, ← List.drop_drop, ← List.drop_drop, hText, List.drop_left,
      List.drop_left]
    rfl
  · intro other hOther hClosing
    obtain ⟨last, hPasses, hLast⟩ := hRunsOut
    obtain ⟨rest, hRest⟩ := List.head?_eq_some_iff.1 hClosing
    obtain hBehind | hBehind := hPasses.total hOther
    · obtain ⟨run, hRun, -⟩ := hBehind.leads
      rw [hRun, hRest] at hLast
      exact hLast (by simp)
    · rw [hBehind.eq_of_closing hClosing, hRest] at hLast
      exact hLast List.mem_cons_self

/-- The position by which an unclosed command is reported: that of its keyword, or that of its
parenthesis if its items are options or the entries of a reference. -/
def reportedAt (command : Command) (position opened : Nat) : Nat :=
  if command = .options ∨ command = .reference then opened else position

end Command

/-- A keyword and a position belong to an unclosed command of a text. -/
def IsUnclosedAt (text : List Char) (keyword : String) (p : Nat) : Prop :=
  ∃ (command : Command) (position opened : Nat), command.keyword = keyword ∧
    command.StandsAt text position opened ∧ command.Unclosed text opened ∧
      p = command.reportedAt position opened

/-- An error is about an unclosed command if it says that a command was not completed. -/
def ParseError.Reports (text : List Char) (e : ParseError) : Prop :=
  ∀ keyword p, e = .notCompleted keyword p → IsUnclosedAt text keyword p

/-! ## Option lists and references -/

section Scanners

variable {keyword key : String} {opened p : Nat} {c next : Cursor}

lemma scanContent_ne_notCompleted : scanContent ',' c ≠ .error (.notCompleted keyword p) := by
  intro h
  unfold scanContent scanWrapped at h
  split at h
  · split at h <;> cases h
  · split at h <;> cases h

lemma scanKeyword_ne_notCompleted : scanKeyword c ≠ .error (.notCompleted keyword p) := by
  intro h
  unfold scanKeyword at h
  split at h
  · cases h
  split at h
  · cases h
  · split at h <;> cases h
  · cases h

/-- Where a value is missing at the end of a text, only blanks stand behind its equals sign. -/
lemma eq_notCompleted_of_scanOptionRest {name : String}
    (h : scanOptionRest name opened key c = .error (.notCompleted keyword p)) :
    (keyword = name ∧ p = opened) ∧ ')' ∉ c.rest := by
  unfold scanOptionRest at h
  split at h
  · rename_i hHead
    obtain ⟨tail, hTail⟩ := List.head?_eq_some_iff.1 hHead
    unfold scanOptionValue at h
    split at h
    · rename_i hNothing
      cases h
      refine ⟨⟨rfl, rfl⟩, ?_⟩
      have hBlank : ∀ d ∈ tail, Text.isBlank d = true := by
        rw [← List.dropWhile_eq_nil_iff, ← hNothing, Cursor.skipWhile, Cursor.advance, hTail]
        rfl
      intro hClosing
      rw [hTail] at hClosing
      obtain hEquals | hMem := List.mem_cons.1 hClosing
      · cases hEquals
      · cases hBlank ')' hMem
    · split at h
      · cases h
      · exact absurd h scanContent_ne_notCompleted
  · split at h <;> cases h

/-- An entry that is cut off at the end of a text stands before no closing parenthesis. -/
lemma eq_notCompleted_of_scanOption {name : String}
    (h : scanOption name opened c = .error (.notCompleted keyword p)) :
    (keyword = name ∧ p = opened) ∧ ')' ∉ c.rest := by
  have hKey : ∀ d ∈ c.rest.takeWhile (fun d => !endsKey d), d ≠ ')' := by
    rintro d hd rfl
    cases List.mem_takeWhile_imp hd
  have hRest := List.takeWhile_append_dropWhile (p := fun d => !endsKey d) (l := c.rest)
  simp only [scanOption] at h
  split at h
  · rename_i hNothing
    cases h
    refine ⟨⟨rfl, rfl⟩, fun hClosing => ?_⟩
    rw [← hRest, show c.rest.dropWhile (fun d => !endsKey d) = [] from
      List.isEmpty_iff.1 hNothing, List.append_nil] at hClosing
    exact hKey ')' hClosing rfl
  split at h
  · cases h
  split at h
  · rename_i hError
    cases h
    obtain ⟨hSame, hNext⟩ := eq_notCompleted_of_scanOptionRest hError
    refine ⟨hSame, fun hClosing => ?_⟩
    rw [← hRest, List.mem_append] at hClosing
    exact hClosing.elim (fun hMem => hKey ')' hMem rfl) hNext
  · split at h <;> cases h

lemma passes_skipWhile (opened : Nat) (c : Cursor) :
    Command.options.Passes opened c (c.skipWhile separatesOptions) := by
  obtain ⟨position, rest⟩ := c
  induction rest generalizing position with
  | nil => exact .here _ _ _
  | cons d tail ih =>
    cases hSeparates : separatesOptions d with
    | true =>
      rw [Cursor.skipWhile_cons_of_pos position hSeparates]
      exact .skipped (by rwa [Command.Skips, if_pos rfl]) (ih (position + 1))
    | false =>
      rw [Cursor.skipWhile_cons_of_neg position hSeparates]
      exact .here _ _ _

lemma passes_entry {d : Char} {tail : List Char} {pair : String × String}
    (hRest : (c.skipWhile separatesOptions).rest = d :: tail) (hClosing : d ≠ ')')
    (hEntry : scanOption Command.options.keyword opened (c.skipWhile separatesOptions)
      = .ok (pair, next)) : Command.options.Passes opened c next := by
  have hSeparates : separatesOptions d = false := by
    have hHead := List.head?_dropWhile_not separatesOptions c.rest
    rw [show c.rest.dropWhile separatesOptions = d :: tail from hRest] at hHead
    simpa using hHead
  have hPlace : c.skipWhile separatesOptions
      = ⟨(c.skipWhile separatesOptions).position, d :: tail⟩ := by
    rw [← hRest]
  have hSkipped := passes_skipWhile opened c
  rw [hPlace] at hSkipped hEntry
  exact hSkipped.trans (.entry hSeparates hClosing hEntry (.here _ _ _))

lemma runsOut_of_scanOptionEntries {raw : RawOptions}
    (h : scanOptionEntries Command.options.keyword opened raw c
      = .error (.notCompleted keyword p)) :
    (keyword = Command.options.keyword ∧ p = opened) ∧ Command.options.RunsOut opened c := by
  fun_induction scanOptionEntries Command.options.keyword opened raw c with
  | case1 raw c hRest =>
    cases h
    exact ⟨⟨rfl, rfl⟩, _, passes_skipWhile opened c, by rw [hRest]; exact List.not_mem_nil⟩
  | case2 => cases h
  | case3 raw c d tail hRest hClosing error hEntry =>
    cases h
    obtain ⟨hSame, hLast⟩ := eq_notCompleted_of_scanOption hEntry
    exact ⟨hSame, _, passes_skipWhile opened c, hLast⟩
  | case4 raw c d tail hRest hClosing key value next hEntry ih =>
    obtain ⟨hSame, hRunsOut⟩ := ih h
    exact ⟨hSame, (passes_entry hRest hClosing hEntry).runsOut hRunsOut⟩

lemma closes_of_scanOptionEntries {raw result : RawOptions}
    (h : scanOptionEntries Command.options.keyword opened raw c = .ok (result, next)) :
    Command.options.Closes opened c next := by
  fun_induction scanOptionEntries Command.options.keyword opened raw c with
  | case1 => cases h
  | case2 raw c tail hRest =>
    cases h
    exact ⟨_, passes_skipWhile opened c, by rw [hRest]; rfl, rfl⟩
  | case3 => cases h
  | case4 raw c d tail hRest hClosing key value between hEntry ih =>
    exact (passes_entry hRest hClosing hEntry).closes (ih h)

lemma passes_reference_skipped {d : Char} {tail : List Char} (hRest : c.rest = d :: tail)
    (hClass : CharClass.of d = .delimiter ∨ CharClass.of d = .filler ∨ CharClass.of d = .opening) :
    Command.reference.Passes opened c (c.advance 1) := by
  obtain ⟨position, rest⟩ := c
  obtain rfl : rest = d :: tail := hRest
  exact .skipped (Command.skips_of_class (by decide) hClass) (.here _ _ _)

lemma passes_reference_content {d : Char} {tail : List Char} {text : String}
    (hRest : c.rest = d :: tail) (hClass : CharClass.of d = .content)
    (hContent : scanContent ',' c = .ok (text, next)) :
    Command.reference.Passes opened c next := by
  obtain ⟨position, rest⟩ := c
  obtain rfl : rest = d :: tail := hRest
  exact .content (by decide) hClass hContent (.here _ _ _)

/-- Entries of a reference that are not completed go on to the end of the text. -/
lemma runsOut_of_scanEntries
    (h : scanEntries Command.reference.keyword opened c = .error (.notCompleted keyword p)) :
    (keyword = Command.reference.keyword ∧ p = opened) ∧ Command.reference.RunsOut opened c := by
  fun_induction scanEntries Command.reference.keyword opened c with
  | case1 c hRest =>
    cases h
    exact ⟨⟨rfl, rfl⟩, c, .here _ _ _, by rw [hRest]; exact List.not_mem_nil⟩
  | case2 => cases h
  | case3 c d tail hRest hClass ih | case4 c d tail hRest hClass ih
  | case5 c d tail hRest hClass ih =>
    obtain ⟨hSame, hRunsOut⟩ := ih h
    exact ⟨hSame, (passes_reference_skipped hRest (by simp [hClass])).runsOut hRunsOut⟩
  | case6 => cases h
  | case7 c d tail hRest hClass error hContent =>
    cases h
    exact absurd hContent scanContent_ne_notCompleted
  | case8 c d tail hRest hClass text next hContent error hError ih =>
    cases h
    obtain ⟨hSame, hRunsOut⟩ := ih hError
    exact ⟨hSame, (passes_reference_content hRest hClass hContent).runsOut hRunsOut⟩
  | case9 => cases h

lemma closes_of_scanEntries {entries : List String}
    (h : scanEntries Command.reference.keyword opened c = .ok (entries, next)) :
    Command.reference.Closes opened c next := by
  fun_induction scanEntries Command.reference.keyword opened c generalizing entries with
  | case1 => cases h
  | case2 c d tail hRest hClass =>
    cases h
    obtain rfl := eq_closing_of_class hClass
    exact ⟨c, .here _ _ _, by rw [hRest]; rfl, rfl⟩
  | case3 c d tail hRest hClass ih | case4 c d tail hRest hClass ih
  | case5 c d tail hRest hClass ih =>
    exact (passes_reference_skipped hRest (by simp [hClass])).closes (ih h)
  | case6 => cases h
  | case7 => cases h
  | case8 => cases h
  | case9 c d tail hRest hClass text between hContent others last hOthers ih =>
    cases h
    exact (passes_reference_content hRest hClass hContent).closes (ih hOthers)

lemma runsOut_of_scanOptions
    (h : scanOptions Command.options.keyword c = .error (.notCompleted keyword p)) :
    (keyword = Command.options.keyword ∧ p = c.position) ∧
      Command.options.RunsOut c.position (c.advance 1) := by
  unfold scanOptions at h
  split at h
  · exact runsOut_of_scanOptionEntries h
  · cases h

lemma closes_of_scanOptions {raw : RawOptions}
    (h : scanOptions Command.options.keyword c = .ok (raw, next)) :
    Command.options.Closes c.position (c.advance 1) next := by
  unfold scanOptions at h
  split at h
  · exact closes_of_scanOptionEntries h
  · cases h

lemma runsOut_of_scanReference
    (h : scanReference Command.reference.keyword c = .error (.notCompleted keyword p)) :
    (keyword = Command.reference.keyword ∧ p = c.position) ∧
      Command.reference.RunsOut c.position (c.advance 1) := by
  unfold scanReference at h
  split at h
  · split at h
    · rename_i hError
      cases h
      exact runsOut_of_scanEntries hError
    · split at h <;> cases h
  · cases h

lemma closes_of_scanReference {entries : List String}
    (h : scanReference Command.reference.keyword c = .ok (entries, next)) :
    Command.reference.Closes c.position (c.advance 1) next := by
  unfold scanReference at h
  split at h
  · split at h
    · cases h
    · rename_i hEntries
      split at h <;> cases h
      exact closes_of_scanEntries hEntries
  · cases h

end Scanners

/-! ## Arguments -/

section Arguments

variable {text : List Char} {c opened : Cursor} {command : Command}

/-- A command that is recognised at a place of a text stands there, and its items begin behind its
parenthesis. -/
lemma Command.standsAt_of_scanKeyword (hPlace : c.In text)
    (h : scanKeyword c = .ok (command, opened)) :
    command.StandsAt text c.position opened.position ∧
      opened.advance 1 = inside text opened.position := by
  have hCursor : c = ⟨c.position, text.drop c.position⟩ := by rw [hPlace.drop_eq]
  rw [hCursor] at h
  obtain ⟨position, hStands, rfl⟩ := scanKeyword_eq_ok_iff.1 h
  refine ⟨hStands, ?_⟩
  rw [inside, ← List.drop_drop]
  rfl

lemma isUnclosedAt_of_runsOut {keyword : String} {p : Nat} (hPlace : c.In text)
    (hKeyword : scanKeyword c = .ok (command, opened))
    (hCommand : command = .options ∨ command = .reference)
    (hSame : keyword = command.keyword ∧ p = opened.position)
    (hRunsOut : command.RunsOut opened.position (opened.advance 1)) :
    IsUnclosedAt text keyword p := by
  obtain ⟨hStands, hInside⟩ := Command.standsAt_of_scanKeyword hPlace hKeyword
  rw [hInside] at hRunsOut
  refine ⟨command, c.position, opened.position, hSame.1.symm, hStands,
    Command.unclosed_of_runsOut hStands hRunsOut, ?_⟩
  rw [Command.reportedAt, if_pos hCommand, hSame.2]

/-- Where an argument cannot be scanned because a command was not completed, that command is an
unclosed option list or reference. -/
lemma StuckAt.reports {e : ParseError} (hPlace : c.In text) (h : StuckAt c e) :
    e.Reports text := by
  rintro keyword p rfl
  cases h with
  | content hContent => exact absurd hContent scanContent_ne_notCompleted
  | keyword hKeyword => exact absurd hKeyword scanKeyword_ne_notCompleted
  | options hKeyword hOptions =>
    obtain ⟨hSame, hRunsOut⟩ := runsOut_of_scanOptions hOptions
    exact isUnclosedAt_of_runsOut hPlace hKeyword (Or.inl rfl) hSame hRunsOut
  | reference hKeyword hReference =>
    obtain ⟨hSame, hRunsOut⟩ := runsOut_of_scanReference hReference
    exact isUnclosedAt_of_runsOut hPlace hKeyword (Or.inr rfl) hSame hRunsOut

/-- Arguments that are read to their end go on to a closing parenthesis. -/
lemma ReadsArguments.closes {keyword : String} {start : Nat} {args : Arguments}
    {last : Except ParseError Cursor} {next : Cursor} (h : ReadsArguments keyword start c args last)
    (hLast : last = .ok next) {command : Command} (hOptions : command ≠ .options)
    (hReference : command ≠ .reference) (place : Nat) : command.Closes place c next := by
  induction h generalizing command place next with
  | ended => cases hLast
  | closing =>
    cases hLast
    exact ⟨_, .here _ _ _, rfl, rfl⟩
  | passed hClass hRest ih =>
    have hSkips := Command.skips_of_class hOptions hClass
    exact (Command.Passes.skipped hSkips (.here _ _ _)).closes (ih hLast hOptions hReference place)
  | stuck => cases hLast
  | content hClass hContent hRest ih =>
    exact (Command.Passes.content hOptions hClass hContent (.here _ _ _)).closes
      (ih hLast hOptions hReference place)
  | options hClass hChild hRead hRest ih =>
    exact (Command.Passes.over_nested hOptions hReference hClass hChild
      (closes_of_scanOptions hRead)).closes (ih hLast hOptions hReference place)
  | reference hClass hChild hRead hRest ih =>
    exact (Command.Passes.over_nested hOptions hReference hClass hChild
      (closes_of_scanReference hRead)).closes (ih hLast hOptions hReference place)
  | unclosed => cases hLast
  | command hClass hChildOptions hChildReference hChild hInner hRest ihInner ih =>
    exact (Command.Passes.over_nested hOptions hReference hClass hChild
      (ihInner rfl hChildOptions hChildReference _)).closes (ih hLast hOptions hReference place)

/-- A place between the parentheses of a command of a text, whose items are arguments, that one gets
to from behind the opening one. -/
structure Command.Reaches (command : Command) (text : List Char) (position opened : Nat)
    (c : Cursor) : Prop where
  not_options : command ≠ .options
  not_reference : command ≠ .reference
  stands : command.StandsAt text position opened
  passes : command.Passes opened (inside text opened) c
  place : c.In text

namespace Command.Reaches

lemma of_scanKeyword (hPlace : c.In text) (hKeyword : scanKeyword c = .ok (command, opened))
    (hOptions : command ≠ .options) (hReference : command ≠ .reference) :
    command.Reaches text c.position opened.position (opened.advance 1) := by
  obtain ⟨hStands, hInside⟩ := standsAt_of_scanKeyword hPlace hKeyword
  obtain ⟨hOpened, -, hAdvance⟩ := leads_of_scanKeyword hKeyword
  refine ⟨hOptions, hReference, hStands, ?_, (hPlace.leads hOpened).leads hAdvance⟩
  rw [hInside]
  exact .here _ _ _

variable {position place p : Nat} {d : Cursor}

lemma further (h : command.Reaches text position place c) (hFurther : command.Passes place c d) :
    command.Reaches text position place d :=
  ⟨h.not_options, h.not_reference, h.stands, h.passes.trans hFurther,
    h.place.leads hFurther.leads⟩

lemma over_nested {child : Command} {e : Char} {tail : List Char}
    (h : command.Reaches text position place ⟨p, e :: tail⟩) (hClass : CharClass.of e = .sigil)
    (hChild : scanKeyword ⟨p, e :: tail⟩ = .ok (child, opened))
    (hInner : child.Closes opened.position (opened.advance 1) d) :
    command.Reaches text position place d :=
  h.further (.over_nested h.not_options h.not_reference hClass hChild hInner)

lemma isUnclosedAt (h : command.Reaches text position place ⟨p, []⟩) :
    IsUnclosedAt text command.keyword position := by
  have hRunsOut : command.RunsOut place (inside text place) := ⟨_, h.passes, List.not_mem_nil⟩
  refine ⟨command, position, place, rfl, h.stands, unclosed_of_runsOut h.stands hRunsOut, ?_⟩
  rw [reportedAt, if_neg (not_or.2 ⟨h.not_options, h.not_reference⟩)]

end Command.Reaches

/-- Where arguments of a command end at a fault that says that a command was not completed, one of
that keyword is unclosed: the command itself, or one that is nested in it. -/
lemma ReadsArguments.reports {keyword : String} {start : Nat} {args : Arguments}
    {last : Except ParseError Cursor} {e : ParseError}
    (h : ReadsArguments keyword start c args last) (hLast : last = .error e) {command : Command}
    {place : Nat} (hKeyword : command.keyword = keyword)
    (hReaches : command.Reaches text start place c) : e.Reports text := by
  induction h generalizing command place with
  | ended =>
    cases hLast
    rintro _ _ ⟨⟩
    rw [← hKeyword]
    exact hReaches.isUnclosedAt
  | closing => cases hLast
  | passed hClass hRest ih =>
    have hSkips := Command.skips_of_class hReaches.not_options hClass
    exact ih hLast hKeyword (hReaches.further (.skipped hSkips (.here _ _ _)))
  | stuck hStuck =>
    cases hLast
    exact hStuck.reports hReaches.place
  | content hClass hContent hRest ih =>
    exact ih hLast hKeyword
      (hReaches.further (.content hReaches.not_options hClass hContent (.here _ _ _)))
  | options hClass hChild hRead hRest ih =>
    exact ih hLast hKeyword (hReaches.over_nested hClass hChild (closes_of_scanOptions hRead))
  | reference hClass hChild hRead hRest ih =>
    exact ih hLast hKeyword (hReaches.over_nested hClass hChild (closes_of_scanReference hRead))
  | unclosed hClass hChildOptions hChildReference hChild hInner ihInner =>
    exact ihInner hLast rfl
      (.of_scanKeyword hReaches.place hChild hChildOptions hChildReference)
  | command hClass hChildOptions hChildReference hChild hInner hRest ihInner ih =>
    exact ih hLast hKeyword
      (hReaches.over_nested hClass hChild (hInner.closes rfl hChildOptions hChildReference _))

end Arguments

end PolicyText
