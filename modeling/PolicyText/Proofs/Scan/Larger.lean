import PolicyText.Proofs.Scan.Continued
import PolicyText.Proofs.Scan.Reads

/-!
# Arguments within a larger text

The arguments that are found in a text are found in a larger one as well, up to the place at which
the smaller text did not suffice: there the arguments end in a fault that is not settled, and in the
larger text anything can stand instead.  `Arguments.Continues` says this of two arguments.  One more
thing can change at that place: content at the very end of a text can be of another extent in the
larger one, for the quotes that close it need not be the last ones.

The loop over arguments keeps all of this (`ReadsArguments.continues`).  The induction is on what it
does in the smaller text, and what carries it is that behind every argument it stands at the same
place of both texts, but for fillers, which it passes over anyway (`ContinuesAt.skipFiller`).  A step
that the loop takes in both texts stays in front of the rest (`StepsTo.continues`).
-/

namespace PolicyText

/-- Arguments of a text as they are found in a larger one, in which a number of characters stands
before it. -/
inductive Arguments.Continues (before : Nat) : Arguments → Arguments → Prop where
  | closed : Continues before .closed .closed
  | fault {e : ParseError} {larger : Arguments}
    (h : before = 0 → e.isSettled = true → larger = .fault e) :
    Continues before (.fault e) larger
  | interrupted (text : String) {e : ParseError} (h : e.isSettled = false) (larger : Arguments) :
    Continues before (.content text (.fault e)) larger
  | content (text : String) {rest larger : Arguments} (hRest : Continues before rest larger) :
    Continues before (.content text rest) (.content text larger)
  | options (raw : RawOptions) {rest larger : Arguments} (hRest : Continues before rest larger) :
    Continues before (.options raw rest) (.options raw larger)
  | reference (entries : List String) {rest larger : Arguments}
    (hRest : Continues before rest larger) :
    Continues before (.reference entries rest) (.reference entries larger)
  | command (position : Nat) (child : Command) {inner largerInner rest larger : Arguments}
    (hInner : Continues before inner largerInner) (hRest : Continues before rest larger) :
    Continues before (.command position child inner rest)
      (.command (before + position) child largerInner larger)

lemma Arguments.Continues.of_unsettled {before : Nat} {e : ParseError} (h : e.isSettled = false)
    (larger : Arguments) : Continues before (.fault e) larger :=
  .fault fun _ hSettled => nomatch h.symm.trans hSettled

lemma readArguments_skipFiller (keyword : String) (start : Nat) (c : Cursor) :
    readArguments keyword start c.skipFiller = readArguments keyword start c := by
  have hRun : ∀ d ∈ c.rest.takeWhile isFiller, separatesArguments d = true := by
    intro d hd
    have hFiller : isFiller d = true := @List.mem_takeWhile_imp _ isFiller c.rest d hd
    rw [separatesArguments, hFiller, Bool.or_true]
  have hPass := (passesOver_readArguments keyword start).append hRun c.position
    (c.rest.dropWhile isFiller)
  rw [List.takeWhile_append_dropWhile] at hPass
  exact hPass.symm

lemma class_of_scanKeyword {position : Nat} {d : Char} {tail : List Char} {command : Command}
    {opened : Cursor} (h : scanKeyword ⟨position, d :: tail⟩ = .ok (command, opened)) :
    CharClass.of d = .sigil := by
  obtain ⟨_, _, _, hCons, hClass⟩ := exists_cons_of_scanKeyword h
  cases hCons
  exact hClass

/-- An argument that cannot be scanned for a settled reason cannot be scanned for it if the text
goes on. -/
lemma StuckAt.settled {position : Nat} {d : Char} {tail after : List Char} {e : ParseError}
    (h : StuckAt ⟨position, d :: tail⟩ e) (hSettled : e.isSettled = true) (keyword : String)
    (start : Nat) :
    readArguments keyword start (Cursor.within 0 after ⟨position, d :: tail⟩)
      = (.fault e, .error e) := by
  cases h with
  | content hContent => cases (isSettled_of_scanContent hContent).symm.trans hSettled
  | keyword hKeyword => cases (isSettled_of_scanKeyword hKeyword).symm.trans hSettled
  | @options opened hKeyword hOptions =>
    have hSmaller := (length_of_scanKeyword hKeyword).2
    have hKept := scanOptions_kept Command.options.keyword hSmaller 0 after
    rw [hOptions] at hKept
    have hLarger := scanKeyword_within hKeyword 0 after
    rw [Cursor.within_cons] at hLarger ⊢
    rw [readArguments_cons, class_of_scanKeyword hKeyword, hLarger]
    simp only [hKept rfl hSettled]
  | @reference opened hKeyword hReference =>
    have hSmaller := (length_of_scanKeyword hKeyword).2
    have hKept := scanReference_kept Command.reference.keyword hSmaller 0 after
    rw [hReference] at hKept
    have hLarger := scanKeyword_within hKeyword 0 after
    rw [Cursor.within_cons] at hLarger ⊢
    rw [readArguments_cons, class_of_scanKeyword hKeyword, hLarger]
    simp only [hKept rfl hSettled]

/-- Arguments that are read from a place of the larger text on continue those of a text. -/
def ContinuesAt (before : Nat) (keyword : String) (place : Nat) (c : Cursor) (args : Arguments)
    (last : Except ParseError Cursor) : Prop :=
  args.Continues before (readArguments keyword place c).1 ∧
    Kept before last (readArguments keyword place c).2

section Steps

variable {before place : Nat} {after : List Char} {keyword : String} {args : Arguments}
  {last : Except ParseError Cursor} {wrap change : Arguments → Arguments} {c next : Cursor}

lemma StepsTo.continues (hStep : StepsTo change c next)
    (hWrap : ∀ {larger}, args.Continues before larger →
      (wrap args).Continues before (change larger))
    (h : ContinuesAt before keyword place next args last) :
    ContinuesAt before keyword place c (wrap args) last := by
  rw [ContinuesAt, hStep]
  exact ⟨hWrap h.1, h.2⟩

/-- Fillers behind an argument are passed over in either text. -/
lemma ContinuesAt.skipFiller
    (h : ContinuesAt before keyword place (next.within before after) args last) :
    ContinuesAt before keyword place (next.continued before after) args last := by
  rwa [ContinuesAt, Cursor.continued, readArguments_skipFiller]

/-- A command that is not closed in the smaller text can be closed in the larger one, but then the
fault was not settled. -/
lemma ContinuesAt.unclosed {position : Nat} {d : Char} {tail : List Char} {command : Command}
    {opened : Cursor} {inner : Arguments} {e : ParseError} (hClass : CharClass.of d = .sigil)
    (hOptions : command ≠ .options) (hReference : command ≠ .reference)
    (hKeyword : scanKeyword ⟨before + position, d :: tail⟩ = .ok (command, opened))
    (h : ContinuesAt before command.keyword (before + position) (opened.advance 1) inner
      (.error e)) :
    ContinuesAt before keyword place ⟨before + position, d :: tail⟩
      (.command position command inner (.fault e)) (.error e) := by
  obtain ⟨hInner, hLast⟩ := h
  rcases hRead : readArguments command.keyword (before + position) (opened.advance 1) with
    ⟨larger, fault | next⟩
  · rw [hRead] at hInner hLast
    rw [ContinuesAt, readArguments_unclosed hClass hOptions hReference hKeyword hRead]
    refine ⟨.command position command hInner (.fault fun hZero hSettled => ?_), hLast⟩
    rw [Except.error.inj (hLast hZero hSettled)]
  · rw [hRead] at hInner hLast
    rw [ContinuesAt, readArguments_command hClass hOptions hReference hKeyword hRead]
    exact ⟨.command position command hInner (.fault fun hZero hSettled =>
      nomatch hLast hZero hSettled), fun hZero hSettled => nomatch hLast hZero hSettled⟩

end Steps

/-- The arguments that are found in a text are found in a larger one. -/
lemma ReadsArguments.continues {keyword : String} {start : Nat} {c : Cursor} {args : Arguments}
    {last : Except ParseError Cursor} (h : ReadsArguments keyword start c args last)
    (before : Nat) (after : List Char) (place : Nat) :
    ContinuesAt before keyword place (c.within before after) args
      (last.map (Cursor.continued before after)) := by
  induction h generalizing place with
  | ended => exact ⟨.of_unsettled rfl _, .of_unsettled rfl _⟩
  | closing =>
    rw [ContinuesAt, Cursor.within_cons, readArguments_closing]
    refine ⟨.closed, ?_⟩
    rw [Except.map, Cursor.continued_skipFiller]
    rfl
  | passed hClass hRest ih =>
    exact @StepsTo.continues _ _ _ _ _ id id _ _ (stepsTo_passed hClass _ _) id (ih place)
  | @stuck keyword start position d tail e hStuck =>
    by_cases hBefore : before = 0 ∧ e.isSettled = true
    · obtain ⟨rfl, hSettled⟩ := hBefore
      rw [ContinuesAt, hStuck.settled hSettled]
      exact ⟨.fault fun _ _ => rfl, fun _ _ => rfl⟩
    · exact ⟨.fault fun hZero hSettled => absurd ⟨hZero, hSettled⟩ hBefore,
        fun hZero hSettled => absurd ⟨hZero, hSettled⟩ hBefore⟩
  | @content keyword start position d tail text next args last hClass hContent hRest ih =>
    by_cases hNext : next.rest = []
    · -- Nothing is left, and so the smaller text ends here.
      obtain ⟨end_, rest⟩ := next
      obtain rfl : rest = [] := hNext
      cases hRest
      exact ⟨.interrupted _ rfl _, .of_unsettled rfl _⟩
    · have hLarger := scanContent_within hContent hNext before after
      exact (stepsTo_content hClass hLarger).continues (.content text) (ih place)
  | @options keyword start position d tail raw opened next args last hClass hKeyword hOptions hRest
      ih =>
    have hKept := scanOptions_kept Command.options.keyword (length_of_scanKeyword hKeyword).2
      before after
    rw [hOptions] at hKept
    exact (stepsTo_options (scanKeyword_within hKeyword before after) hKept).continues
      (.options raw) (ih place).skipFiller
  | @reference keyword start position d tail entries opened next args last hClass hKeyword
      hReference hRest ih =>
    have hKept := scanReference_kept Command.reference.keyword (length_of_scanKeyword hKeyword).2
      before after
    rw [hReference] at hKept
    exact (stepsTo_reference (scanKeyword_within hKeyword before after) hKept).continues
      (.reference entries) (ih place).skipFiller
  | @unclosed keyword start position d tail command opened inner e hClass hOptions hReference
      hKeyword hInner ih =>
    have hWithin := ih (before + position)
    rw [← advance_within_of_scanKeyword hKeyword] at hWithin
    exact hWithin.unclosed hClass hOptions hReference (scanKeyword_within hKeyword before after)
  | @command keyword start position d tail command opened next inner args last hClass hOptions
      hReference hKeyword hInner hRest ihInner ih =>
    obtain ⟨hInnerArgs, hInnerLast⟩ := ihInner (before + position)
    rw [← advance_within_of_scanKeyword hKeyword] at hInnerArgs hInnerLast
    exact (stepsTo_command hOptions hReference (scanKeyword_within hKeyword before after)
      (Prod.ext rfl hInnerLast)).continues (.command position command hInnerArgs)
      (ih place).skipFiller

end PolicyText
