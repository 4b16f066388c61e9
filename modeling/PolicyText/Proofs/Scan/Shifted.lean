import PolicyText.Proofs.Scan.Continued

/-!
# A text that stands further on

Positions are counted from the beginning of a text.  When characters are put before a text, every
place of it lies further on by their number (`Cursor.shift`), and nothing else about it changes:
what is left of the text behind the place is the same.

Scanners compare what is left with characters and lengths, and use a position for two things only:
they add to it, and they report it.  So each of them does at a shifted place what it does at the
place itself; it finds the same, ends at a shifted place, and reports the same errors at shifted
positions.  This is one equation for each scanner, from skipping (`Cursor.skipWhile_shift`) up to
the loop over arguments (`readArguments_shift`).

An outcome is shifted by `shiftOutcome`.  It goes through sequences of steps (`shiftOutcome_bind`),
and leaves an outcome alone that knows no positions.
-/

namespace PolicyText

/-! ## Places, errors and arguments -/

/-- A place of a text, as a place of the text before which a number of characters stand. -/
def Cursor.shift (n : Nat) (c : Cursor) : Cursor :=
  ⟨n + c.position, c.rest⟩

/-- An error, as it is reported about the text before which a number of characters stand. -/
def ParseError.shift (n : Nat) : ParseError → ParseError
  | .inputTooShort position => .inputTooShort (n + position)
  | .unterminatedLiteral wrapper position => .unterminatedLiteral wrapper (n + position)
  | .missingTerminator position => .missingTerminator (n + position)
  | .notStarted keyword position => .notStarted keyword (n + position)
  | .notCompleted keyword position => .notCompleted keyword (n + position)
  | .trailingInput position => .trailingInput (n + position)
  | .unknownCommand candidate position => .unknownCommand candidate (n + position)
  | .ambiguousCommand candidate keywords position =>
    .ambiguousCommand candidate keywords (n + position)
  | .missingGroupOpen keyword position => .missingGroupOpen keyword (n + position)
  | .unexpectedChild parent expected keyword kind position =>
    .unexpectedChild parent expected keyword kind (n + position)
  | .emptyOptionKey position => .emptyOptionKey (n + position)
  | .referenceArity count position => .referenceArity count (n + position)
  | .nestedInReference position => .nestedInReference (n + position)
  | .depthExceeded most position => .depthExceeded most (n + position)
  | error => error

/-- Arguments, as they are found in the text before which a number of characters stand. -/
def Arguments.shift (n : Nat) : Arguments → Arguments
  | .closed => .closed
  | .fault error => .fault (error.shift n)
  | .content text rest => .content text (rest.shift n)
  | .options raw rest => .options raw (rest.shift n)
  | .reference entries rest => .reference entries (rest.shift n)
  | .command position child inner rest =>
    .command (n + position) child (inner.shift n) (rest.shift n)

lemma ParseError.shift_of_position?_eq_none {e : ParseError} (h : e.position? = none) (n : Nat) :
    e.shift n = e := by
  cases e <;> first | rfl | cases h

/-! ## Outcomes -/

section Outcomes

variable {α β γ δ : Type}

/-- An outcome, as it is in the text before which a number of characters stand, if the results are
changed in a given way. -/
def shiftOutcome (n : Nat) (change : α → β) : Except ParseError α → Except ParseError β
  | .ok a => .ok (change a)
  | .error e => .error (e.shift n)

variable {n : Nat} {change : α → β} {changeNext : γ → δ} {outcome : Except ParseError α}

@[simp] lemma shiftOutcome_ok (n : Nat) (change : α → β) (a : α) :
    shiftOutcome n change (.ok a) = .ok (change a) :=
  rfl

@[simp] lemma shiftOutcome_error (n : Nat) (change : α → β) (e : ParseError) :
    shiftOutcome n change (.error e) = .error (e.shift n) :=
  rfl

lemma shiftOutcome_bind {next : α → Except ParseError γ} {shifted : β → Except ParseError δ}
    (hNext : ∀ a, shifted (change a) = shiftOutcome n changeNext (next a)) :
    shiftOutcome n change outcome >>= shifted
      = shiftOutcome n changeNext (outcome >>= next) := by
  cases outcome with
  | ok a => exact hNext a
  | error e => rfl

lemma shiftOutcome_id_eq_ok {a : α} : shiftOutcome n id outcome = .ok a ↔ outcome = .ok a := by
  cases outcome with
  | ok b => exact Iff.rfl
  | error e => exact ⟨nofun, nofun⟩

end Outcomes

/-! ## Skipping and content -/

namespace Cursor

@[simp] lemma rest_shift (n : Nat) (c : Cursor) : (c.shift n).rest = c.rest :=
  rfl

@[simp] lemma position_shift (n : Nat) (c : Cursor) : (c.shift n).position = n + c.position :=
  rfl

@[simp] lemma advance_shift (n k : Nat) (c : Cursor) :
    (c.shift n).advance k = (c.advance k).shift n := by
  simp only [advance, shift, Nat.add_assoc]

@[simp] lemma skipWhile_shift (n : Nat) (p : Char → Bool) (c : Cursor) :
    (c.shift n).skipWhile p = (c.skipWhile p).shift n := by
  simp only [skipWhile, shift, Nat.add_assoc]

@[simp] lemma skipFiller_shift (n : Nat) (c : Cursor) :
    (c.shift n).skipFiller = c.skipFiller.shift n :=
  skipWhile_shift n isFiller c

end Cursor

variable (n : Nat)

lemma scanWrapped_shift (w : Wrapper) (c : Cursor) :
    scanWrapped w (c.shift n)
      = shiftOutcome n (Prod.map id (Cursor.shift n)) (scanWrapped w c) := by
  simp only [scanWrapped, Cursor.rest_shift, Cursor.position_shift]
  split
  · rfl
  · rename_i body after _
    have hPlace := Cursor.skipFiller_shift n ⟨c.position + 2 * w.mark.length + body.length, after⟩
    rw [Cursor.shift, ← Nat.add_assoc, ← Nat.add_assoc] at hPlace
    rw [hPlace]
    rfl

lemma scanContent_shift (stop : Char) (c : Cursor) :
    scanContent stop (c.shift n)
      = shiftOutcome n (Prod.map id (Cursor.shift n)) (scanContent stop c) := by
  simp only [scanContent, Cursor.rest_shift, Cursor.skipWhile_shift]
  split
  · exact scanWrapped_shift n _ c
  · split <;> rfl

/-! ## Keywords -/

lemma scanKeyword_shift (c : Cursor) :
    scanKeyword (c.shift n)
      = shiftOutcome n (Prod.map id (Cursor.shift n)) (scanKeyword c) := by
  simp only [scanKeyword, Cursor.rest_shift, Cursor.advance_shift, Cursor.skipFiller_shift]
  split
  · rfl
  · split
    · rfl
    · split <;> rfl
    · rfl

/-! ## Option lists -/

variable (keyword : String) (opened : Nat)

lemma scanOptionRest_shift (key : String) (c : Cursor) :
    scanOptionRest keyword (n + opened) key (c.shift n)
      = shiftOutcome n (Prod.map id (Cursor.shift n)) (scanOptionRest keyword opened key c) := by
  simp only [scanOptionRest, scanOptionValue, Cursor.rest_shift, Cursor.advance_shift,
    Cursor.skipWhile_shift]
  split
  · split
    · rfl
    · split
      · rfl
      · exact scanContent_shift n ',' _
  · split <;> rfl

lemma scanOption_shift (c : Cursor) :
    scanOption keyword (n + opened) (c.shift n)
      = shiftOutcome n (Prod.map id (Cursor.shift n)) (scanOption keyword opened c) := by
  simp only [scanOption, Cursor.rest_shift, Cursor.skipWhile_shift, scanOptionRest_shift]
  split
  · rfl
  split
  · rfl
  cases scanOptionRest keyword opened _ _ with
  | error e => rfl
  | ok found =>
    simp only [shiftOutcome_ok, Prod.map, id]
    by_cases hValue : found.1.isEmpty = true
    · simp only [if_pos hValue]
      rfl
    · simp only [if_neg hValue]
      rfl

/-- Entries are read alike further on. -/
lemma scanOptionEntries_shift (raw : RawOptions) (c : Cursor) :
    scanOptionEntries keyword (n + opened) raw (c.shift n)
      = shiftOutcome n (Prod.map id (Cursor.shift n))
          (scanOptionEntries keyword opened raw c) := by
  fun_induction scanOptionEntries keyword opened raw c with
  | case1 raw c hRest =>
    rw [scanOptionEntries_eq]
    simp only [Cursor.skipWhile_shift, Cursor.rest_shift, hRest]
    rfl
  | case2 raw c tail hRest =>
    rw [scanOptionEntries_eq]
    simp only [Cursor.skipWhile_shift, Cursor.rest_shift, hRest, if_true, Cursor.advance_shift,
      Cursor.skipFiller_shift]
    rfl
  | case3 raw c d tail hRest hClosing error hOption =>
    rw [scanOptionEntries_eq]
    simp only [Cursor.skipWhile_shift, Cursor.rest_shift, hRest, if_neg hClosing,
      scanOption_shift, hOption]
    rfl
  | case4 raw c d tail hRest hClosing key value next hOption ih =>
    rw [scanOptionEntries_eq]
    simp only [Cursor.skipWhile_shift, Cursor.rest_shift, hRest, if_neg hClosing,
      scanOption_shift, hOption]
    exact ih

lemma scanOptions_shift (c : Cursor) :
    scanOptions keyword (c.shift n)
      = shiftOutcome n (Prod.map id (Cursor.shift n)) (scanOptions keyword c) := by
  simp only [scanOptions, Cursor.rest_shift, Cursor.position_shift, Cursor.advance_shift]
  split
  · exact scanOptionEntries_shift n keyword c.position [] _
  · rfl

/-! ## References -/

/-- The entries of a reference are read alike further on. -/
lemma scanEntries_shift (c : Cursor) :
    scanEntries keyword (n + opened) (c.shift n)
      = shiftOutcome n (Prod.map id (Cursor.shift n)) (scanEntries keyword opened c) := by
  have hHere {c : Cursor} {d : Char} {tail : List Char} (hRest : c.rest = d :: tail) :
      c.shift n = ⟨n + c.position, d :: tail⟩ ∧
        (⟨n + c.position + 1, tail⟩ : Cursor) = (c.advance 1).shift n := by
    simp only [Cursor.shift, Cursor.advance, hRest, Nat.add_assoc, List.drop_one, List.tail_cons,
      and_self]
  fun_induction scanEntries keyword opened c with
  | case1 c hRest => exact scanEntries_of_nil keyword (n + opened) hRest
  | case2 c d tail hRest hClass =>
    obtain ⟨hShift, hTail⟩ := hHere hRest
    rw [hShift, scanEntries_cons, hClass, hTail, Cursor.skipFiller_shift]
    rfl
  | case3 c d tail hRest hClass ih | case4 c d tail hRest hClass ih
  | case5 c d tail hRest hClass ih =>
    obtain ⟨hShift, hTail⟩ := hHere hRest
    rw [hShift, scanEntries_cons, hClass, hTail]
    exact ih
  | case6 c d tail hRest hClass =>
    rw [(hHere hRest).1, scanEntries_cons, hClass]
    rfl
  | case7 c d tail hRest hClass error hContent =>
    have hShifted := scanContent_shift n ',' c
    rw [hContent, (hHere hRest).1] at hShifted
    rw [(hHere hRest).1, scanEntries_cons, hClass, hShifted]
    rfl
  | case8 c d tail hRest hClass text next hContent
  | case9 c d tail hRest hClass text next hContent =>
    rename_i hEntries ih
    have hShifted := scanContent_shift n ',' c
    rw [hContent, (hHere hRest).1] at hShifted
    rw [hEntries] at ih
    rw [(hHere hRest).1, scanEntries_content hClass hShifted, ih]
    rfl

lemma scanReference_shift (c : Cursor) :
    scanReference keyword (c.shift n)
      = shiftOutcome n (Prod.map id (Cursor.shift n)) (scanReference keyword c) := by
  simp only [scanReference, Cursor.rest_shift, Cursor.position_shift, Cursor.advance_shift,
    scanEntries_shift]
  split
  · cases scanEntries keyword c.position (c.advance 1) with
    | error e => rfl
    | ok found =>
      simp only [shiftOutcome_ok, Prod.map, id]
      split <;> rfl
  · rfl

/-! ## Arguments -/

section Arguments

variable {α : Type} {keyword : String} {start position : Nat} {d : Char} {tail : List Char}
  {opened : Cursor}

/-- Arguments of which the first is what a scanner finds, and the others are read behind it. -/
def argumentsBehind (wrap : α → Arguments → Arguments)
    (rest : Cursor → Arguments × Except ParseError Cursor) :
    Except ParseError (α × Cursor) → Arguments × Except ParseError Cursor
  | .error error => (.fault error, .error error)
  | .ok (a, next) => (rest next).map (wrap a) id

lemma readArguments_of_content (hClass : CharClass.of d = .content) :
    readArguments keyword start ⟨position, d :: tail⟩
      = argumentsBehind .content (readArguments keyword start)
          (scanContent ',' ⟨position, d :: tail⟩) := by
  rw [readArguments_cons, hClass]
  cases scanContent ',' ⟨position, d :: tail⟩ <;> rfl

lemma readArguments_of_options (hClass : CharClass.of d = .sigil)
    (hKeyword : scanKeyword ⟨position, d :: tail⟩ = .ok (.options, opened)) :
    readArguments keyword start ⟨position, d :: tail⟩
      = argumentsBehind .options (readArguments keyword start)
          (scanOptions Command.options.keyword opened) := by
  simp only [readArguments_cons, hClass, hKeyword]
  cases scanOptions Command.options.keyword opened <;> rfl

lemma readArguments_of_reference (hClass : CharClass.of d = .sigil)
    (hKeyword : scanKeyword ⟨position, d :: tail⟩ = .ok (.reference, opened)) :
    readArguments keyword start ⟨position, d :: tail⟩
      = argumentsBehind .reference (readArguments keyword start)
          (scanReference Command.reference.keyword opened) := by
  simp only [readArguments_cons, hClass, hKeyword]
  cases scanReference Command.reference.keyword opened <;> rfl

/-- What a scanner finds alike further on is the first of arguments that are read alike, if those
behind it are. -/
lemma argumentsBehind_shift {wrap : α → Arguments → Arguments}
    (hWrap : ∀ a args, wrap a (Arguments.shift n args) = (wrap a args).shift n)
    {rest shifted : Cursor → Arguments × Except ParseError Cursor}
    {outcome : Except ParseError (α × Cursor)}
    (hRest : ∀ a next, outcome = .ok (a, next) → shifted (next.shift n)
      = Prod.map (Arguments.shift n) (shiftOutcome n (Cursor.shift n)) (rest next)) :
    argumentsBehind wrap shifted (shiftOutcome n (Prod.map id (Cursor.shift n)) outcome)
      = Prod.map (Arguments.shift n) (shiftOutcome n (Cursor.shift n))
          (argumentsBehind wrap rest outcome) := by
  cases outcome with
  | error e => rfl
  | ok found =>
    obtain ⟨a, next⟩ := found
    simp only [shiftOutcome_ok, Prod.map, argumentsBehind, hRest a next rfl, hWrap, id]

end Arguments

/-- The arguments of a command are read alike further on. -/
lemma readArguments_shift (start : Nat) (c : Cursor) :
    readArguments keyword (n + start) (c.shift n)
      = Prod.map (Arguments.shift n) (shiftOutcome n (Cursor.shift n))
          (readArguments keyword start c) := by
  -- The induction is on what is left: an argument, and the commands in it, end further on.
  induction hLength : c.rest.length using Nat.strong_induction_on
    generalizing keyword start c with
  | _ length ih =>
    subst hLength
    obtain ⟨position, rest⟩ := c
    cases rest with
    | nil =>
      rw [Cursor.shift, readArguments_nil, readArguments_nil]
      rfl
    | cons d tail =>
      have hNext (keyword : String) (start : Nat) (next : Cursor)
          (hLess : next.rest.length < (d :: tail).length) := ih _ hLess keyword start next rfl
      have hContent := scanContent_shift n ',' ⟨position, d :: tail⟩
      have hKeyword := scanKeyword_shift n ⟨position, d :: tail⟩
      rw [Cursor.shift] at hContent hKeyword ⊢
      cases hClass : CharClass.of d with
      | closing =>
        have hPlace := Cursor.skipFiller_shift n ⟨position + 1, tail⟩
        rw [Cursor.shift, ← Nat.add_assoc] at hPlace
        obtain rfl := eq_closing_of_class hClass
        rw [readArguments_closing, readArguments_closing, hPlace]
        rfl
      | delimiter | filler | opening =>
        have hTail := hNext keyword start ⟨position + 1, tail⟩ (by simp)
        rw [Cursor.shift, ← Nat.add_assoc] at hTail
        simp only [readArguments_cons, hClass, hTail]
      | content =>
        rw [readArguments_of_content hClass, readArguments_of_content hClass, hContent]
        apply argumentsBehind_shift n (by intro _ _; rfl)
        intro text next hFound
        exact hNext keyword start next
          (length_of_scanContent rfl (endsContent_of_content hClass) hFound)
      | sigil =>
        cases hFound : scanKeyword ⟨position, d :: tail⟩ with
        | error e =>
          rw [hFound] at hKeyword
          simp only [readArguments_cons, hClass, hFound, hKeyword]
          rfl
        | ok found =>
          obtain ⟨command, opened⟩ := found
          rw [hFound] at hKeyword
          have hOpened := (length_of_scanKeyword hFound).1
          by_cases hOptions : command = .options
          · subst hOptions
            rw [readArguments_of_options hClass hFound,
              readArguments_of_options hClass hKeyword, scanOptions_shift]
            apply argumentsBehind_shift n (by intro _ _; rfl)
            intro raw next hScan
            exact hNext keyword start next (Nat.lt_trans (length_of_scanOptions hScan) hOpened)
          by_cases hReference : command = .reference
          · subst hReference
            rw [readArguments_of_reference hClass hFound,
              readArguments_of_reference hClass hKeyword, scanReference_shift]
            apply argumentsBehind_shift n (by intro _ _; rfl)
            intro entries next hScan
            exact hNext keyword start next (Nat.lt_trans (length_of_scanReference hScan) hOpened)
          have hBehind : (opened.advance 1).rest.length < (d :: tail).length :=
            Nat.lt_of_le_of_lt (Cursor.length_rest_advance_le 1 opened) hOpened
          have hInner := hNext command.keyword position (opened.advance 1) hBehind
          rw [← Cursor.advance_shift] at hInner
          rcases hRead : readArguments command.keyword position (opened.advance 1) with
            ⟨inner, error | next⟩
          · rw [hRead] at hInner
            rw [readArguments_unclosed hClass hOptions hReference hFound hRead,
              readArguments_unclosed hClass hOptions hReference hKeyword hInner]
            rfl
          · rw [hRead] at hInner
            rw [readArguments_command hClass hOptions hReference hFound hRead,
              readArguments_command hClass hOptions hReference hKeyword hInner,
              hNext keyword start next (Nat.lt_trans (length_of_readArguments hRead) hBehind)]
            rfl

end PolicyText
