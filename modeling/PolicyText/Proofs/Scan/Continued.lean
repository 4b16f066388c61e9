import PolicyText.Proofs.Scan.Within

/-!
# Texts that go on

When more text is appended to a text, what has been scanned of it stays, with one exception: where
the scanner came to the end of the text there was nothing to be found, and now there is.  So the
errors fall into two sorts.  That something is not complete, not terminated or not known may change
when the text goes on; all other errors are settled (`ParseError.isSettled`).

`Kept` says of two outcomes that what the former says is not taken back by the latter: a result
stays, and so does a settled error.  The text may also be moved behind others; then results stay,
but errors tell other positions, and nothing is said about them.

Option lists and references end behind the fillers that follow them, so that they are continued
behind all fillers that follow them in the larger text (`Cursor.continued`).
-/

namespace PolicyText

/-! ## Outcomes that are kept -/

/-- Whether an error about a text is also reported if the text goes on. -/
def ParseError.isSettled : ParseError → Bool
  | .unexpectedRoot .. | .unexpectedChild .. | .notEnoughArguments .. | .tooManyArguments ..
  | .unsupportedReference _ | .emptyOptionKey _ | .invalidOptionValue .. | .invalidVersion _
  | .referenceArity .. | .nestedInReference _ | .invalidLiteral .. | .shape .. | .depthExceeded ..
  | .trailingInput _ => true
  | .inputTooShort _ | .unterminatedLiteral .. | .missingTerminator _ | .notStarted ..
  | .notCompleted .. | .unknownCommand .. | .ambiguousCommand .. | .missingGroupOpen ..
  | .emptyOptionValue _ | .inputTooLong .. => false

section Kept

variable {α β : Type} {before : Nat}

/-- What comes of a text comes of a larger one: a result, and a settled error if nothing stands
before the text. -/
def Kept (before : Nat) (outcome larger : Except ParseError α) : Prop :=
  match outcome with
  | .ok a => larger = .ok a
  | .error e => before = 0 → e.isSettled = true → larger = .error e

lemma Kept.refl (before : Nat) (outcome : Except ParseError α) : Kept before outcome outcome := by
  cases outcome with
  | ok a => rfl
  | error e => exact fun _ _ => rfl

lemma Kept.of_unsettled {e : ParseError} (h : e.isSettled = false)
    (larger : Except ParseError α) : Kept before (.error e) larger := by
  intro _ hSettled
  rw [h] at hSettled
  cases hSettled

/-- Sequences of steps are kept if the steps are, also if a result of the first step is another one
in the larger text. -/
lemma Kept.bind_map {γ : Type} {outcome : Except ParseError α} {larger : Except ParseError γ}
    {change : α → γ} {next : α → Except ParseError β} {more : γ → Except ParseError β}
    (hFirst : Kept before (outcome.map change) larger)
    (hNext : ∀ a, Kept before (next a) (more (change a))) :
    Kept before (outcome >>= next) (larger >>= more) := by
  cases outcome with
  | ok a =>
    rw [show larger = .ok (change a) from hFirst]
    exact hNext a
  | error e =>
    intro hBefore hSettled
    rw [hFirst hBefore hSettled]
    rfl

lemma Kept.bind {outcome larger : Except ParseError α} {next more : α → Except ParseError β}
    (hFirst : Kept before outcome larger) (hNext : ∀ a, Kept before (next a) (more a)) :
    Kept before (outcome >>= next) (larger >>= more) := by
  have hSame : Kept before (outcome.map id) larger := by
    rw [Except.map_id]
    exact hFirst
  exact hSame.bind_map hNext

lemma Kept.map {outcome larger : Except ParseError α} (hFirst : Kept before outcome larger)
    (change : α → β) : Kept before (outcome.map change) (larger.map change) := by
  cases outcome with
  | ok a =>
    rw [show larger = .ok a from hFirst]
    rfl
  | error e =>
    intro hBefore hSettled
    rw [hFirst hBefore hSettled]
    rfl

end Kept

lemma isSettled_of_scanContent {stop : Char} {c : Cursor} {e : ParseError}
    (h : scanContent stop c = .error e) : e.isSettled = false := by
  unfold scanContent at h
  split at h
  · unfold scanWrapped at h
    split at h <;> cases h
    rfl
  · split at h <;> cases h
    rfl

lemma isSettled_of_scanKeyword {c : Cursor} {e : ParseError} (h : scanKeyword c = .error e) :
    e.isSettled = false := by
  unfold scanKeyword at h
  split at h
  · cases h
    rfl
  split at h
  · cases h
    rfl
  · split at h <;> cases h
    rfl
  · cases h
    rfl

variable {before : Nat} {after : List Char}

/-! ## Option lists -/

/-- What follows a key and is itself followed by something is the same within a larger text. -/
lemma scanOptionRest_within {keyword key value : String} {opened : Nat} {c last : Cursor}
    (h : scanOptionRest keyword opened key c = .ok (value, last)) (hLast : last.rest ≠ [])
    (place : Nat) :
    scanOptionRest keyword place key (c.within before after)
      = .ok (value, last.within before after) := by
  have hText : c.rest ≠ [] := by
    have hLength := length_of_scanOptionRest h
    have hLeft := List.length_pos_of_ne_nil hLast
    exact List.ne_nil_of_length_pos (Nat.lt_of_lt_of_le hLeft hLength)
  have hHead : (c.within before after).rest.head? = c.rest.head? :=
    List.head?_append_of_ne_nil _ hText
  unfold scanOptionRest at h
  rw [scanOptionRest, hHead]
  split at h
  · rename_i hEquals
    unfold scanOptionValue at h
    split at h
    · cases h
    rename_i d tail hValue
    split at h
    · cases h
    rename_i hEnds
    have hSkip : ((c.advance 1).skipWhile Text.isBlank).rest ≠ [] := by
      rw [hValue]
      exact List.cons_ne_nil _ _
    rw [if_pos hEquals, scanOptionValue,
      Cursor.advance_within (List.length_pos_of_ne_nil hText), Cursor.skipWhile_within hSkip]
    have hWithin : (((c.advance 1).skipWhile Text.isBlank).within before after).rest
        = d :: (tail ++ after) := by
      rw [Cursor.within, hValue]
      rfl
    simp only [hWithin, if_neg hEnds]
    exact scanContent_within h hLast before after
  · rename_i hEquals
    split at h
    · rename_i hFlag
      cases h
      rw [if_neg hEquals, if_pos hFlag]
    · cases h

/-- An entry behind which something is left is the same within a larger text. -/
lemma scanOption_within {keyword key value : String} {opened : Nat} {c next : Cursor}
    (h : scanOption keyword opened c = .ok ((key, value), next)) (hNext : next.rest ≠ [])
    (place : Nat) :
    scanOption keyword place (c.within before after)
      = .ok ((key, value), next.within before after) := by
  simp only [scanOption] at h ⊢
  split at h
  · cases h
  rename_i hKeyEnd
  have hKeyEnd : (c.skipWhile fun d => !endsKey d).rest ≠ [] := fun hNil =>
    hKeyEnd (List.isEmpty_iff.2 hNil)
  have hWithin : ((c.skipWhile fun d => !endsKey d).within before after).rest.isEmpty = false :=
    List.isEmpty_eq_false_iff.2 (List.append_ne_nil_of_left_ne_nil hKeyEnd after)
  split at h
  · cases h
  rename_i hKey
  split at h
  · cases h
  rename_i hRest
  split at h <;> cases h
  rename_i hValue
  simp only [Cursor.skipWhile_within hKeyEnd, Cursor.takeWhile_within hKeyEnd, hWithin,
    Bool.false_eq_true, if_false, if_neg hKey, scanOptionRest_within hRest hNext, if_neg hValue]

lemma isSettled_of_scanOptionRest {keyword key : String} {opened : Nat} {c : Cursor}
    {e : ParseError} (h : scanOptionRest keyword opened key c = .error e) :
    e.isSettled = false := by
  unfold scanOptionRest at h
  split at h
  · unfold scanOptionValue at h
    split at h
    · cases h
      rfl
    split at h
    · cases h
      rfl
    · exact isSettled_of_scanContent h
  · split at h <;> cases h
    rfl

/-- That an entry has no key is settled, and nothing else that can be wrong with it. -/
lemma scanOption_settled {keyword : String} {opened : Nat} {c : Cursor} {e : ParseError}
    (h : scanOption keyword opened c = .error e) (hSettled : e.isSettled = true) (place : Nat) :
    scanOption keyword place (c.within 0 after) = .error e := by
  simp only [scanOption] at h ⊢
  split at h
  · cases h
    cases hSettled
  rename_i hKeyEnd
  have hKeyEnd : (c.skipWhile fun d => !endsKey d).rest ≠ [] := fun hNil =>
    hKeyEnd (List.isEmpty_iff.2 hNil)
  have hWithin : ((c.skipWhile fun d => !endsKey d).within 0 after).rest.isEmpty = false :=
    List.isEmpty_eq_false_iff.2 (List.append_ne_nil_of_left_ne_nil hKeyEnd after)
  split at h
  · rename_i hKey
    cases h
    simp only [Cursor.skipWhile_within hKeyEnd, Cursor.takeWhile_within hKeyEnd, hWithin,
      Bool.false_eq_true, if_false, if_pos hKey, Cursor.position_within_zero]
  split at h
  · rename_i hRest
    cases h
    cases (isSettled_of_scanOptionRest hRest).symm.trans hSettled
  · split at h <;> cases h
    cases hSettled

/-- A place behind which fillers have been passed over, as a place of a larger text in which further
fillers may follow. -/
def Cursor.continued (before : Nat) (after : List Char) (c : Cursor) : Cursor :=
  (c.within before after).skipFiller

lemma Cursor.continued_skipFiller (c : Cursor) :
    c.skipFiller.continued before after = (c.within before after).skipFiller :=
  skipWhile_skipWhile_within isFiller c

lemma scanOptionEntries_eq (keyword : String) (opened : Nat) (raw : RawOptions) (c : Cursor) :
    scanOptionEntries keyword opened raw c =
      match (c.skipWhile separatesOptions).rest with
      | [] => .error (.notCompleted keyword opened)
      | d :: _ =>
        if d = ')' then .ok (raw, ((c.skipWhile separatesOptions).advance 1).skipFiller)
        else
          scanOption keyword opened (c.skipWhile separatesOptions) >>= fun found =>
            scanOptionEntries keyword opened (raw.insert found.1.1 found.1.2) found.2 := by
  rw [scanOptionEntries]
  cases hRest : (c.skipWhile separatesOptions).rest with
  | nil => rfl
  | cons d tail =>
    by_cases hClosing : d = ')'
    · simp only [if_pos hClosing]
    · simp only [if_neg hClosing]
      split <;> rename_i hOption <;> rw [hOption] <;> rfl

lemma scanOptionEntries_of_nil (keyword : String) (opened : Nat) (raw : RawOptions) {c : Cursor}
    (h : c.rest = []) :
    scanOptionEntries keyword opened raw c = .error (.notCompleted keyword opened) := by
  rw [scanOptionEntries_eq, Cursor.skipWhile, h]
  rfl

/-- Entries are kept. -/
lemma scanOptionEntries_kept (keyword : String) (opened place : Nat) (raw : RawOptions)
    (c : Cursor) :
    Kept before
      ((scanOptionEntries keyword opened raw c).map fun found =>
        (found.1, found.2.continued before after))
      (scanOptionEntries keyword place raw (c.within before after)) := by
  have hSkip (c : Cursor) {d : Char} {tail : List Char}
      (hRest : (c.skipWhile separatesOptions).rest = d :: tail) :
      (c.within before after).skipWhile separatesOptions
          = (c.skipWhile separatesOptions).within before after ∧
        ((c.skipWhile separatesOptions).within before after).rest = d :: (tail ++ after) :=
    ⟨Cursor.skipWhile_within (by rw [hRest]; exact List.cons_ne_nil _ _) before after,
      congrArg (· ++ after) hRest⟩
  fun_induction scanOptionEntries keyword opened raw c with
  | case1 => exact .of_unsettled rfl _
  | case2 raw c tail hRest =>
    obtain ⟨hWithin, hHead⟩ := hSkip c hRest
    have hLength : 1 ≤ (c.skipWhile separatesOptions).rest.length := by simp [hRest]
    rw [scanOptionEntries_eq, hWithin]
    simp only [hHead, if_true, Cursor.advance_within hLength, Except.map,
      Cursor.continued_skipFiller]
    rfl
  | case3 raw c d tail hRest hClosing error hOption =>
    obtain ⟨hWithin, hHead⟩ := hSkip c hRest
    intro hBefore hSettled
    subst hBefore
    rw [scanOptionEntries_eq, hWithin]
    simp only [hHead, if_neg hClosing, scanOption_settled hOption hSettled place]
    rfl
  | case4 raw c d tail hRest hClosing key value next hOption ih =>
    obtain ⟨hWithin, hHead⟩ := hSkip c hRest
    by_cases hNext : next.rest = []
    · rw [scanOptionEntries_of_nil _ _ _ hNext]
      exact .of_unsettled rfl _
    · rw [scanOptionEntries_eq _ place, hWithin]
      simp only [hHead, if_neg hClosing, scanOption_within hOption hNext place, Except.ok_bind]
      exact ih

lemma scanOptions_kept (keyword : String) {c : Cursor} (h : ∃ tail, c.rest = '(' :: tail)
    (before : Nat) (after : List Char) :
    Kept before
      ((scanOptions keyword c).map fun found => (found.1, found.2.continued before after))
      (scanOptions keyword (c.within before after)) := by
  obtain ⟨tail, hTail⟩ := h
  have hHead : (c.within before after).rest.head? = some '(' := by
    rw [Cursor.within, hTail]
    rfl
  have hLength : 1 ≤ c.rest.length := by simp [hTail]
  rw [scanOptions, scanOptions, if_pos hHead, if_pos (by rw [hTail]; rfl),
    Cursor.advance_within hLength]
  exact scanOptionEntries_kept _ _ _ _ _

/-! ## References -/

lemma scanEntries_of_nil (keyword : String) (opened : Nat) {c : Cursor} (h : c.rest = []) :
    scanEntries keyword opened c = .error (.notCompleted keyword opened) := by
  rw [scanEntries]
  split
  · rfl
  · rename_i hRest
    cases h.symm.trans hRest

/-- Entries of a reference are kept. -/
lemma scanEntries_kept (keyword : String) (opened place : Nat) (c : Cursor) :
    Kept before
      ((scanEntries keyword opened c).map fun found =>
        (found.1, found.2.continued before after))
      (scanEntries keyword place (c.within before after)) := by
  have hWithin {c : Cursor} {d : Char} {tail : List Char} (hRest : c.rest = d :: tail) :
      c.within before after = ⟨before + c.position, d :: (tail ++ after)⟩ ∧
        (c.advance 1).within before after = ⟨before + c.position + 1, tail ++ after⟩ := by
    obtain ⟨position, rest⟩ := c
    obtain rfl : rest = d :: tail := hRest
    exact ⟨rfl, rfl⟩
  fun_induction scanEntries keyword opened c with
  | case1 => exact .of_unsettled rfl _
  | case2 c d tail hRest hClass =>
    obtain ⟨hHere, hTail⟩ := hWithin hRest
    rw [hHere, scanEntries_cons, hClass, ← hTail, Except.map, Cursor.continued_skipFiller]
    exact .refl _ _
  | case3 c d tail hRest hClass ih | case4 c d tail hRest hClass ih
  | case5 c d tail hRest hClass ih =>
    obtain ⟨hHere, hTail⟩ := hWithin hRest
    rw [hHere, scanEntries_cons, hClass, ← hTail]
    exact ih
  | case6 c d tail hRest hClass =>
    obtain ⟨hHere, -⟩ := hWithin hRest
    intro hBefore _
    rw [hHere, scanEntries_cons, hClass, hBefore, Nat.zero_add]
  | case7 c d tail hRest hClass error hContent =>
    exact .of_unsettled (isSettled_of_scanContent hContent) _
  | case8 c d tail hRest hClass text next hContent error hEntries ih =>
    by_cases hNext : next.rest = []
    · rw [scanEntries_of_nil _ _ hNext] at hEntries
      cases hEntries
      exact .of_unsettled rfl _
    · have hLarger := scanContent_within hContent hNext before after
      rw [(hWithin hRest).1] at hLarger ⊢
      rw [scanEntries_content hClass hLarger]
      rw [hEntries] at ih
      exact ih.map fun found => (text :: found.1, found.2)
  | case9 c d tail hRest hClass text next hContent entries last hEntries ih =>
    have hNext : next.rest ≠ [] := by
      intro hNil
      rw [scanEntries_of_nil _ _ hNil] at hEntries
      cases hEntries
    have hLarger := scanContent_within hContent hNext before after
    rw [(hWithin hRest).1] at hLarger ⊢
    rw [scanEntries_content hClass hLarger]
    rw [hEntries] at ih
    exact ih.map fun found => (text :: found.1, found.2)

/-- A reference is kept, and the place behind it is continued. -/
lemma scanReference_kept (keyword : String) {c : Cursor} (h : ∃ tail, c.rest = '(' :: tail)
    (before : Nat) (after : List Char) :
    Kept before
      ((scanReference keyword c).map fun found => (found.1, found.2.continued before after))
      (scanReference keyword (c.within before after)) := by
  obtain ⟨tail, hTail⟩ := h
  have hHead : (c.within before after).rest.head? = some '(' := by
    rw [Cursor.within, hTail]
    rfl
  have hLength : 1 ≤ c.rest.length := by simp [hTail]
  have hEntries := @scanEntries_kept before after keyword c.position
    (c.within before after).position (c.advance 1)
  rw [← Cursor.advance_within hLength] at hEntries
  rw [scanReference, scanReference, if_pos hHead, if_pos (by rw [hTail]; rfl)]
  cases hFound : scanEntries keyword c.position (c.advance 1) with
  | error e =>
    rw [hFound] at hEntries
    intro hBefore hSettled
    rw [hEntries hBefore hSettled]
  | ok found =>
    rw [hFound] at hEntries
    rw [show scanEntries _ _ _ = _ from hEntries]
    simp only
    split
    · rintro rfl -
      rw [Cursor.position_within_zero]
    · rfl

end PolicyText
