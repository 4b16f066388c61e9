import PolicyText.Proofs.Scan.Continued
import PolicyText.Proofs.Scan.Reads

/-!
# Two texts that begin alike

A scanner looks at what it reads and at one character more.  So of two texts which are the same up
to some place, and go on there with the same character, the same is read as long as the reading does
not go beyond the place.  Nor does it matter at which position the text begins, since positions are
only counted.

`Swapped rest more` relates a text that ends in `rest` to the text that has `more` in place of it.
Every scanner that succeeds on the former, and leaves `rest` untouched, succeeds on the latter with
the same result, and what is left to them is related again (`scanKeyword_swapped`,
`scanContent_swapped`, `scanOptions_swapped`, `scanReference_swapped`).  The last two end with a
closing parenthesis and pass over the fillers behind it; there `rest` may begin between these
fillers, and `Cursor.Encloses` says what a scanner does then.  The same holds of the loop over
arguments: what it finds differs in nothing but the positions of the commands
(`ReadsArguments.swapped`, `Arguments.Alike`).
-/

namespace PolicyText

/-! ## Texts -/

/-- Two texts are the same up to where one of them goes on with `rest` and the other one with
`more`. -/
def Swapped (rest more text other : List Char) : Prop :=
  ∃ run, text = run ++ rest ∧ other = run ++ more

section Swapped

variable {rest more text other : List Char}

lemma Swapped.refl (text : List Char) (h : rest <:+ text) : Swapped rest rest text text := by
  obtain ⟨run, rfl⟩ := h
  exact ⟨run, rfl, rfl⟩

lemma Swapped.split {run tail : List Char} (h : Swapped rest more (run ++ tail) other)
    (hTail : rest <:+ tail) :
    ∃ behind, other = run ++ behind ∧ Swapped rest more tail behind := by
  obtain ⟨before, rfl⟩ := hTail
  obtain ⟨all, hText, rfl⟩ := h
  rw [← List.append_assoc, List.append_cancel_right_eq] at hText
  refine ⟨before ++ more, ?_, before, rfl, rfl⟩
  rw [← hText, List.append_assoc]

lemma Swapped.head? (hHead : more.head? = rest.head?) (h : Swapped rest more text other) :
    other.head? = text.head? := by
  obtain ⟨run, rfl, rfl⟩ := h
  rw [List.head?_append, List.head?_append, hHead]

lemma Swapped.cons {d : Char} {tail : List Char} (h : Swapped rest more (d :: tail) other)
    (hTail : rest <:+ tail) : ∃ behind, other = d :: behind ∧ Swapped rest more tail behind := by
  have hFirst : Swapped rest more ([d] ++ tail) other := h
  exact hFirst.split hTail

lemma Cursor.Leads.suffix {c d : Cursor} (h : c.Leads d) : d.rest <:+ c.rest := by
  obtain ⟨run, hRest, -⟩ := h
  exact ⟨run, hRest.symm⟩

/-- A run of characters that ends before something else ends there in both texts. -/
lemma dropWhile_swapped {p : Char → Bool} (hHead : more.head? = rest.head?)
    (h : Swapped rest more text other) (hTail : rest <:+ text.dropWhile p) :
    other.takeWhile p = text.takeWhile p ∧
      Swapped rest more (text.dropWhile p) (other.dropWhile p) := by
  have hSplit : Swapped rest more (text.takeWhile p ++ text.dropWhile p) other := by
    rwa [List.takeWhile_append_dropWhile]
  obtain ⟨behind, rfl, hBehind⟩ := hSplit.split hTail
  have hRun : ∀ c ∈ text.takeWhile p, p c = true := fun c hc =>
    @List.mem_takeWhile_imp _ p text c hc
  have hStop : ∀ d ∈ behind.head?, p d = false := by
    intro d hd
    rw [hBehind.head? hHead] at hd
    have hNot := List.head?_dropWhile_not p text
    rw [show (text.dropWhile p).head? = some d from hd] at hNot
    simpa using hNot
  have hTake : behind.takeWhile p = [] ∧ behind.dropWhile p = behind := by
    cases behind with
    | nil => exact ⟨rfl, rfl⟩
    | cons d tail =>
      have hd := hStop d rfl
      exact ⟨List.takeWhile_cons_of_neg (by simp [hd]), List.dropWhile_cons_of_neg (by simp [hd])⟩
  rw [List.takeWhile_append_of_pos hRun, List.dropWhile_append_of_pos hRun, hTake.1, hTake.2,
    List.append_nil]
  exact ⟨rfl, hBehind⟩

end Swapped

/-! ## Scanners -/

section Scanners

variable {rest more : List Char} {c d next : Cursor}

lemma Cursor.skipWhile_swapped {p : Char → Bool} (hHead : more.head? = rest.head?)
    (h : Swapped rest more c.rest d.rest) (hTail : rest <:+ (c.skipWhile p).rest) :
    Swapped rest more (c.skipWhile p).rest (d.skipWhile p).rest :=
  (dropWhile_swapped hHead h hTail).2

lemma Cursor.exists_cons_swapped {first : Char} {tail : List Char} (hHead : more.head? = rest.head?)
    (h : Swapped rest more c.rest d.rest) (hRest : c.rest = first :: tail) :
    ∃ behind, d.rest = first :: behind :=
  List.head?_eq_some_iff.1 ((h.head? hHead).trans (congrArg List.head? hRest))

lemma Cursor.exists_mk_swapped {first : Char} {tail : List Char} (hHead : more.head? = rest.head?)
    (h : Swapped rest more (first :: tail) d.rest) :
    ∃ position behind, d = ⟨position, first :: behind⟩ := by
  obtain ⟨behind, hBehind⟩ :=
    List.head?_eq_some_iff.1 (h.head? hHead : d.rest.head? = some first)
  exact ⟨d.position, behind, congrArg (Cursor.mk d.position) hBehind⟩

lemma Cursor.advance_swapped {first : Char} {tail : List Char} (h : Swapped rest more c.rest d.rest)
    (hRest : c.rest = first :: tail) (hTail : rest <:+ (c.advance 1).rest) :
    Swapped rest more (c.advance 1).rest (d.advance 1).rest := by
  have hAdvance : (c.advance 1).rest = tail := by rw [Cursor.advance, hRest]; rfl
  rw [hRest] at h
  rw [hAdvance] at hTail ⊢
  obtain ⟨behind, hOther, hBehind⟩ := h.cons hTail
  rw [show (d.advance 1).rest = behind by rw [Cursor.advance, hOther]; rfl]
  exact hBehind

lemma scanKeyword_swapped {command : Command} (hHead : more.head? = rest.head?)
    (h : Swapped rest more c.rest d.rest) (hKeyword : scanKeyword c = .ok (command, next))
    (hTail : rest <:+ next.rest) :
    ∃ opened, scanKeyword d = .ok (command, opened) ∧ Swapped rest more next.rest opened.rest := by
  obtain ⟨pad, tail, hPad, hRest, rfl⟩ := keyword_of_scanKeyword hKeyword
  rw [hRest, ← List.append_assoc] at h
  obtain ⟨behind, hOther, hBehind⟩ := h.split hTail
  obtain ⟨after, rfl⟩ := List.head?_eq_some_iff.1 (hBehind.head? hHead)
  rw [List.append_assoc] at hOther
  refine ⟨⟨d.position + command.keyword.toList.length + pad.length, '(' :: after⟩, ?_, hBehind⟩
  have hWritten := scanKeyword_written command after d.position hPad
  rwa [← hOther] at hWritten

lemma drop_length_takeWhile (p : Char → Bool) (text : List Char) :
    text.drop (text.takeWhile p).length = text.dropWhile p := by
  have hSplit := congrArg (List.drop (text.takeWhile p).length)
    (@List.takeWhile_append_dropWhile _ p text)
  rw [List.drop_left] at hSplit
  exact hSplit.symm

/-- A text is split at the first mark, whatever follows the mark. -/
lemma splitAtMark?_mark {mark body after : List Char} (hMark : mark ≠ [])
    (h : splitAtMark? mark (body ++ (mark ++ after)) = some (body, after)) (other : List Char) :
    splitAtMark? mark (body ++ (mark ++ other)) = some (body, other) := by
  have hFirst : splitAtMark? mark (body ++ mark) = some (body, []) := by
    have hNone := (splitAtMark?_eq_some hMark h).2
    induction body with
    | nil =>
      obtain ⟨first, others, rfl⟩ := List.exists_cons_of_ne_nil hMark
      simp [splitAtMark?]
    | cons first others ih =>
      rw [List.cons_append, splitAtMark?] at h
      split at h
      · cases h
      rename_i hHere
      obtain ⟨⟨inner, found⟩, hFound, hEq⟩ := Option.map_eq_some_iff.1 h
      cases hEq
      have hShort : ¬ mark.isPrefixOf (first :: (others ++ mark)) = true := by
        rw [List.isPrefixOf_iff_prefix] at hHere ⊢
        intro hPrefix
        refine hHere (hPrefix.trans ?_)
        rw [← List.append_assoc, ← List.cons_append]
        exact List.prefix_append _ _
      rw [List.cons_append, splitAtMark?, if_neg hShort,
        ih hFound fun hInfix => hNone (List.infix_cons hInfix)]
      rfl
  have hMore := splitAtMark?_append_right hMark hFirst other
  rwa [List.append_assoc] at hMore

/-- The body of wrapped content is found in both texts. -/
lemma wrappedBody?_swapped {w : Wrapper} {text other body after : List Char}
    (hHead : more.head? = rest.head?) (h : Swapped rest more text other)
    (hBody : wrappedBody? w text = some (body, after)) (hTail : rest <:+ after) :
    ∃ behind, wrappedBody? w other = some (body, behind) ∧ Swapped rest more after behind := by
  unfold wrappedBody? at hBody
  split at hBody
  · cases hBody
  rename_i inner found hFound
  cases hBody
  have hMark : w.mark ≠ [] := by cases w <;> decide
  obtain ⟨rfl, -⟩ := splitAtMark?_eq_some hMark hFound
  have hFoundTail : rest <:+ found := hTail.trans (List.drop_suffix _ _)
  rw [← List.append_assoc] at h
  obtain ⟨behind, rfl, hBehind⟩ := h.split hFoundTail
  -- The quotes that are drawn in end before the same character.
  have hQuotes : trailingQuotes w behind = trailingQuotes w found ∧
      Swapped rest more (found.drop (trailingQuotes w found).length)
        (behind.drop (trailingQuotes w found).length) := by
    cases w with
    | backtick | quote => exact ⟨rfl, hBehind⟩
    | tripleQuote =>
      simp only [trailingQuotes, drop_length_takeWhile] at hTail ⊢
      obtain ⟨hTake, hDrop⟩ := dropWhile_swapped hHead hBehind hTail
      refine ⟨hTake, ?_⟩
      rw [← hTake, drop_length_takeWhile]
      exact hDrop
  refine ⟨behind.drop (trailingQuotes w found).length, ?_, hQuotes.2⟩
  rw [wrappedBody?, List.append_assoc, splitAtMark?_mark hMark hFound behind]
  simp only [hQuotes.1]

lemma Wrapper.of?_eq_none_of_head? {text other : List Char} (hHead : other.head? = text.head?)
    (h : of? text = none) : of? other = none := by
  cases text with
  | nil =>
    rw [List.head?_eq_none_iff.1 hHead]
    rfl
  | cons first tail =>
    obtain ⟨behind, rfl⟩ := List.head?_eq_some_iff.1 hHead
    unfold of? at h ⊢
    split at h <;> simp_all

lemma Wrapper.of?_swapped {w : Wrapper} {text : String} (hHead : more.head? = rest.head?)
    (h : Swapped rest more c.rest d.rest) (hWrapper : of? c.rest = some w)
    (hContent : scanWrapped w c = .ok (text, next)) (hTail : rest <:+ next.rest)
    (hNext : next.rest ≠ []) : of? d.rest = some w := by
  obtain ⟨run, hRun, -⟩ := leads_of_scanWrapped hWrapper hContent
  have hLength := length_of_scanWrapped_add hWrapper hContent
  have hMark : 0 < w.mark.length := by cases w <;> decide
  obtain ⟨first, tail, hFirst⟩ := List.exists_cons_of_ne_nil hNext
  rw [hRun, hFirst] at h hLength
  obtain ⟨behind, hOther, hBehind⟩ := h.split (hFirst ▸ hTail)
  obtain ⟨after, rfl⟩ := List.head?_eq_some_iff.1 (hBehind.head? hHead)
  have hThree : 3 ≤ (run ++ [first]).length := by
    simp only [List.length_append, List.length_cons, List.length_nil] at hLength ⊢
    omega
  have hSplit (others : List Char) : run ++ first :: others = (run ++ [first]) ++ others := by
    rw [List.append_assoc, List.singleton_append]
  rw [hRun, hFirst, hSplit, of?_append hThree] at hWrapper
  rw [hOther, hSplit, of?_append hThree, hWrapper]

/-- Content behind which something is left is read in both texts. -/
lemma scanContent_swapped {text : String} (hHead : more.head? = rest.head?)
    (h : Swapped rest more c.rest d.rest) (hContent : scanContent ',' c = .ok (text, next))
    (hTail : rest <:+ next.rest) (hNext : next.rest ≠ []) :
    ∃ last, scanContent ',' d = .ok (text, last) ∧ Swapped rest more next.rest last.rest := by
  unfold scanContent at hContent
  split at hContent
  · rename_i w hWrapper
    have hOther := Wrapper.of?_swapped hHead h hWrapper hContent hTail hNext
    have hText : rest <:+ c.rest.drop w.mark.length := by
      have hLength := length_of_scanWrapped_add hWrapper hContent
      refine hTail.trans (List.suffix_of_suffix_length_le
        (leads_of_scanWrapped hWrapper hContent).suffix (List.drop_suffix _ _) ?_)
      rw [List.length_drop]
      omega
    unfold scanWrapped at hContent
    split at hContent
    · cases hContent
    rename_i body after hBody
    cases hContent
    have hAfter : rest <:+ after := hTail.trans (Cursor.leads_skipFiller _).suffix
    rw [Wrapper.eq_mark_append_of_of? hWrapper] at h
    obtain ⟨behind, hMark, hBehind⟩ := h.split hText
    obtain ⟨left, hFound, hLeft⟩ := wrappedBody?_swapped hHead hBehind hBody hAfter
    have hDrop : d.rest.drop w.mark.length = behind := by rw [hMark, List.drop_left]
    refine ⟨Cursor.skipFiller ⟨d.position + 2 * w.mark.length + body.length, left⟩, ?_, ?_⟩
    · simp only [scanContent, hOther, scanWrapped, hDrop, hFound]
    · exact Cursor.skipWhile_swapped (d := ⟨_, left⟩) hHead hLeft hTail
  · rename_i hWrapper
    have hOther := Wrapper.of?_eq_none_of_head? (h.head? hHead) hWrapper
    split at hContent
    · cases hContent
    cases hContent
    obtain ⟨hTake, hDrop⟩ := dropWhile_swapped hHead h hTail
    have hLeft : (d.skipWhile fun e => !endsContent ',' e).rest.isEmpty = false := by
      obtain ⟨first, tail, hFirst⟩ := List.exists_cons_of_ne_nil hNext
      obtain ⟨behind, hBehind⟩ := Cursor.exists_cons_swapped hHead
        (d := d.skipWhile fun e => !endsContent ',' e) hDrop hFirst
      rw [hBehind]
      rfl
    refine ⟨d.skipWhile fun e => !endsContent ',' e, ?_, hDrop⟩
    simp only [scanContent, hOther, hLeft, hTake, Bool.false_eq_true, if_false]

/-- What follows a key and is itself followed by something is read in both texts. -/
lemma scanOptionRest_swapped {keyword key value : String} {opened : Nat}
    (hHead : more.head? = rest.head?) (h : Swapped rest more c.rest d.rest)
    (hRest : scanOptionRest keyword opened key c = .ok (value, next)) (hTail : rest <:+ next.rest)
    (hNext : next.rest ≠ []) :
    ∃ last, (∀ place, scanOptionRest keyword place key d = .ok (value, last)) ∧
      Swapped rest more next.rest last.rest := by
  have hSame := h.head? hHead
  unfold scanOptionRest at hRest ⊢
  rw [hSame]
  by_cases hEquals : c.rest.head? = some '='
  · simp only [if_pos hEquals] at hRest ⊢
    obtain ⟨tail, hValue⟩ := List.head?_eq_some_iff.1 hEquals
    unfold scanOptionValue at hRest
    split at hRest
    · cases hRest
    rename_i first others hFirst
    split at hRest
    · cases hRest
    rename_i hEnds
    have hSkipTail := hTail.trans (leads_of_scanContent hRest).suffix
    have hMove := Cursor.advance_swapped h hValue
      (hSkipTail.trans (Cursor.leads_skipWhile Text.isBlank (c.advance 1)).suffix)
    have hSkip := Cursor.skipWhile_swapped hHead hMove hSkipTail
    obtain ⟨last, hLast, hSwapped⟩ := scanContent_swapped hHead hSkip hRest hTail hNext
    obtain ⟨left, hLeft⟩ := Cursor.exists_cons_swapped hHead hSkip hFirst
    refine ⟨last, fun place => ?_, hSwapped⟩
    simp only [scanOptionValue, hLeft, if_neg hEnds, hLast]
  · simp only [if_neg hEquals] at hRest ⊢
    split at hRest
    · rename_i hFlag
      cases hRest
      exact ⟨d, fun place => by rw [if_pos hFlag], h⟩
    · cases hRest

/-- An entry behind which something is left is read in both texts. -/
lemma scanOption_swapped {keyword : String} {entry : String × String} {opened : Nat}
    (hHead : more.head? = rest.head?) (h : Swapped rest more c.rest d.rest)
    (hOption : scanOption keyword opened c = .ok (entry, next)) (hTail : rest <:+ next.rest)
    (hNext : next.rest ≠ []) :
    ∃ last, (∀ place, scanOption keyword place d = .ok (entry, last)) ∧
      Swapped rest more next.rest last.rest := by
  simp only [scanOption] at hOption
  split at hOption
  · cases hOption
  rename_i hKeyEnd
  split at hOption
  · cases hOption
  rename_i hKey
  split at hOption
  · cases hOption
  rename_i value after hRest
  split at hOption
  · cases hOption
  rename_i hValue
  cases hOption
  have hKeyTail := hTail.trans (leads_of_scanOptionRest hRest).suffix
  obtain ⟨hTake, hDrop⟩ := dropWhile_swapped hHead h hKeyTail
  obtain ⟨last, hLast, hSwapped⟩ := scanOptionRest_swapped (d := d.skipWhile fun e => !endsKey e)
    hHead hDrop hRest hTail hNext
  have hLeft : (d.skipWhile fun e => !endsKey e).rest.isEmpty = false := by
    have hNil : (c.skipWhile fun e => !endsKey e).rest ≠ [] := fun hNil =>
      hKeyEnd (List.isEmpty_iff.2 hNil)
    obtain ⟨first, tail, hFirst⟩ := List.exists_cons_of_ne_nil hNil
    obtain ⟨behind, hBehind⟩ := Cursor.exists_cons_swapped hHead
      (d := d.skipWhile fun e => !endsKey e) hDrop hFirst
    rw [hBehind]
    rfl
  refine ⟨last, fun place => ?_, hSwapped⟩
  simp only [scanOption, hTake, hLeft, if_neg hKey, hLast, if_neg hValue, Bool.false_eq_true,
    if_false]

/-- From one place to another something is scanned that ends with a closing parenthesis, behind which
fillers are passed over.  In a text that is the same up to this parenthesis, or up to a place before
it, the scanner ends with a parenthesis, too; `scans` says what it scans there. -/
def Cursor.Encloses (c next : Cursor) (scans : Cursor → Cursor → Prop) : Prop :=
  ∃ close tail, c.Leads ⟨close, ')' :: tail⟩ ∧ next = Cursor.skipFiller ⟨close + 1, tail⟩ ∧
    ∀ (rest more : List Char) (d : Cursor), more.head? = rest.head? → rest <:+ ')' :: tail →
      Swapped rest more c.rest d.rest →
      ∃ position behind, d.Leads ⟨position, ')' :: behind⟩ ∧
        scans d (Cursor.skipFiller ⟨position + 1, behind⟩) ∧
        Swapped rest more (')' :: tail) (')' :: behind)

/-- What ends with a parenthesis is scanned from before a first part of it if this part is found in
both texts. -/
lemma Cursor.Encloses.behind {after : Cursor} {scans first : Cursor → Cursor → Prop}
    (h : after.Encloses next first) (hLeads : c.Leads after)
    (hFirst : ∀ (rest more : List Char) (d : Cursor), more.head? = rest.head? →
      rest <:+ after.rest → Swapped rest more c.rest d.rest →
      ∃ left, d.Leads left ∧ Swapped rest more after.rest left.rest ∧
        ∀ last, first left last → scans d last) :
    c.Encloses next scans := by
  obtain ⟨close, tail, hClose, hNext, hOther⟩ := h
  refine ⟨close, tail, hLeads.trans hClose, hNext, fun rest more d hHead hTail hText => ?_⟩
  obtain ⟨left, hLeft, hSwapped, hScans⟩ :=
    hFirst rest more d hHead (hTail.trans hClose.suffix) hText
  obtain ⟨position, behind, hPosition, hScan, hEnd⟩ := hOther rest more left hHead hTail hSwapped
  exact ⟨position, behind, hLeft.trans hPosition, hScans _ hScan, hEnd⟩

lemma Cursor.Encloses.behindOpening {scans body : Cursor → Cursor → Prop}
    (h : (c.advance 1).Encloses next body) (hOpening : c.rest.head? = some '(')
    (hBody : ∀ d last : Cursor, d.rest.head? = some '(' → body (d.advance 1) last →
      scans d last) :
    c.Encloses next scans := by
  have hLength {d : Cursor} (hOpened : d.rest.head? = some '(') : 1 ≤ d.rest.length := by
    obtain ⟨tail, hTail⟩ := List.head?_eq_some_iff.1 hOpened
    simp [hTail]
  refine h.behind (Cursor.leads_advance (hLength hOpening)) ?_
  intro rest more d hHead hTail hText
  obtain ⟨tail, hRest⟩ := List.head?_eq_some_iff.1 hOpening
  have hOpened := (hText.head? hHead).trans hOpening
  exact ⟨d.advance 1, Cursor.leads_advance (hLength hOpened),
    Cursor.advance_swapped hText hRest hTail, fun last hLast => hBody d last hOpened hLast⟩

/-- What ends with a parenthesis before the texts change is scanned from both, and what is left of
them is related again. -/
lemma Cursor.Encloses.swapped {scans : Cursor → Cursor → Prop} (h : c.Encloses next scans)
    (hHead : more.head? = rest.head?) (hText : Swapped rest more c.rest d.rest)
    (hTail : rest <:+ next.rest) :
    ∃ last, d.Leads last ∧ scans d last ∧ Swapped rest more next.rest last.rest := by
  obtain ⟨close, tail, hLeads, rfl, hOther⟩ := h
  have hClose : rest <:+ tail := hTail.trans (Cursor.leads_skipFiller ⟨close + 1, tail⟩).suffix
  obtain ⟨position, behind, hPosition, hScan, hEnd⟩ :=
    hOther rest more d hHead (hClose.trans (List.suffix_cons _ _)) hText
  obtain ⟨_, ⟨⟩, hBehind⟩ := hEnd.cons hClose
  refine ⟨_, (hPosition.trans (Cursor.leads_tail _ _ _)).trans (Cursor.leads_skipFiller _), hScan,
    ?_⟩
  exact Cursor.skipWhile_swapped (c := ⟨close + 1, tail⟩) (d := ⟨position + 1, behind⟩) hHead
    hBehind hTail

/-- The entries of an option list end with a parenthesis. -/
lemma scanOptionEntries_encloses {keyword : String} {opened : Nat} {raw result : RawOptions}
    (h : scanOptionEntries keyword opened raw c = .ok (result, next)) :
    c.Encloses next fun d last =>
      ∀ place, scanOptionEntries keyword place raw d = .ok (result, last) := by
  fun_induction scanOptionEntries keyword opened raw c with
  | case1 => cases h
  | case2 raw c tail hRest =>
    cases h
    have hSkipped : c.skipWhile separatesOptions
        = ⟨(c.skipWhile separatesOptions).position, ')' :: tail⟩ :=
      congrArg (Cursor.mk _) hRest
    refine ⟨_, tail, hSkipped ▸ Cursor.leads_skipWhile separatesOptions c, ?_, ?_⟩
    · rw [Cursor.advance, hRest]
      rfl
    · intro rest more d hHead hTail hText
      have hSkip := Cursor.skipWhile_swapped (p := separatesOptions) hHead hText (by rwa [hRest])
      obtain ⟨behind, hBehind⟩ := Cursor.exists_cons_swapped hHead hSkip hRest
      have hPlace : d.skipWhile separatesOptions
          = ⟨(d.skipWhile separatesOptions).position, ')' :: behind⟩ :=
        congrArg (Cursor.mk _) hBehind
      rw [hRest, hBehind] at hSkip
      refine ⟨_, behind, hPlace ▸ Cursor.leads_skipWhile separatesOptions d, fun place => ?_, hSkip⟩
      rw [scanOptionEntries_eq, Cursor.advance, hBehind]
      rfl
  | case3 => cases h
  | case4 raw c first tail hRest hClosing key value after hOption ih =>
    have hLess := length_of_scanOptionEntries h
    have hLeft : after.rest ≠ [] := List.ne_nil_of_length_pos (Nat.zero_lt_of_lt hLess)
    have hLeads := leads_of_scanOption hOption
    refine (ih h).behind ((Cursor.leads_skipWhile separatesOptions c).trans hLeads) ?_
    intro rest more d hHead hTail hText
    have hSkip := Cursor.skipWhile_swapped hHead hText (hTail.trans hLeads.suffix)
    obtain ⟨behind, hBehind⟩ := Cursor.exists_cons_swapped hHead hSkip hRest
    obtain ⟨left, hFound, hSwapped⟩ := scanOption_swapped hHead hSkip hOption hTail hLeft
    refine ⟨left, (Cursor.leads_skipWhile separatesOptions d).trans
      (leads_of_scanOption (hFound d.position)), hSwapped, fun last hLast place => ?_⟩
    rw [scanOptionEntries_eq]
    simp only [hBehind, if_neg hClosing, hFound place, Except.ok_bind, hLast place]

lemma scanOptions_encloses {keyword : String} {raw : RawOptions}
    (h : scanOptions keyword c = .ok (raw, next)) :
    c.Encloses next fun d last => scanOptions keyword d = .ok (raw, last) := by
  unfold scanOptions at h
  split at h
  · rename_i hOpening
    refine (scanOptionEntries_encloses h).behindOpening hOpening fun d last hOpened hLast => ?_
    rw [scanOptions, if_pos hOpened, hLast]
  · cases h

lemma scanOptions_swapped {keyword : String} {raw : RawOptions} (hHead : more.head? = rest.head?)
    (h : Swapped rest more c.rest d.rest) (hOptions : scanOptions keyword c = .ok (raw, next))
    (hTail : rest <:+ next.rest) :
    ∃ last, scanOptions keyword d = .ok (raw, last) ∧ Swapped rest more next.rest last.rest := by
  obtain ⟨last, -, hLast, hSwapped⟩ := (scanOptions_encloses hOptions).swapped hHead h hTail
  exact ⟨last, hLast, hSwapped⟩

/-- The entries of a reference end with a parenthesis. -/
lemma scanEntries_encloses {keyword : String} {opened : Nat} {entries : List String}
    (h : scanEntries keyword opened c = .ok (entries, next)) :
    c.Encloses next fun d last => ∀ place, scanEntries keyword place d = .ok (entries, last) := by
  fun_induction scanEntries keyword opened c generalizing entries next with
  | case1 => cases h
  | case2 c first tail hRest hClass =>
    cases h
    obtain rfl : first = ')' := eq_closing_of_class hClass
    obtain ⟨position, text⟩ := c
    obtain rfl : text = ')' :: tail := hRest
    refine ⟨position, tail, .refl _, rfl, ?_⟩
    rintro rest more ⟨place, text⟩ hHead hTail hText
    obtain ⟨behind, rfl⟩ := List.head?_eq_some_iff.1 (hText.head? hHead)
    exact ⟨place, behind, .refl _, fun opened => scanEntries_cons keyword opened place ')' behind,
      hText⟩
  | case3 c first tail hRest hClass ih | case4 c first tail hRest hClass ih
  | case5 c first tail hRest hClass ih =>
    refine (ih h).behind (Cursor.leads_advance (by simp [hRest])) ?_
    rintro rest more ⟨position, text⟩ hHead hTail hText
    obtain ⟨behind, rfl⟩ := Cursor.exists_cons_swapped (d := ⟨position, text⟩) hHead hText hRest
    refine ⟨⟨position + 1, behind⟩, Cursor.leads_tail _ _ _,
      Cursor.advance_swapped (d := ⟨position, first :: behind⟩) hText hRest hTail,
      fun last hLast place => ?_⟩
    rw [scanEntries_cons, hClass]
    exact hLast place
  | case6 => cases h
  | case7 => cases h
  | case8 => cases h
  | case9 c first tail hRest hClass text after hContent others stop hOthers ih =>
    cases h
    have hLeft : after.rest ≠ [] :=
      List.ne_nil_of_length_pos (Nat.zero_lt_of_lt (length_of_scanEntries hOthers))
    refine (ih hOthers).behind (leads_of_scanContent hContent) ?_
    rintro rest more ⟨position, text⟩ hHead hTail hText
    obtain ⟨behind, rfl⟩ := Cursor.exists_cons_swapped (d := ⟨position, text⟩) hHead hText hRest
    obtain ⟨left, hFound, hSwapped⟩ := scanContent_swapped hHead hText hContent hTail hLeft
    refine ⟨left, leads_of_scanContent hFound, hSwapped, fun last hLast place => ?_⟩
    rw [scanEntries_content hClass hFound, hLast place]
    rfl

lemma scanReference_encloses {keyword : String} {entries : List String}
    (h : scanReference keyword c = .ok (entries, next)) :
    c.Encloses next fun d last => scanReference keyword d = .ok (entries, last) := by
  unfold scanReference at h
  split at h
  · rename_i hOpening
    split at h
    · cases h
    rename_i found stop hEntries
    split at h
    · cases h
    rename_i hArity
    cases h
    refine (scanEntries_encloses hEntries).behindOpening hOpening fun d last hOpened hLast => ?_
    simp only [scanReference, if_pos hOpened, hLast, if_neg hArity]
  · cases h

lemma scanReference_swapped {keyword : String} {entries : List String}
    (hHead : more.head? = rest.head?) (h : Swapped rest more c.rest d.rest)
    (hReference : scanReference keyword c = .ok (entries, next)) (hTail : rest <:+ next.rest) :
    ∃ last, scanReference keyword d = .ok (entries, last) ∧
      Swapped rest more next.rest last.rest := by
  obtain ⟨last, -, hLast, hSwapped⟩ := (scanReference_encloses hReference).swapped hHead h hTail
  exact ⟨last, hLast, hSwapped⟩

end Scanners

/-! ## Arguments -/

namespace Arguments

/-- Arguments that differ in nothing but the positions of their commands. -/
inductive Alike : Arguments → Arguments → Prop where
  | closed : Alike .closed .closed
  | fault (e : ParseError) : Alike (.fault e) (.fault e)
  | content {rest other : Arguments} (text : String) (hRest : rest.Alike other) :
    Alike (.content text rest) (.content text other)
  | options {rest other : Arguments} (raw : RawOptions) (hRest : rest.Alike other) :
    Alike (.options raw rest) (.options raw other)
  | reference {rest other : Arguments} (entries : List String) (hRest : rest.Alike other) :
    Alike (.reference entries rest) (.reference entries other)
  | command {inner inside rest other : Arguments} (position place : Nat) (child : Command)
    (hInner : inner.Alike inside) (hRest : rest.Alike other) :
    Alike (.command position child inner rest) (.command place child inside other)

end Arguments

lemma ReadsArguments.rest_ne_nil {keyword : String} {start : Nat} {c last : Cursor}
    {args : Arguments} (h : ReadsArguments keyword start c args (.ok last)) : c.rest ≠ [] := by
  cases h <;> exact List.cons_ne_nil _ _

lemma Cursor.Encloses.behindKeyword {position : Nat} {first : Char} {tail : List Char}
    {command : Command} {opened after next : Cursor} {scans body : Cursor → Cursor → Prop}
    (h : after.Encloses next body)
    (hKeyword : scanKeyword ⟨position, first :: tail⟩ = .ok (command, opened))
    (hLeads : opened.Leads after)
    (hBody : ∀ (rest more : List Char) (place : Nat) (behind : List Char) (paren : Cursor),
      more.head? = rest.head? → rest <:+ after.rest → Swapped rest more opened.rest paren.rest →
      scanKeyword ⟨place, first :: behind⟩ = .ok (command, paren) →
      ∃ left, paren.Leads left ∧ Swapped rest more after.rest left.rest ∧
        ∀ last, body left last → scans ⟨place, first :: behind⟩ last) :
    (Cursor.mk position (first :: tail)).Encloses next scans := by
  refine h.behind ((leads_of_scanKeyword hKeyword).1.trans hLeads) ?_
  intro rest more d hHead hTail hText
  obtain ⟨place, behind, rfl⟩ := Cursor.exists_mk_swapped hHead hText
  obtain ⟨paren, hParen, hOpened⟩ :=
    scanKeyword_swapped hHead hText hKeyword (hTail.trans hLeads.suffix)
  obtain ⟨left, hLeft, hSwapped, hScans⟩ :=
    hBody rest more place behind paren hHead hTail hOpened hParen
  exact ⟨left, (leads_of_scanKeyword hParen).1.trans hLeft, hSwapped, hScans⟩

/-- Arguments are read from one place to another, up to the positions of their commands. -/
def ReadsAlike (keyword : String) (args : Arguments) (c last : Cursor) : Prop :=
  ∀ place, ∃ other, readArguments keyword place c = (other, .ok last) ∧ args.Alike other

lemma StepsTo.readsAlike {keyword : String} {wrap change : Arguments → Arguments}
    {args : Arguments} {c next last : Cursor} (hStep : StepsTo change c next)
    (hAlike : ∀ {other}, args.Alike other → (wrap args).Alike (change other))
    (h : ReadsAlike keyword args next last) : ReadsAlike keyword (wrap args) c last := by
  intro place
  obtain ⟨other, hRead, hOther⟩ := h place
  refine ⟨change other, ?_, hAlike hOther⟩
  rw [hStep, hRead]
  rfl

/-- Arguments that are closed end with a parenthesis. -/
lemma ReadsArguments.encloses {keyword : String} {start : Nat} {c : Cursor} {args : Arguments}
    {last : Except ParseError Cursor} (h : ReadsArguments keyword start c args last) :
    ∀ stop, last = .ok stop → c.Encloses stop (ReadsAlike keyword args) := by
  -- The texts begin with the same character, so that the loop takes the same way.
  induction h with
  | ended | stuck | unclosed => rintro stop ⟨⟩
  | @closing keyword start position tail =>
    rintro _ ⟨⟩
    refine ⟨position, tail, .refl _, rfl, ?_⟩
    rintro rest more ⟨place, text⟩ hHead hTail hText
    obtain ⟨behind, rfl⟩ := List.head?_eq_some_iff.1 (hText.head? hHead)
    exact ⟨place, behind, .refl _, fun start => ⟨.closed, readArguments_closing, .closed⟩, hText⟩
  | @passed keyword start position first tail args last hClass hRest ih =>
    rintro stop rfl
    refine (ih stop rfl).behind (Cursor.leads_tail _ _ _) ?_
    rintro rest more ⟨place, text⟩ hHead hTail hText
    obtain ⟨behind, rfl, hBehind⟩ := hText.cons hTail
    exact ⟨⟨place + 1, behind⟩, Cursor.leads_tail _ _ _, hBehind, fun _ =>
      @StepsTo.readsAlike _ id id _ _ _ _ (stepsTo_passed hClass place behind) id⟩
  | @content keyword start position first tail text next args last hClass hContent hRest ih =>
    rintro stop rfl
    refine (ih stop rfl).behind (leads_of_scanContent hContent) ?_
    intro rest more d hHead hTail hText
    obtain ⟨place, behind, rfl⟩ := Cursor.exists_mk_swapped hHead hText
    obtain ⟨after, hAfter, hSwapped⟩ :=
      scanContent_swapped hHead hText hContent hTail hRest.rest_ne_nil
    exact ⟨after, leads_of_scanContent hAfter, hSwapped, fun _ =>
      (stepsTo_content hClass hAfter).readsAlike (.content text)⟩
  | @options keyword start position first tail raw opened next args last hClass hKeyword hOptions
      hRest ih =>
    rintro stop rfl
    refine (ih stop rfl).behindKeyword hKeyword (leads_of_scanOptions hOptions) ?_
    intro rest more place behind paren hHead hTail hText hParen
    obtain ⟨after, hAfter, hSwapped⟩ := scanOptions_swapped hHead hText hOptions hTail
    exact ⟨after, leads_of_scanOptions hAfter, hSwapped, fun _ =>
      (stepsTo_options hParen hAfter).readsAlike (.options raw)⟩
  | @reference keyword start position first tail entries opened next args last hClass hKeyword
      hReference hRest ih =>
    rintro stop rfl
    refine (ih stop rfl).behindKeyword hKeyword (leads_of_scanReference hReference) ?_
    intro rest more place behind paren hHead hTail hText hParen
    obtain ⟨after, hAfter, hSwapped⟩ := scanReference_swapped hHead hText hReference hTail
    exact ⟨after, leads_of_scanReference hAfter, hSwapped, fun _ =>
      (stepsTo_reference hParen hAfter).readsAlike (.reference entries)⟩
  | @command keyword start position first tail command opened next inner args last hClass hOptions
      hReference hKeyword hInner hRest ihInner ih =>
    rintro stop rfl
    have hInnerLeads := hInner.leads next rfl
    refine (ih stop rfl).behindKeyword hKeyword
      ((leads_of_scanKeyword hKeyword).2.2.trans hInnerLeads) ?_
    intro rest more place behind paren hHead hTail hText hParen
    obtain ⟨within, hWithin⟩ := (length_of_scanKeyword hKeyword).2
    have hInside := Cursor.advance_swapped hText hWithin (hTail.trans hInnerLeads.suffix)
    obtain ⟨after, hAfterLeads, hAfter, hSwapped⟩ :=
      (ihInner next rfl).swapped hHead hInside hTail
    obtain ⟨inside, hReadInside, hAlikeInside⟩ := hAfter place
    exact ⟨after, (leads_of_scanKeyword hParen).2.2.trans hAfterLeads, hSwapped, fun _ =>
      (stepsTo_command hOptions hReference hParen hReadInside).readsAlike
        (.command position place command hAlikeInside)⟩

/-- Arguments that are read from a text and closed before it changes are read from the other text,
up to the positions of their commands. -/
lemma ReadsArguments.swapped {rest more : List Char} {keyword : String} {start : Nat}
    {c : Cursor} {args : Arguments} {last : Except ParseError Cursor}
    (hHead : more.head? = rest.head?) (h : ReadsArguments keyword start c args last) :
    ∀ (place : Nat) (d stop : Cursor), Swapped rest more c.rest d.rest → last = .ok stop →
      rest <:+ stop.rest →
      ∃ other finish, readArguments keyword place d = (other, .ok finish) ∧ args.Alike other ∧
        Swapped rest more stop.rest finish.rest := by
  intro place d stop hText hLast hTail
  obtain ⟨finish, -, hFinish, hSwapped⟩ := (h.encloses stop hLast).swapped hHead hText hTail
  obtain ⟨other, hRead, hAlike⟩ := hFinish place
  exact ⟨other, finish, hRead, hAlike, hSwapped⟩

end PolicyText
