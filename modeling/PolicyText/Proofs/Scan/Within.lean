import PolicyText.Proofs.Scan.Ahead

/-!
# A text within a larger one

A text can stand inside of a larger one: some characters stand before it, and others behind it.
`Cursor.within` takes a place of the smaller text to the same place of the larger one.  This file
says of skipping, of keywords and of content that they are found in the larger text as in the
smaller one.

Scanners look ahead, and may see in the larger text what is not in the smaller one: fillers that go
on behind its end, or a quote that makes three of two.  All of this needs that the smaller text has
been read to its end.  So what has been found is found again as long as something of the smaller
text is left.
-/

namespace PolicyText

variable (before : Nat) (after : List Char)

/-- A place of a text that stands behind a number of characters and before others, as a place of
the text that all of them make. -/
def Cursor.within (c : Cursor) : Cursor :=
  ⟨before + c.position, c.rest ++ after⟩

/-! ## Skipping -/

namespace Cursor

variable {before after}

lemma within_cons (position : Nat) (d : Char) (tail : List Char) :
    (Cursor.mk position (d :: tail)).within before after
      = ⟨before + position, d :: (tail ++ after)⟩ :=
  rfl

lemma position_within_zero (after : List Char) (c : Cursor) :
    (c.within 0 after).position = c.position :=
  Nat.zero_add c.position

lemma advance_within {n : Nat} {c : Cursor} (h : n ≤ c.rest.length) :
    (c.within before after).advance n = (c.advance n).within before after := by
  simp only [within, advance, List.drop_append_of_le_length h, Nat.add_assoc]

lemma takeWhile_within {p : Char → Bool} {c : Cursor} (h : (c.skipWhile p).rest ≠ []) :
    (c.within before after).rest.takeWhile p = c.rest.takeWhile p := by
  have hRun : (c.rest.takeWhile p).length ≠ c.rest.length := by
    intro hLength
    refine h (List.eq_nil_of_length_eq_zero ?_)
    have hSplit := congrArg List.length (@List.takeWhile_append_dropWhile _ p c.rest)
    rw [List.length_append] at hSplit
    show (c.rest.dropWhile p).length = 0
    omega
  rw [within, List.takeWhile_append, if_neg hRun]

lemma skipWhile_within {p : Char → Bool} {c : Cursor} (h : (c.skipWhile p).rest ≠ [])
    (before : Nat) (after : List Char) :
    (c.within before after).skipWhile p = (c.skipWhile p).within before after := by
  have hRest : (c.rest.dropWhile p).isEmpty = false := List.isEmpty_eq_false_iff.2 h
  rw [skipWhile, takeWhile_within h]
  simp only [within, skipWhile, List.dropWhile_append, hRest, Bool.false_eq_true, if_false,
    Nat.add_assoc]

lemma skipWhile_skipWhile_within (p : Char → Bool) (c : Cursor) :
    ((c.skipWhile p).within before after).skipWhile p = (c.within before after).skipWhile p := by
  have hRun : ∀ d ∈ c.rest.takeWhile p, p d = true := fun d hd =>
    @List.mem_takeWhile_imp _ p c.rest d hd
  have hSplit : c.rest ++ after = c.rest.takeWhile p ++ (c.rest.dropWhile p ++ after) := by
    rw [← List.append_assoc, List.takeWhile_append_dropWhile]
  show (Cursor.mk (before + (c.position + (c.rest.takeWhile p).length))
    (c.rest.dropWhile p ++ after)).skipWhile p = _
  rw [← Nat.add_assoc, ← skipWhile_append_of_all _ _ hRun, ← hSplit, within]

lemma skipWhile_within_of_nil {c : Cursor} (h : c.rest = []) (p : Char → Bool) (before : Nat)
    (after : List Char) :
    (c.within before after).skipWhile p
      = ⟨before + c.position + (after.takeWhile p).length, after.dropWhile p⟩ := by
  rw [within, h]
  rfl

end Cursor

/-! ## Keywords -/

variable {before after}

lemma scanKeyword_within {c opened : Cursor} {command : Command}
    (h : scanKeyword c = .ok (command, opened)) (before : Nat) (after : List Char) :
    scanKeyword (c.within before after) = .ok (command, opened.within before after) := by
  obtain ⟨pad, rest, hPad, hRest, rfl⟩ := keyword_of_scanKeyword h
  rw [Cursor.within, hRest, List.append_assoc, List.append_assoc, List.cons_append,
    scanKeyword_written command (rest ++ after) _ hPad]
  simp only [Cursor.within, Nat.add_assoc, List.cons_append]

lemma advance_within_of_scanKeyword {c opened : Cursor} {command : Command}
    (h : scanKeyword c = .ok (command, opened)) :
    (opened.within before after).advance 1 = (opened.advance 1).within before after := by
  obtain ⟨tail, hTail⟩ := (length_of_scanKeyword h).2
  exact Cursor.advance_within (by simp [hTail])

/-! ## Content -/

/-- A text is split at the same place if it goes on. -/
lemma splitAtMark?_append_right {mark text body rest : List Char} (hMark : mark ≠ [])
    (h : splitAtMark? mark text = some (body, rest)) (more : List Char) :
    splitAtMark? mark (text ++ more) = some (body, rest ++ more) := by
  induction text generalizing body with
  | nil => cases h
  | cons c tail ih =>
    rw [splitAtMark?] at h
    rw [List.cons_append, splitAtMark?]
    split at h
    · rename_i hHere
      cases h
      have hLength := (List.isPrefixOf_iff_prefix.1 hHere).length_le
      have hMore : mark.isPrefixOf (c :: (tail ++ more)) = true := by
        rw [List.isPrefixOf_iff_prefix, ← List.cons_append]
        exact (List.isPrefixOf_iff_prefix.1 hHere).trans (List.prefix_append _ _)
      rw [if_pos hMore, ← List.cons_append, List.drop_append_of_le_length hLength]
    · rename_i hHere
      obtain ⟨⟨inner, found⟩, hFound, hEq⟩ := Option.map_eq_some_iff.1 h
      cases hEq
      obtain ⟨hText, -⟩ := splitAtMark?_eq_some hMark hFound
      have hLength : mark.length ≤ (c :: tail).length := by
        rw [hText, List.length_cons, List.length_append, List.length_append]
        omega
      have hMore : ¬ mark.isPrefixOf (c :: (tail ++ more)) = true := by
        rw [List.isPrefixOf_iff_prefix, ← List.cons_append]
        intro hPrefix
        refine hHere (List.isPrefixOf_iff_prefix.2 ?_)
        exact List.prefix_of_prefix_length_le hPrefix (List.prefix_append _ _) hLength
      rw [if_neg hMore, ih hFound]
      rfl

lemma trailingQuotes_append {w : Wrapper} {text : List Char}
    (h : text.drop (trailingQuotes w text).length ≠ []) (more : List Char) :
    trailingQuotes w (text ++ more) = trailingQuotes w text := by
  cases w with
  | backtick => rfl
  | quote => rfl
  | tripleQuote =>
    have hRun : (text.takeWhile (· == '\x22')).length ≠ text.length := by
      intro hLength
      refine h ?_
      rw [trailingQuotes, hLength, List.drop_length]
    simp only [trailingQuotes, List.takeWhile_append, if_neg hRun]

lemma wrappedBody?_append {w : Wrapper} {text body rest : List Char}
    (h : wrappedBody? w text = some (body, rest)) (hRest : rest ≠ []) (more : List Char) :
    wrappedBody? w (text ++ more) = some (body, rest ++ more) := by
  unfold wrappedBody? at h
  split at h
  · cases h
  rename_i inner found hFound
  cases h
  have hMark : w.mark ≠ [] := by cases w <;> decide
  have hLength := (trailingQuotes_isPrefix w found).length_le
  rw [wrappedBody?, splitAtMark?_append_right hMark hFound]
  simp only [trailingQuotes_append hRest, List.drop_append_of_le_length hLength]

lemma Wrapper.of?_cons_cons_cons (c d e : Char) (rest : List Char) :
    of? (c :: d :: e :: rest) =
      if c = '\x22' then if d = '\x22' ∧ e = '\x22' then some .tripleQuote else some .quote
      else if c = '\x60' then some .backtick else none := by
  by_cases hQuote : c = '\x22'
  · subst hQuote
    by_cases hMore : d = '\x22' ∧ e = '\x22'
    · obtain ⟨rfl, rfl⟩ := hMore
      rfl
    · simp only [if_true, if_neg hMore]
      unfold of?
      split <;> simp_all
  · simp only [if_neg hQuote]
    unfold of?
    split <;> simp_all

lemma Wrapper.of?_append {text : List Char} (h : 3 ≤ text.length) (more : List Char) :
    of? (text ++ more) = of? text := by
  match text, h with
  | c :: d :: e :: rest, _ =>
    rw [List.cons_append, List.cons_append, List.cons_append, of?_cons_cons_cons,
      of?_cons_cons_cons]

lemma Wrapper.of?_append_of_none {text : List Char} (h : of? text = none) (hText : text ≠ [])
    (more : List Char) : of? (text ++ more) = none := by
  obtain ⟨c, rest, rfl⟩ := List.exists_cons_of_ne_nil hText
  rw [List.cons_append]
  unfold of? at h ⊢
  split at h <;> simp_all

lemma length_of_scanWrapped_add {w : Wrapper} {c next : Cursor} {text : String}
    (hw : Wrapper.of? c.rest = some w) (h : scanWrapped w c = .ok (text, next)) :
    next.rest.length + 2 * w.mark.length ≤ c.rest.length := by
  have hEnd := (leads_of_scanWrapped hw h).position_add
  unfold scanWrapped at h
  split at h
  · cases h
  rename_i body rest hBody
  cases h
  have hSkip := (Cursor.leads_skipFiller
    ⟨c.position + 2 * w.mark.length + body.length, rest⟩).position_le
  simp only at hSkip hEnd ⊢
  omega

/-- Wrapped content behind which something is left is the same within a larger text. -/
lemma scanWrapped_within {w : Wrapper} {c next : Cursor} {text : String}
    (hw : Wrapper.of? c.rest = some w) (h : scanWrapped w c = .ok (text, next))
    (hNext : next.rest ≠ []) :
    scanWrapped w (c.within before after) = .ok (text, next.within before after) := by
  have hMark : w.mark.length ≤ c.rest.length := by
    have := length_of_scanWrapped_add hw h
    omega
  unfold scanWrapped at h
  split at h
  · cases h
  rename_i body rest hBody
  cases h
  have hRest : rest ≠ [] := by
    rintro rfl
    exact hNext rfl
  have hDrop : (c.rest ++ after).drop w.mark.length = c.rest.drop w.mark.length ++ after :=
    List.drop_append_of_le_length hMark
  have hSkip := Cursor.skipWhile_within hNext before after
  simp only [scanWrapped, Cursor.within, hDrop, wrappedBody?_append hBody hRest]
  rw [Cursor.within, ← Nat.add_assoc, ← Nat.add_assoc] at hSkip
  rw [Cursor.skipFiller, hSkip]
  rfl

/-- Content behind which something is left is the same within a larger text. -/
lemma scanContent_within {stop : Char} {c next : Cursor} {text : String}
    (h : scanContent stop c = .ok (text, next)) (hNext : next.rest ≠ []) (before : Nat)
    (after : List Char) :
    scanContent stop (c.within before after) = .ok (text, next.within before after) := by
  unfold scanContent at h
  split at h
  · rename_i w hWrapper
    have hLong : 3 ≤ c.rest.length := by
      have hLength := length_of_scanWrapped_add hWrapper h
      have hLeft := List.length_pos_of_ne_nil hNext
      have hMark : 0 < w.mark.length := by cases w <;> decide
      omega
    have hWithin : Wrapper.of? (c.within before after).rest = some w :=
      (Wrapper.of?_append hLong after).trans hWrapper
    rw [scanContent, hWithin]
    exact scanWrapped_within hWrapper h hNext
  · rename_i hWrapper
    split at h
    · cases h
    cases h
    have hText : c.rest ≠ [] := by
      intro hNil
      rw [Cursor.skipWhile, hNil] at hNext
      exact hNext rfl
    have hWithin : Wrapper.of? (c.within before after).rest = none :=
      Wrapper.of?_append_of_none hWrapper hText after
    have hEnd : ((c.skipWhile fun d => !endsContent stop d).within before after).rest.isEmpty
        = false := by
      rw [List.isEmpty_eq_false_iff]
      exact List.append_ne_nil_of_left_ne_nil hNext after
    rw [scanContent, hWithin]
    simp only [Cursor.skipWhile_within hNext, Cursor.takeWhile_within hNext, hEnd,
      Bool.false_eq_true, if_false]

end PolicyText
