import PolicyText.Proofs.Indexed.Access

/-!
# Content by indices

A token of content is read by indices as it is from a cursor (`scanContentAt_eq`).  The three
wrappers are tried one after the other, a closing wrapper is looked for at every index from the
opening one on, and the body of wrapped content and the run of bare content are cut out of the text
between two indices.  All of this stays within the text, whatever the index and the stop.
-/

namespace PolicyText

/-! ## Reading -/

section Definitions

variable (text : List Char)

/-- The wrapper that opens at an index.  Three quotes are looked for before one. -/
def wrapperAt (i : Nat) : Checked (Option Wrapper) :=
  [Wrapper.tripleQuote, .quote, .backtick].findM? fun w => startsWithAt text i w.mark

/-- The quotes from an index on, pushed to a body, and the index behind them. -/
def pushQuotesAt (body : List Char) (i : Nat) : Checked (List Char × Nat) :=
  if i < text.length then do
    let d ← charAt text i
    if d = '\x22' then pushQuotesAt (body ++ ['\x22']) (i + 1) else pure (body, i)
  else pure (body, i)
termination_by text.length - i

/-- The body of wrapped content, with the quotes that still belong to it, and the index behind
them.  The index is that behind the closing wrapper. -/
def wholeBodyAt (w : Wrapper) (body : List Char) (i : Nat) : Checked (List Char × Nat) :=
  if w = .tripleQuote then pushQuotesAt text body i else pure (body, i)

/-- Reads wrapped content whose wrapper opens at an index. -/
def scanWrappedAt (w : Wrapper) (i : Nat) : Checked (String × Nat) := do
  match ← findAt text (fun j => startsWithAt text j w.mark) (i + w.mark.length) with
  | none => throw (.unterminatedLiteral w.description i)
  | some close => do
    let inner ← slice text (i + w.mark.length) close
    let (body, last) ← wholeBodyAt text w inner (close + w.mark.length)
    let next ← skipWhileAt text isFiller last
    pure (String.ofList body, next)

/-- Reads a token of content from an index on. -/
def scanContentAt (stop : Char) (i : Nat) : Checked (String × Nat) := do
  match ← wrapperAt text i with
  | some w => scanWrappedAt text w i
  | none => do
    match ← findAt text (fun j => endsContent stop <$> charAt text j) i with
    | none => throw (.missingTerminator i)
    | some last => do
      let run ← slice text i last
      pure (String.ofList (Text.trim run), last)

end Definitions

/-! ## Wrapped content -/

/-- The wrapper with which a text begins is the first whose mark stands there. -/
lemma Wrapper.of?_eq_find? (rest : List Char) :
    of? rest = [tripleQuote, .quote, .backtick].find? fun w => w.mark.isPrefixOf rest := by
  have hNot (mark : List Char) (h : ∀ tail, rest ≠ mark ++ tail) :
      mark.isPrefixOf rest = false := by
    rw [Bool.eq_false_iff]
    intro hPrefix
    obtain ⟨tail, hTail⟩ := List.isPrefixOf_iff_prefix.1 hPrefix
    exact h tail hTail.symm
  unfold of?
  split
  · rfl
  · rename_i tail hTriple
    have hFirst : tripleQuote.mark.isPrefixOf ('\x22' :: tail) = false :=
      hNot tripleQuote.mark fun rest hRest => hTriple rest (List.cons.inj hRest).2
    rw [List.find?_cons_of_neg (by rw [hFirst]; exact Bool.false_ne_true)]
    rfl
  · rfl
  · rename_i hTriple hQuote hBacktick
    rw [List.find?_cons_of_neg (by rw [hNot tripleQuote.mark hTriple]; simp),
      List.find?_cons_of_neg (by rw [hNot quote.mark hQuote]; simp),
      List.find?_cons_of_neg (by rw [hNot backtick.mark hBacktick]; simp)]
    rfl

lemma wrapperAt_eq (text : List Char) (i : Nat) :
    wrapperAt text i = .of (.ok (Wrapper.of? (text.drop i))) := by
  simp only [wrapperAt, startsWithAt_eq, Checked.findM?_of, Wrapper.of?_eq_find?]

lemma pushQuotesAt_eq (text body : List Char) (i : Nat) :
    pushQuotesAt text body i
      = .of (.ok (body ++ (text.drop i).takeWhile (· == '\x22'),
          i + ((text.drop i).takeWhile (· == '\x22')).length)) := by
  fun_induction pushQuotesAt text body i with
  | case1 body i hLess ih =>
    obtain ⟨d, tail, hDrop⟩ := exists_drop_of_lt hLess
    rw [charAt_eq hDrop, Checked.of_ok_bind, hDrop]
    split
    · rename_i hQuote
      subst hQuote
      rw [ih, drop_succ hDrop]
      simp [Nat.add_assoc, Nat.add_comm 1]
    · rename_i hOther
      simp [hOther, Checked.pure_eq]
  | case2 body i hEnd =>
    rw [drop_eq_nil_of_not_lt hEnd]
    simp [Checked.pure_eq]

lemma wholeBodyAt_eq (text : List Char) (w : Wrapper) (body : List Char) (i : Nat) :
    wholeBodyAt text w body i
      = .of (.ok (body ++ trailingQuotes w (text.drop i),
          i + (trailingQuotes w (text.drop i)).length)) := by
  cases w with
  | tripleQuote => exact pushQuotesAt_eq text body i
  | backtick | quote =>
    exact congrArg (fun found => Checked.of (.ok (found, i))) (List.append_nil body).symm

lemma findAt_mark (text mark : List Char) (i : Nat) :
    findAt text (fun j => startsWithAt text j mark) i
      = .of (.ok ((splitAtMark? mark (text.drop i)).map fun found => i + found.1.length)) := by
  fun_induction findAt text (fun j => startsWithAt text j mark) i with
  | case1 i hLess ih =>
    obtain ⟨d, tail, hDrop⟩ := exists_drop_of_lt hLess
    rw [startsWithAt_eq, Checked.of_ok_bind, hDrop, splitAtMark?]
    split
    · rfl
    · rw [ih, drop_succ hDrop]
      cases splitAtMark? mark tail with
      | none => rfl
      | some found =>
        simp [Nat.add_assoc, Nat.add_comm 1]
  | case2 i hEnd =>
    rw [drop_eq_nil_of_not_lt hEnd]
    rfl

/-- Wrapped content is what is read from the place at the index. -/
lemma scanWrappedAt_eq (text : List Char) (w : Wrapper) (i : Nat) :
    scanWrappedAt text w i = .of (atIndex (scanWrapped w (.ofIndex text i))) := by
  have hMark : w.mark ≠ [] := by cases w <;> decide
  rw [scanWrappedAt, findAt_mark, Checked.of_ok_bind, scanWrapped, wrappedBody?]
  dsimp only [Cursor.ofIndex]
  rw [List.drop_drop]
  cases hFound : splitAtMark? w.mark (text.drop (i + w.mark.length)) with
  | none => rfl
  | some found =>
    obtain ⟨inner, after⟩ := found
    have hSplit := (splitAtMark?_eq_some hMark hFound).1
    dsimp only [Option.map_some]
    rw [slice_eq hSplit (List.append_ne_nil_of_left_ne_nil hMark after), Checked.of_ok_bind]
    have hAfter : text.drop (i + w.mark.length + inner.length + w.mark.length) = after := by
      rw [← List.drop_drop, ← List.drop_drop, hSplit, List.drop_left, List.drop_left]
    rw [wholeBodyAt_eq, Checked.of_ok_bind, hAfter]
    dsimp only
    rw [skipWhileAt_eq, Checked.of_ok_bind, Cursor.ofIndex, ← List.drop_drop, hAfter]
    have hPosition : i + w.mark.length + inner.length + w.mark.length
          + (trailingQuotes w after).length
        = i + 2 * w.mark.length + (inner ++ trailingQuotes w after).length := by
      rw [List.length_append]
      omega
    rw [hPosition]
    rfl

/-! ## Content -/

/-- Bare content ends where the cursor is when it skips the characters that are no end. -/
lemma findAt_endsContent {stop : Char} {text : List Char} {i last : Nat}
    (h : (Cursor.ofIndex text i).skipWhile (fun d => !endsContent stop d) = .ofIndex text last) :
    findAt text (fun j => endsContent stop <$> charAt text j) i
      = .of (.ok (if last < text.length then some last else none)) := by
  fun_induction findAt text (fun j => endsContent stop <$> charAt text j) i with
  | case1 i hLess ih =>
    obtain ⟨d, tail, hDrop⟩ := exists_drop_of_lt hLess
    have hMap : endsContent stop <$> (Checked.of (.ok d)) = Checked.of (.ok (endsContent stop d)) :=
      rfl
    rw [charAt_eq hDrop, hMap, Checked.of_ok_bind]
    rw [Cursor.ofIndex, hDrop] at h
    cases hEnds : endsContent stop d with
    | true =>
      rw [Cursor.skipWhile_cons_of_neg _ (by rw [hEnds]; rfl)] at h
      obtain rfl : i = last := congrArg Cursor.position h
      rw [if_pos hLess]
      rfl
    | false =>
      rw [Cursor.skipWhile_cons_of_pos _ (by rw [hEnds]; rfl), ← drop_succ hDrop] at h
      exact ih h
  | case2 i hEnd =>
    rw [Cursor.ofIndex, drop_eq_nil_of_not_lt hEnd] at h
    obtain rfl : i = last := congrArg Cursor.position h
    rw [if_neg hEnd]
    rfl

lemma scanContentAt_eq (stop : Char) (text : List Char) (i : Nat) :
    scanContentAt text stop i = .of (atIndex (scanContent stop (.ofIndex text i))) := by
  rw [scanContentAt, wrapperAt_eq, Checked.of_ok_bind, scanContent, Cursor.rest_ofIndex]
  cases Wrapper.of? (text.drop i) with
  | some w => exact scanWrappedAt_eq text w i
  | none =>
    obtain ⟨last, -, hLast⟩ := exists_skipWhileAt text (fun d => !endsContent stop d) i
    dsimp only
    rw [findAt_endsContent hLast, Checked.of_ok_bind, hLast, Cursor.rest_ofIndex]
    by_cases hLess : last < text.length
    · rw [if_pos hLess, if_neg (mt isEmpty_drop_iff.1 (Nat.not_le_of_lt hLess))]
      dsimp only
      rw [slice_of_skipWhile hLast hLess]
      rfl
    · rw [if_neg hLess, if_pos (isEmpty_drop_iff.2 (Nat.le_of_not_lt hLess))]
      rfl

end PolicyText
