import PolicyText.Proofs.Scan.Filler

/-!
# Tokens of content as they are written

A token of content can be written bare or in one of three wrappers.  This file is about the way from
the text of a token to what `scanContent` makes of it.

A wrapper does not hold every text: a backtick would close a pair of backticks, a quote a pair of
quotes, and three quotes in a row close triple quotes unless they belong to the quotes at the very
end (`Wrapper.Holds`).  What a wrapper holds is read back verbatim (`scanWrapped_mark`).  A bare
token is trimmed, has no stop character and does not begin like a wrapper (`IsBare`); it is read up
to the stop behind it, and the blanks in between are lost (`scanContent_bare`).

`scanContent_written` says both at once.  What is passed over behind a token depends on how it was
written: blanks behind a bare one, all fillers behind a wrapper (`Token.skips`).
-/

namespace PolicyText

/-! ## What a wrapper can hold -/

/-- Whether a text can stand in a wrapper: the wrapper must not be closed before its end.  Behind
triple quotes further quotes still belong to the text, so that the quotes at its end do no harm. -/
def Wrapper.Holds : Wrapper → List Char → Prop
  | .backtick, text => '\x60' ∉ text
  | .quote, text => '\x22' ∉ text
  | .tripleQuote, text =>
    ¬ ['\x22', '\x22', '\x22'] <:+: Text.dropEndWhile (· == '\x22') text

instance (w : Wrapper) (text : List Char) : Decidable (w.Holds text) := by
  cases w <;> exact inferInstanceAs (Decidable (¬ _))

lemma splitAtMark?_append {mark body rest : List Char} (hMark : mark ≠ [])
    (hBody : ∀ front back, body = front ++ back → back ≠ [] → ¬ mark <+: back ++ (mark ++ rest)) :
    splitAtMark? mark (body ++ (mark ++ rest)) = some (body, rest) := by
  induction body with
  | nil =>
    obtain ⟨c, tail, rfl⟩ := List.exists_cons_of_ne_nil hMark
    simp [splitAtMark?]
  | cons c body ih =>
    have hTail := ih fun front back hEq hBack => hBody (c :: front) back (by simp [hEq]) hBack
    have hHere : mark.isPrefixOf (c :: (body ++ (mark ++ rest))) = false := by
      rw [← Bool.not_eq_true, List.isPrefixOf_iff_prefix]
      exact hBody [] (c :: body) rfl (by simp)
    rw [List.cons_append, splitAtMark?, hHere, hTail]
    rfl

lemma splitAtMark?_singleton {c : Char} {body rest : List Char} (hBody : c ∉ body) :
    splitAtMark? [c] (body ++ ([c] ++ rest)) = some (body, rest) := by
  refine splitAtMark?_append (by simp) ?_
  rintro front back rfl hBack hPrefix
  obtain ⟨d, tail, rfl⟩ := List.exists_cons_of_ne_nil hBack
  obtain ⟨rfl, -⟩ := List.cons_prefix_cons.1 hPrefix
  exact hBody (by simp)

lemma splitAtMark?_quotes {body rest : List Char}
    (hBody : ¬ ['\x22', '\x22', '\x22'] <:+: body)
    (hLast : ∀ front, body ≠ front ++ ['\x22']) :
    splitAtMark? ['\x22', '\x22', '\x22'] (body ++ (['\x22', '\x22', '\x22'] ++ rest))
      = some (body, rest) := by
  refine splitAtMark?_append (by simp) ?_
  intro front back hEq hBack hPrefix
  -- Three quotes at this place lie in the body, or begin less than three characters before its end.
  rcases back with _ | ⟨a, _ | ⟨b, _ | ⟨c, tail⟩⟩⟩
  · exact hBack rfl
  · simp only [List.cons_append, List.cons_prefix_cons] at hPrefix
    exact hLast front (by rw [hEq, ← hPrefix.1])
  · simp only [List.cons_append, List.cons_prefix_cons] at hPrefix
    exact hLast (front ++ [a]) (by simp [hEq, ← hPrefix.2.1])
  · simp only [List.cons_append, List.cons_prefix_cons] at hPrefix
    obtain ⟨rfl, rfl, rfl, -⟩ := hPrefix
    exact hBody ⟨front, tail, by simp [hEq]⟩

lemma exists_quotes_at_end (text : List Char) :
    ∃ quotes, (∀ c ∈ quotes, (c == '\x22') = true) ∧
      text = Text.dropEndWhile (· == '\x22') text ++ quotes :=
  ⟨text.rtakeWhile (· == '\x22'),
    fun _ hc => List.mem_rtakeWhile_imp (p := fun c => c == '\x22') hc,
    (List.rdropWhile_append_rtakeWhile (p := fun c => c == '\x22') (l := text)).symm⟩

lemma dropEndWhile_quotes_ne (text front : List Char) :
    Text.dropEndWhile (· == '\x22') text ≠ front ++ ['\x22'] := by
  intro hEq
  have hIdem := Text.dropEndWhile_idem (· == '\x22') text
  rw [hEq, Text.dropEndWhile_append_of_all _ (by simp)] at hIdem
  have hLength := (Text.dropEndWhile_isPrefix (· == '\x22') front).length_le
  rw [hIdem, List.length_append, List.length_singleton] at hLength
  omega

/-- What a wrapper holds is found again behind the opening wrapper.  No quote can follow, since
triple quotes would draw it in. -/
lemma wrappedBody?_mark {w : Wrapper} {text rest : List Char} (hText : w.Holds text)
    (hRest : rest.head? ≠ some '\x22') :
    wrappedBody? w (text ++ (w.mark ++ rest)) = some (text, rest) := by
  cases w with
  | backtick =>
    rw [wrappedBody?, Wrapper.mark, splitAtMark?_singleton hText]
    simp [trailingQuotes]
  | quote =>
    rw [wrappedBody?, Wrapper.mark, splitAtMark?_singleton hText]
    simp [trailingQuotes]
  | tripleQuote =>
    obtain ⟨quotes, hQuotes, hEq⟩ := exists_quotes_at_end text
    have hSwap : quotes ++ (['\x22', '\x22', '\x22'] ++ rest)
        = ['\x22', '\x22', '\x22'] ++ (quotes ++ rest) := by
      have hReplicate : quotes = List.replicate quotes.length '\x22' :=
        List.eq_replicate_iff.2 ⟨rfl, fun c hc => by simpa using hQuotes c hc⟩
      rw [hReplicate, ← List.append_assoc, ← List.append_assoc,
        show ['\x22', '\x22', '\x22'] = List.replicate 3 '\x22' from rfl,
        List.replicate_append_replicate, List.replicate_append_replicate, Nat.add_comm]
    have hTrailing : (quotes ++ rest).takeWhile (· == '\x22') = quotes := by
      rw [List.takeWhile_append_of_pos hQuotes]
      cases rest with
      | nil => rw [List.takeWhile_nil, List.append_nil]
      | cons c tail =>
        have hc : c ≠ '\x22' := by simpa using hRest
        rw [List.takeWhile_cons_of_neg (by simpa using hc), List.append_nil]
    have hSplit : splitAtMark? ['\x22', '\x22', '\x22'] (text ++ (['\x22', '\x22', '\x22'] ++ rest))
        = some (Text.dropEndWhile (· == '\x22') text, quotes ++ rest) := by
      conv_lhs => rw [hEq, List.append_assoc, hSwap]
      exact splitAtMark?_quotes hText (dropEndWhile_quotes_ne text)
    rw [wrappedBody?, Wrapper.mark, hSplit]
    simp only [trailingQuotes, hTrailing, List.drop_left, ← hEq]

/-- A text in a wrapper begins with that wrapper, unless it is nothing at all and a quote follows
its quotes. -/
lemma Wrapper.of?_mark {w : Wrapper} {text rest : List Char} (hText : w.Holds text)
    (hRest : rest.head? ≠ some '\x22') :
    Wrapper.of? (w.mark ++ (text ++ (w.mark ++ rest))) = some w := by
  cases w with
  | backtick => rfl
  | tripleQuote => rfl
  | quote =>
    cases text with
    | nil =>
      cases rest with
      | nil => rfl
      | cons c tail =>
        have hc : c ≠ '\x22' := by simpa using hRest
        simp [mark, of?, hc]
    | cons c tail =>
      have hc : c ≠ '\x22' := fun h => hText (by simp [h])
      simp [mark, of?, hc]

/-! ## Reading a token -/

lemma scanWrapped_mark {w : Wrapper} {text rest : List Char} (position : Nat)
    (hText : w.Holds text) (hRest : rest.head? ≠ some '\x22') :
    scanWrapped w ⟨position, w.mark ++ (text ++ (w.mark ++ rest))⟩
      = .ok (String.ofList text,
          Cursor.skipFiller ⟨position + 2 * w.mark.length + text.length, rest⟩) := by
  rw [scanWrapped, List.drop_left, wrappedBody?_mark hText hRest]

lemma scanContent_mark {w : Wrapper} {text rest : List Char} (stop : Char) (position : Nat)
    (hText : w.Holds text) (hRest : rest.head? ≠ some '\x22') :
    scanContent stop ⟨position, w.mark ++ (text ++ (w.mark ++ rest))⟩
      = .ok (String.ofList text,
          Cursor.skipFiller ⟨position + 2 * w.mark.length + text.length, rest⟩) := by
  rw [scanContent, Wrapper.of?_mark hText hRest]
  exact scanWrapped_mark position hText hRest

/-- A text that can stand without a wrapper: trimmed, without a stop, and not nothing.  A text that
begins with a backtick or a quote would be taken for wrapped. -/
structure IsBare (text : List Char) : Prop where
  trimmed : Text.Trimmed text
  no_stop : ∀ c ∈ text, c ≠ ',' ∧ c ≠ ')'
  head : ∃ c ∈ text.head?, c ≠ '\x60' ∧ c ≠ '\x22'

lemma IsBare.of?_eq_none {text : List Char} (h : IsBare text) (rest : List Char) :
    Wrapper.of? (text ++ rest) = none := by
  obtain ⟨c, hc, hBacktick, hQuote⟩ := h.head
  obtain ⟨tail, rfl⟩ := List.head?_eq_some_iff.1 hc
  simp [Wrapper.of?, hBacktick, hQuote]

lemma IsBare.endsContent {text : List Char} (h : IsBare text) {c : Char} (hc : c ∈ text) :
    (!PolicyText.endsContent ',' c) = true := by
  obtain ⟨hComma, hClosing⟩ := h.no_stop c hc
  simp [PolicyText.endsContent, hComma, hClosing]

/-- A place at which a bare token ends: only blanks stand before the next comma or closing
parenthesis. -/
def EndsBare (rest : List Char) : Prop :=
  ∃ pad d tail, rest = pad ++ d :: tail ∧ (∀ c ∈ pad, Text.isBlank c = true) ∧
    (d = ',' ∨ d = ')')

lemma endsContent_of_stop {d : Char} (hd : d = ',' ∨ d = ')') : endsContent ',' d = true := by
  rcases hd with rfl | rfl <;> rfl

lemma isBlank_of_stop {d : Char} (hd : d = ',' ∨ d = ')') : Text.isBlank d = false := by
  rcases hd with rfl | rfl <;> rfl

lemma not_endsContent_of_isBlank {c : Char} (h : Text.isBlank c = true) :
    (!endsContent ',' c) = true := by
  have hComma : c ≠ ',' := by rintro rfl; cases h
  have hClosing : c ≠ ')' := by rintro rfl; cases h
  simp [endsContent, hComma, hClosing]

/-- A bare token is read up to the comma or parenthesis behind it. -/
lemma scanContent_bare {text rest : List Char} (position : Nat) (hText : IsBare text)
    (hRest : EndsBare rest) :
    scanContent ',' ⟨position, text ++ rest⟩
      = .ok (String.ofList text,
          (Cursor.mk (position + text.length) rest).skipWhile Text.isBlank) := by
  obtain ⟨pad, d, tail, rfl, hPad, hd⟩ := hRest
  have hRun : ∀ c ∈ text ++ pad, (!endsContent ',' c) = true := by
    intro c hc
    rcases List.mem_append.1 hc with hc | hc
    · exact hText.endsContent hc
    · exact not_endsContent_of_isBlank (hPad c hc)
  have hStop : (!endsContent ',' d) = false := by rw [endsContent_of_stop hd]; rfl
  have hSkip : (Cursor.mk position (text ++ (pad ++ d :: tail))).skipWhile
        (fun c => !endsContent ',' c) = ⟨position + (text ++ pad).length, d :: tail⟩ := by
    rw [← List.append_assoc]
    exact Cursor.skipWhile_append_cons position hRun hStop
  have hTake : (text ++ (pad ++ d :: tail)).takeWhile (fun c => !endsContent ',' c)
      = text ++ pad := by
    rw [← List.append_assoc]
    exact Text.takeWhile_append_cons hRun hStop
  have hBlank := @Cursor.skipWhile_append_cons Text.isBlank pad tail d (position + text.length)
    hPad (isBlank_of_stop hd)
  rw [scanContent, hText.of?_eq_none, hBlank]
  simp only [hSkip, hTake, hText.trimmed.trim_append hPad, List.length_append, Nat.add_assoc,
    List.isEmpty_cons, Bool.false_eq_true, if_false]

/-- A token of content as it can be written. -/
inductive Token where
  | bare (text : List Char)
  | wrapped (wrapper : Wrapper) (text : List Char)
  deriving DecidableEq

namespace Token

/-- What a token stands for. -/
def text : Token → List Char
  | .bare text => text
  | .wrapped _ text => text

/-- The characters of a token. -/
def written : Token → List Char
  | .bare text => text
  | .wrapped wrapper text => wrapper.mark ++ (text ++ wrapper.mark)

/-- Whether a token is read back as it was written, if it is read at all. -/
def Sound : Token → Prop
  | .bare text => IsBare text
  | .wrapped wrapper text => wrapper.Holds text

/-- Whether a token can end before a text. -/
def EndsBefore (rest : List Char) : Token → Prop
  | .bare _ => EndsBare rest
  | .wrapped .. => rest.head? ≠ some '\x22'

/-- The characters that are passed over behind a token. -/
def skips : Token → Char → Bool
  | .bare _ => Text.isBlank
  | .wrapped .. => isFiller

end Token

lemma scanContent_written {token : Token} {rest : List Char} (position : Nat)
    (hToken : token.Sound) (hRest : token.EndsBefore rest) :
    scanContent ',' ⟨position, token.written ++ rest⟩
      = .ok (String.ofList token.text,
          (Cursor.mk (position + token.written.length) rest).skipWhile token.skips) := by
  cases token with
  | bare text => exact scanContent_bare position hToken hRest
  | wrapped wrapper text =>
    have hLength : position + (wrapper.mark ++ (text ++ wrapper.mark)).length
        = position + 2 * wrapper.mark.length + text.length := by
      simp only [List.length_append]
      omega
    simp only [Token.written, Token.text, Token.skips, hLength, List.append_assoc]
    exact scanContent_mark ',' position hToken hRest

end PolicyText
