import PolicyText.Proofs.Options.Labels
import PolicyText.Proofs.Scan.Scanned

/-!
# What can be written in wrappers

A text in a wrapper is read verbatim if the wrapper can hold it, and nothing that no wrapper can
hold is ever read in one (`scanContent_verbatim`).  For backticks and quotes this is the absence of
one character.  Triple quotes are closed by the first three quotes in a row, but all quotes directly
behind these still belong to the text; so they hold a text in which three quotes in a row occur only
inside the run of quotes at its end (`TripledAtEnd`).
-/

namespace PolicyText

/-- Wherever three quotes in a row occur in a text, nothing but quotes follows: they lie inside the
run of quotes that ends the text. -/
def TripledAtEnd (text : List Char) : Prop :=
  ∀ front back, text = front ++ (['\x22', '\x22', '\x22'] ++ back) → ∀ c ∈ back, c = '\x22'

/-- Triple quotes hold a text exactly if it has three quotes in a row at most at its end. -/
lemma Wrapper.holds_tripleQuote {text : List Char} :
    Wrapper.tripleQuote.Holds text ↔ TripledAtEnd text := by
  rw [holds_tripleQuote_iff]
  constructor
  · rintro hNot front back rfl c hc
    by_contra hOther
    obtain ⟨inner, tail, rfl⟩ := List.append_of_mem hc
    exact hNot ⟨front ++ (['\x22', '\x22', '\x22'] ++ inner), c, tail, by simp,
      ⟨front, inner, by simp⟩, hOther⟩
  · rintro hEnd ⟨front, c, back, rfl, ⟨start, inner, rfl⟩, hOther⟩
    exact hOther (hEnd start (inner ++ c :: back) (by simp) c (by simp))

/-- **Quoted content is verbatim, and what can be quoted is exactly known.**  A text without
backticks is read between backticks as it is, whatever stop character is looked for; so is a text
without quotes between quotes, and between triple quotes one that has three quotes in a row only
inside the run of quotes at its end.  No quote must follow; the place that is found is that of the
next character that is not a filler, or the end.  Conversely, whatever is read as content at a place
where a wrapper begins is a text of one of these three sorts. -/
theorem scanContent_verbatim :
    (∀ (stop : Char) (position : Nat) (s rest : List Char), rest.head? ≠ some '\x22' →
        ('\x60' ∉ s →
          scanContent stop ⟨position, '\x60' :: (s ++ '\x60' :: rest)⟩
            = .ok (String.ofList s,
                ⟨position + 2 + s.length + (rest.takeWhile isFiller).length,
                  rest.dropWhile isFiller⟩)) ∧
        ('\x22' ∉ s →
          scanContent stop ⟨position, '\x22' :: (s ++ '\x22' :: rest)⟩
            = .ok (String.ofList s,
                ⟨position + 2 + s.length + (rest.takeWhile isFiller).length,
                  rest.dropWhile isFiller⟩)) ∧
        (TripledAtEnd s →
          scanContent stop
              ⟨position, ['\x22', '\x22', '\x22'] ++ (s ++ (['\x22', '\x22', '\x22'] ++ rest))⟩
            = .ok (String.ofList s,
                ⟨position + 6 + s.length + (rest.takeWhile isFiller).length,
                  rest.dropWhile isFiller⟩))) ∧
      ∀ (stop : Char) (c next : Cursor) (s : String), Wrapper.of? c.rest ≠ none →
        scanContent stop c = .ok (s, next) →
          '\x60' ∉ s.toList ∨ '\x22' ∉ s.toList ∨ TripledAtEnd s.toList := by
  refine ⟨fun stop position s rest hRest => ⟨fun hText => ?_, fun hText => ?_, fun hText => ?_⟩,
    fun stop c next s hWrapper h => ?_⟩
  · exact scanContent_mark (w := .backtick) stop position hText hRest
  · exact scanContent_mark (w := .quote) stop position hText hRest
  · exact scanContent_mark stop position (Wrapper.holds_tripleQuote.2 hText) hRest
  · rw [← Wrapper.holds_tripleQuote]
    unfold scanContent at h
    split at h
    · exact representable_of_scanWrapped h
    · rename_i hNone
      exact absurd hNone hWrapper

/-- A text that begins and ends in quotes, and has a backtick, between triple quotes; and nothing at
all between quotes. -/
theorem scanContent_verbatim_quotes :
    TripledAtEnd "\x22a\x60\x22\x22\x22\x22".toList ∧
      scanContent ',' ⟨0, "\x22\x22\x22\x22a\x60\x22\x22\x22\x22\x22\x22\x22 ;,b".toList⟩
        = .ok ("\x22a\x60\x22\x22\x22\x22", ⟨15, ",b".toList⟩) ∧
      scanContent ')' ⟨3, "\x22\x22 )".toList⟩ = .ok ("", ⟨6, [')']⟩) ∧
      ('\x60' ∉ "\x22a\x60\x22\x22\x22\x22".toList ∨
        '\x22' ∉ "\x22a\x60\x22\x22\x22\x22".toList ∨
        TripledAtEnd "\x22a\x60\x22\x22\x22\x22".toList) := by
  have hText : TripledAtEnd "\x22a\x60\x22\x22\x22\x22".toList :=
    Wrapper.holds_tripleQuote.1 (by decide)
  have hTriple := (scanContent_verbatim.1 ',' 0 "\x22a\x60\x22\x22\x22\x22".toList " ;,b".toList
    (by decide)).2.2 hText
  have hEmpty := (scanContent_verbatim.1 ')' 3 [] " )".toList (by decide)).2.1 (by decide)
  exact ⟨hText, hTriple, hEmpty, scanContent_verbatim.2 ',' _ _ _ (by decide) hTriple⟩

end PolicyText
