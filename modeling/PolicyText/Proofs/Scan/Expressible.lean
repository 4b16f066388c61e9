import PolicyText.Proofs.Scan.Separated

/-!
# Texts that can be written

Not every text can be written as a token.  One that contains a backtick, a quote and three quotes in
a row before its end is held by no wrapper (`Representable`), and if it contains a comma or a
closing parenthesis as well, it cannot stand bare either (`Expressible`).  `Token.ofText` writes a
text in the first wrapper that holds it, and bare if none does.
-/

namespace PolicyText

/-- A text that some wrapper holds: it has no backtick, or no quote, or three quotes in a row only
among the quotes at its end. -/
def Representable (text : List Char) : Prop :=
  Wrapper.backtick.Holds text ∨ Wrapper.quote.Holds text ∨ Wrapper.tripleQuote.Holds text

instance (text : List Char) : Decidable (Representable text) :=
  inferInstanceAs (Decidable (_ ∨ _))

/-- A text that can be written, be it in a wrapper or bare. -/
def Expressible (text : List Char) : Prop :=
  Representable text ∨ IsBare text

lemma representable_of_not_mem {text : List Char} (h : '\x60' ∉ text) : Representable text :=
  Or.inl h

/-- The wrapper in which a text is written: the first that holds it. -/
def Wrapper.forText (text : List Char) : Wrapper :=
  if Wrapper.backtick.Holds text then .backtick
  else if Wrapper.quote.Holds text then .quote
  else .tripleQuote

lemma Wrapper.holds_forText {text : List Char} (h : Representable text) :
    (Wrapper.forText text).Holds text := by
  unfold forText
  split
  · assumption
  · split
    · assumption
    · rename_i hBacktick hQuote
      exact (h.resolve_left hBacktick).resolve_left hQuote

namespace Token

/-- The token as which a text is written. -/
def ofText (text : List Char) : Token :=
  if Representable text then .wrapped (.forText text) text else .bare text

@[simp] lemma text_ofText (text : List Char) : (ofText text).text = text := by
  unfold ofText
  split <;> rfl

lemma sound_ofText {text : List Char} (h : Expressible text) : (ofText text).Sound := by
  unfold ofText
  split
  · exact Wrapper.holds_forText ‹_›
  · exact h.resolve_left ‹_›

lemma begins_ofText {text : List Char} (h : Representable text) : (ofText text).Begins := by
  rw [ofText, if_pos h]
  trivial

lemma isPadded_written {token : Token} (h : token.Sound) : token.IsPadded token.written :=
  ⟨h, [], by simp, (List.append_nil _).symm⟩

end Token

end PolicyText
