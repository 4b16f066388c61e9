import PolicyText.Proofs.Scan.Separated
import PolicyText.Scan.Reference

/-!
# References as they are written

The entries of a reference are read in the order in which they are written, whatever separates them
(`scanEntries_listed`), and a reference with one or two of them is complete at its closing
parenthesis (`scanReference_written`).
-/

namespace PolicyText

/-! ## One step of the loop -/

/-- The loop looks at one character and goes on behind it, or behind the token that it begins. -/
lemma scanEntries_cons (keyword : String) (opened position : Nat) (d : Char) (tail : List Char) :
    scanEntries keyword opened ⟨position, d :: tail⟩ =
      match CharClass.of d with
      | .closing => .ok ([], Cursor.skipFiller ⟨position + 1, tail⟩)
      | .delimiter | .filler | .opening => scanEntries keyword opened ⟨position + 1, tail⟩
      | .sigil => .error (.nestedInReference position)
      | .content =>
        match scanContent ',' ⟨position, d :: tail⟩ with
        | .error error => .error error
        | .ok (text, next) =>
          (scanEntries keyword opened next).map fun found => (text :: found.1, found.2) := by
  rw [scanEntries]
  split
  · rename_i hRest
    cases hRest
  · rename_i hRest
    cases hRest
    split <;> rename_i hClass <;> simp only [hClass] <;> try rfl
    split <;> rename_i hContent <;> simp only [hContent]
    split <;> rename_i hEntries <;> rw [hEntries] <;> rfl

lemma scanEntries_closing (keyword : String) (opened position : Nat) (tail : List Char) :
    scanEntries keyword opened ⟨position, ')' :: tail⟩
      = .ok ([], Cursor.skipFiller ⟨position + 1, tail⟩) :=
  scanEntries_cons keyword opened position ')' tail

lemma passesOver_scanEntries (keyword : String) (opened : Nat) :
    Cursor.PassesOver separatesArguments (scanEntries keyword opened) := by
  intro position c rest hc
  rw [scanEntries_cons]
  rcases class_of_separatesArguments hc with hClass | hClass <;> rw [hClass]

lemma scanEntries_content {keyword text : String} {opened position : Nat} {d : Char}
    {tail : List Char} {next : Cursor} (hClass : CharClass.of d = .content)
    (hContent : scanContent ',' ⟨position, d :: tail⟩ = .ok (text, next)) :
    scanEntries keyword opened ⟨position, d :: tail⟩
      = (scanEntries keyword opened next).map fun found => (text :: found.1, found.2) := by
  rw [scanEntries_cons, hClass, hContent]

/-! ## The whole reference -/

/-- Entries are read in their order, up to the closing parenthesis. -/
lemma scanEntries_listed {place : ListPlace} {entries : List Token} {text : List Char}
    (hText : Listed separatesArguments Token.IsArgument place entries text) (keyword : String)
    (opened position : Nat) (tail : List Char) :
    scanEntries keyword opened ⟨position, text ++ ')' :: tail⟩
      = .ok (entries.map fun token => String.ofList token.text,
          Cursor.skipFiller ⟨position + text.length + 1, tail⟩) := by
  have hPass := passesOver_scanEntries keyword opened
  induction hText generalizing position with
  | gap hGap => rw [hPass.append hGap, scanEntries_closing, List.map_nil]
  | closing => exact scanEntries_closing keyword opened position tail
  | comma hItems ih =>
    rw [List.cons_append, hPass position ',' _ rfl, ih, List.length_cons,
      Nat.add_right_comm position 1, ← Nat.add_assoc]
  | @item gap written text token entries hGap hItem hItems ih =>
    obtain ⟨stop, after, hStop, hIsStop⟩ := hItems.exists_stop tail
    obtain ⟨d, rest, hWritten, hClass⟩ := hItem.exists_content (stop :: after)
    have hContent := scanContent_padded (position + gap.length) after hItem.2 hIsStop
    rw [hWritten] at hContent
    rw [List.append_assoc, List.append_assoc, hPass.append hGap, hStop, hWritten,
      scanEntries_content hClass hContent, ← hStop, ih]
    simp only [Except.map, List.map_cons, List.length_append, Nat.add_assoc]

lemma scanReference_written {entries : List Token} {text : List Char} (keyword : String)
    (position : Nat) (tail : List Char)
    (hText : Listed separatesArguments Token.IsArgument .front entries text)
    (hCount : entries.length = 1 ∨ entries.length = 2) :
    scanReference keyword ⟨position, '(' :: (text ++ ')' :: tail)⟩
      = .ok (entries.map fun token => String.ofList token.text,
          Cursor.skipFiller ⟨position + text.length + 2, tail⟩) := by
  have hEntries := scanEntries_listed hText keyword position (position + 1) tail
  have hPlace : position + 1 + text.length + 1 = position + text.length + 2 := by omega
  have hArity : ¬ (entries.length = 0 ∨ 2 < entries.length) := by omega
  rw [hPlace] at hEntries
  simp only [scanReference, List.head?_cons, if_true, Cursor.advance_one_cons, hEntries,
    List.length_map, if_neg hArity]

end PolicyText
