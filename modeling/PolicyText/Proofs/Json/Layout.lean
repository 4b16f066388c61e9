import PolicyText.Proofs.Json.Printed

/-!
# Text over several lines

The printer that writes a value over several lines says no more than the one that writes it without
white space.  `Json.layout` sets any text over several lines without knowing of which value it is:
behind an opening bracket or brace, behind a comma and in front of a closing bracket or brace a line
ends, the next one begins with two spaces for each bracket or brace that is open, and a colon is
followed by a space.  Strings are left alone, and brackets or braces with nothing between them stay
together.

The text of a value over several lines is the layout of its text without white space
(`Json.pretty_eq_layout`).
-/

namespace PolicyText.Json

/-! ## Setting a text -/

/-- Sets a text at a level of indentation, from outside or from inside of a string. -/
def layoutFrom (level : Nat) : (inString : Bool) → List Char → List Char
  | _, [] => []
  | true, '\\' :: c :: rest => '\\' :: c :: layoutFrom level true rest
  | true, c :: rest => c :: layoutFrom level (c != '\x22') rest
  | false, '[' :: ']' :: rest => '[' :: ']' :: layoutFrom level false rest
  | false, '\x7b' :: '\x7d' :: rest => '\x7b' :: '\x7d' :: layoutFrom level false rest
  | false, c :: rest =>
    if c = '[' ∨ c = '\x7b' then c :: newline (level + 1) ++ layoutFrom (level + 1) false rest
    else if c = ']' ∨ c = '\x7d' then
      newline (level - 1) ++ c :: layoutFrom (level - 1) false rest
    else if c = ',' then c :: newline level ++ layoutFrom level false rest
    else if c = ':' then c :: ' ' :: layoutFrom level false rest
    else c :: layoutFrom level (c == '\x22') rest

/-- Sets a text over several lines. -/
def layout (text : List Char) : List Char :=
  layoutFrom 0 false text

/-! ## One token -/

/-- The characters at which a layout does more than to copy. -/
def marks : List Char :=
  ['[', ']', '\x7b', '\x7d', ',', ':', '\x22']

section Tokens

variable {level : Nat}

lemma layoutFrom_cons {c : Char} (hc : c ∉ marks) (rest : List Char) :
    layoutFrom level false (c :: rest) = c :: layoutFrom level false rest := by
  simp only [marks, List.mem_cons, not_or] at hc
  obtain ⟨hOpen, hClose, hLeft, hRight, hComma, hColon, hQuote, -⟩ := hc
  have hOutside : (c == '\x22') = false := beq_eq_false_iff_ne.2 hQuote
  rw [layoutFrom]
  · simp only [hOpen, hClose, hLeft, hRight, hComma, hColon, hOutside, or_self, if_false]
  · exact fun rest h => absurd h hOpen
  · exact fun rest h => absurd h hLeft

lemma layoutFrom_copy {text : List Char} (hText : ∀ c ∈ text, c ∉ marks) (rest : List Char) :
    layoutFrom level false (text ++ rest) = text ++ layoutFrom level false rest := by
  induction text with
  | nil => rfl
  | cons c text ih =>
    obtain ⟨hc, hText⟩ := List.forall_mem_cons.1 hText
    rw [List.cons_append, layoutFrom_cons hc, ih hText, List.cons_append]

lemma layoutFrom_inString {c : Char} (hQuote : c ≠ '\x22') (hBackslash : c ≠ '\\')
    (rest : List Char) : layoutFrom level true (c :: rest) = c :: layoutFrom level true rest := by
  have hInside : (c != '\x22') = true := bne_iff_ne.2 hQuote
  rw [layoutFrom, hInside]
  exact fun d rest h => absurd h hBackslash

lemma hexDigit_ne {n : Nat} (h : n < 16) : hexDigit n ≠ '\x22' ∧ hexDigit n ≠ '\\' := by
  revert n
  decide

lemma layoutFrom_escapeChar (c : Char) (rest : List Char) :
    layoutFrom level true (escapeChar c ++ rest)
      = escapeChar c ++ layoutFrom level true rest := by
  unfold escapeChar
  split_ifs with hQuote hBackslash h8 h9 h10 h12 h13 hControl
  all_goals try rfl
  · obtain ⟨hHigh, hHighBackslash⟩ := hexDigit_ne (show c.toNat / 16 < 16 by omega)
    obtain ⟨hLow, hLowBackslash⟩ := hexDigit_ne (show c.toNat % 16 < 16 by omega)
    simp only [List.cons_append, List.nil_append, layoutFrom,
      layoutFrom_inString hHigh hHighBackslash, layoutFrom_inString hLow hLowBackslash,
      layoutFrom_inString (c := '0') (by decide) (by decide)]
  · exact layoutFrom_inString hQuote hBackslash rest

lemma layoutFrom_quoted (s : String) (rest : List Char) :
    layoutFrom level false (quoted s ++ rest) = quoted s ++ layoutFrom level false rest := by
  have hInside (chars : List Char) :
      layoutFrom level true (chars.flatMap escapeChar ++ '\x22' :: rest)
        = chars.flatMap escapeChar ++ '\x22' :: layoutFrom level false rest := by
    induction chars with
    | nil => rfl
    | cons c chars ih =>
      rw [List.flatMap_cons, List.append_assoc, layoutFrom_escapeChar, ih, List.append_assoc]
  rw [quoted_append, quoted_append, ← hInside]
  rfl

lemma layoutFrom_openArray {text : List Char} (hHead : text.head? ≠ some ']') :
    layoutFrom level false ('[' :: text)
      = '[' :: newline (level + 1) ++ layoutFrom (level + 1) false text := by
  rw [layoutFrom, if_pos (.inl rfl)]
  · exact fun rest _ h => hHead (by rw [h]; rfl)
  · exact fun rest h => absurd h (by decide)

lemma layoutFrom_openObject {text : List Char} (hHead : text.head? ≠ some '\x7d') :
    layoutFrom level false ('\x7b' :: text)
      = '\x7b' :: newline (level + 1) ++ layoutFrom (level + 1) false text := by
  rw [layoutFrom, if_pos (.inr rfl)]
  · exact fun rest h => absurd h (by decide)
  · exact fun rest _ h => hHead (by rw [h]; rfl)

end Tokens

/-! ## Values -/

lemma head?_compactItems_ne {items : List Json} (hItems : items ≠ []) (rest : List Char) :
    (compactItems items ++ rest).head? ≠ some ']' := by
  intro hHead
  obtain ⟨tail, hText⟩ := List.head?_eq_some_iff.1 hHead
  obtain ⟨c, after, hBegins, hBracket⟩ := (spellsItems_compact items hItems).exists_head rest
  rw [hText, skipSpace_cons _ (by decide)] at hBegins
  exact hBracket (List.cons.inj hBegins).1.symm

lemma head?_compactFields_ne {fields : List (String × Json)} (hFields : fields ≠ [])
    (rest : List Char) : (compactFields fields ++ rest).head? ≠ some '\x7d' := by
  obtain ⟨⟨name, value⟩, fields, rfl⟩ := List.exists_cons_of_ne_nil hFields
  cases fields <;> simp [compactFields, quoted]

mutual

/-- The layout of a value written without white space, in front of any other text. -/
lemma layoutFrom_compact : ∀ (d : Json) (level : Nat) (rest : List Char),
    layoutFrom level false (d.compact ++ rest) = prettyAt level d ++ layoutFrom level false rest
  | .null, _, rest => @layoutFrom_copy _ nullText (by decide) rest
  | .bool true, _, rest => @layoutFrom_copy _ (boolText true) (by decide) rest
  | .bool false, _, rest => @layoutFrom_copy _ (boolText false) (by decide) rest
  | .number n, _, rest => by
    refine layoutFrom_copy (fun c hc hMark => ?_) rest
    have hIn : c ∈ [' ', '\n', '\t', '\r', '[', ']', '\x7b', '\x7d', ',', ':', '\x22'] :=
      List.mem_append_right [' ', '\n', '\t', '\r'] hMark
    exact ((numberText_spec n).2 c hc).ne hIn rfl
  | .string s, _, rest => layoutFrom_quoted s rest
  | .array [], _, rest => rfl
  | .array (item :: items), level, rest => by
    have hItems := layoutFrom_compactItems (item :: items) (level + 1) (']' :: rest)
      (List.cons_ne_nil _ _)
    rw [compact, prettyAt, List.cons_append, List.cons_append, List.append_assoc,
      layoutFrom_openArray (head?_compactItems_ne (List.cons_ne_nil _ _) _), List.cons_append,
      List.singleton_append, hItems]
    simp [layoutFrom]
  | .object [], _, rest => rfl
  | .object (field :: fields), level, rest => by
    have hFields := layoutFrom_compactFields (field :: fields) (level + 1) ('\x7d' :: rest)
      (List.cons_ne_nil _ _)
    rw [compact, prettyAt, List.cons_append, List.cons_append, List.append_assoc,
      layoutFrom_openObject (head?_compactFields_ne (List.cons_ne_nil _ _) _), List.cons_append,
      List.singleton_append, hFields]
    simp [layoutFrom]

lemma layoutFrom_compactItems : ∀ (items : List Json) (level : Nat) (rest : List Char),
    items ≠ [] → newline level ++ layoutFrom level false (compactItems items ++ rest)
      = prettyItems level items ++ layoutFrom level false rest
  | [], _, _, hItems => absurd rfl hItems
  | [item], level, rest, _ => by
    rw [compactItems, prettyItems, layoutFrom_compact item, List.append_assoc]
  | item :: next :: items, level, rest, _ => by
    have hItems := layoutFrom_compactItems (next :: items) level rest (List.cons_ne_nil _ _)
    rw [compactItems_cons, prettyItems_cons, List.append_assoc, layoutFrom_compact item,
      List.cons_append]
    simp [layoutFrom, hItems]

lemma layoutFrom_compactFields : ∀ (fields : List (String × Json)) (level : Nat)
    (rest : List Char), fields ≠ [] →
    newline level ++ layoutFrom level false (compactFields fields ++ rest)
      = prettyFields level fields ++ layoutFrom level false rest
  | [], _, _, hFields => absurd rfl hFields
  | [(name, value)], level, rest, _ => by
    rw [compactFields, prettyFields, List.append_assoc, layoutFrom_quoted, List.cons_append]
    simp [layoutFrom, layoutFrom_compact value]
  | (name, value) :: next :: fields, level, rest, _ => by
    have hFields := layoutFrom_compactFields (next :: fields) level rest (List.cons_ne_nil _ _)
    rw [compactFields_cons, prettyFields_cons, List.append_assoc, layoutFrom_quoted,
      List.cons_append]
    simp [layoutFrom, layoutFrom_compact value, hFields]

end

/-- **The text over several lines is the layout of the text without white space.** -/
theorem pretty_eq_layout (d : Json) : d.pretty = layout d.compact := by
  have hLayout := layoutFrom_compact d 0 []
  rw [List.append_nil] at hLayout
  rw [layout, hLayout, pretty, layoutFrom, List.append_nil]

/-- Lines show a value: their text spells it and is set over several lines, and whoever reads it
finds the value, if it is one that can be read back. -/
structure Shows (d : Json) (text : String) : Prop where
  spells : Spells d text.toList
  layout_eq : text.toList = layout d.compact ++ ['\n']
  reads : d.IsWhole → d.nesting < nestingLimit → parseAsWritten text.toList = .ok d

lemma shows_pretty (d : Json) : d.Shows (d.prettyString ++ "\n") := by
  have hText : (d.prettyString ++ "\n").toList = d.pretty ++ ['\n'] := by
    rw [String.toList_append, prettyString, String.toList_ofList]
    rfl
  have hSpells : Spells d (d.pretty ++ ['\n']) :=
    .padded isGap_nil (spells_pretty d) (List.forall_mem_singleton.2 rfl)
  rw [← hText] at hSpells
  refine ⟨hSpells, ?_, parseAsWritten_of_spells hSpells⟩
  rw [hText, pretty_eq_layout]

end PolicyText.Json
