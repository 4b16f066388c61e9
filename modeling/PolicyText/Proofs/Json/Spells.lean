import PolicyText.Proofs.Json.Scalars

/-!
# Spellings of a JSON value

A value can be written in many ways, because white space may stand between any two of its tokens.
`Json.Spells` relates a value to all of its texts: the words, numbers and strings are those of the
printer, the items and fields come in their order, and white space is free.  Nothing is said here
about other spellings of a number or of a character in a string, which the reader accepts as well.

Whatever the spelling, the reader finds the value (`Json.parseAsWritten_of_spells`), if its numbers
are integers of 64 bits (`Json.IsWhole`) and if it is not nested too deeply (`Json.nesting`).  The
reader stops as soon as it knows the value, and the white space behind the value may still be in
front of it.  So the place where it stops is known up to white space only
(`Json.scanValue_of_spells`), and is exact again behind a bracket or a brace.
-/

namespace PolicyText.Json

/-! ## Spellings -/

/-- White space. -/
def IsGap (text : List Char) : Prop :=
  ∀ c ∈ text, isSpace c = true

mutual

/-- A text spells a value, with white space wherever it may stand. -/
inductive Spells : Json → List Char → Prop where
  | null : Spells .null nullText
  | bool (b : Bool) : Spells (.bool b) (boolText b)
  | number (n : JsonNumber) : Spells (.number n) (numberText n)
  | string (s : String) : Spells (.string s) (quoted s)
  | emptyArray {gap : List Char} (hGap : IsGap gap) : Spells (.array []) ('[' :: gap ++ [']'])
  | array {items : List Json} {text : List Char} (hItems : SpellsItems items text) :
    Spells (.array items) ('[' :: text ++ [']'])
  | emptyObject {gap : List Char} (hGap : IsGap gap) :
    Spells (.object []) ('\x7b' :: gap ++ ['\x7d'])
  | object {fields : List (String × Json)} {text : List Char} (hFields : SpellsFields fields text) :
    Spells (.object fields) ('\x7b' :: text ++ ['\x7d'])
  | padded {d : Json} {before text after : List Char} (hBefore : IsGap before)
    (hText : Spells d text) (hAfter : IsGap after) : Spells d (before ++ text ++ after)

/-- A text spells one or more items with commas between them. -/
inductive SpellsItems : List Json → List Char → Prop where
  | last {item : Json} {text : List Char} (hItem : Spells item text) : SpellsItems [item] text
  | cons {item : Json} {items : List Json} {text more : List Char} (hItem : Spells item text)
    (hItems : SpellsItems items more) : SpellsItems (item :: items) (text ++ ',' :: more)

/-- A text spells one or more fields with commas between them. -/
inductive SpellsFields : List (String × Json) → List Char → Prop where
  | last {name : String} {value : Json} {before after text : List Char} (hBefore : IsGap before)
    (hAfter : IsGap after) (hValue : Spells value text) :
    SpellsFields [(name, value)] (before ++ quoted name ++ after ++ ':' :: text)
  | cons {name : String} {value : Json} {fields : List (String × Json)}
    {before after text more : List Char} (hBefore : IsGap before) (hAfter : IsGap after)
    (hValue : Spells value text) (hFields : SpellsFields fields more) :
    SpellsFields ((name, value) :: fields)
      (before ++ quoted name ++ after ++ ':' :: text ++ ',' :: more)

end

/-! ## Values that can be read back -/

/-- All numbers of a value are integers of 64 bits, with a sign or without one. -/
inductive IsWhole : Json → Prop where
  | null : IsWhole .null
  | bool (b : Bool) : IsWhole (.bool b)
  | integer {n : Int} (hLeast : -2 ^ 63 ≤ n) (hGreatest : n < 2 ^ 64) :
    IsWhole (.number (.integer n))
  | string (s : String) : IsWhole (.string s)
  | array {items : List Json} (hItems : ∀ item ∈ items, IsWhole item) : IsWhole (.array items)
  | object {fields : List (String × Json)} (hValues : ∀ field ∈ fields, IsWhole field.2) :
    IsWhole (.object fields)

mutual

/-- The levels of nesting of a value: none for one that has no parts, and one more for an array or
an object than for its parts. -/
def nesting : Json → Nat
  | .null | .bool _ | .string _ | .number _ => 0
  | .array items => itemsNesting items + 1
  | .object fields => valuesNesting fields + 1

/-- The levels of nesting of the deepest item. -/
def itemsNesting : List Json → Nat
  | [] => 0
  | item :: rest => max (nesting item) (itemsNesting rest)

/-- The levels of nesting of the deepest value of a field. -/
def valuesNesting : List (String × Json) → Nat
  | [] => 0
  | (_, value) :: rest => max (nesting value) (valuesNesting rest)

end

/-! ## White space -/

section Gaps

variable {gap rest : List Char}

lemma isGap_nil : IsGap [] := by
  rintro c ⟨⟩

lemma skipSpace_append (hGap : IsGap gap) (rest : List Char) :
    skipSpace (gap ++ rest) = skipSpace rest :=
  List.dropWhile_append_of_pos hGap

lemma EndsNumber.behindGap (hGap : IsGap gap) (hRest : EndsNumber rest) :
    EndsNumber (gap ++ rest) := by
  cases gap with
  | nil => exact hRest
  | cons c gap =>
    have hSpace := hGap c List.mem_cons_self
    simp only [isSpace, Bool.or_eq_true, beq_iff_eq, or_assoc] at hSpace
    obtain rfl | rfl | rfl | rfl := hSpace <;> exact endsNumber_cons rfl

lemma scanValue_congr (depth : Nat) {a b : List Char} (h : skipSpace a = skipSpace b) :
    scanValue depth a = scanValue depth b := by
  rw [scanValue_eq, scanValue_eq, h]

end Gaps

lemma quoted_append (s : String) (rest : List Char) :
    quoted s ++ rest = '\x22' :: (s.toList.flatMap escapeChar ++ '\x22' :: rest) := by
  rw [quoted, List.cons_append, List.cons_append, List.append_assoc, List.singleton_append]

lemma skipSpace_name {before : List Char} (hBefore : IsGap before) (name : String)
    (after rest : List Char) :
    skipSpace (before ++ quoted name ++ after ++ rest)
      = '\x22' :: (name.toList.flatMap escapeChar ++ '\x22' :: (after ++ rest)) := by
  rw [List.append_assoc, List.append_assoc, skipSpace_append hBefore, quoted_append,
    skipSpace_cons _ (by decide)]

/-! ## How spellings begin -/

/-- A spelling begins, behind white space, and not with a bracket that ends an array. -/
lemma Spells.exists_head : ∀ {d : Json} {text : List Char}, Spells d text →
    ∀ rest, ∃ c tail, skipSpace (text ++ rest) = c :: tail ∧ c ≠ ']'
  | _, _, .null, _ => ⟨_, _, skipSpace_cons _ (by decide), by decide⟩
  | _, _, .bool b, _ => by
    cases b <;> exact ⟨_, _, skipSpace_cons _ (by decide), by decide⟩
  | _, _, .number n, rest => by
    obtain ⟨hSome, hChars⟩ := numberText_spec n
    obtain ⟨c, tail, hText⟩ := List.exists_cons_of_ne_nil hSome
    rw [hText] at hChars ⊢
    have hFirst := hChars c List.mem_cons_self
    exact ⟨c, tail ++ rest, skipSpace_cons _ hFirst.isSpace_eq_false, hFirst.ne (by decide)⟩
  | _, _, .string s, _ => ⟨_, _, skipSpace_cons _ (by decide), by decide⟩
  | _, _, .emptyArray _, _ => ⟨_, _, skipSpace_cons _ (by decide), by decide⟩
  | _, _, .array _, _ => ⟨_, _, skipSpace_cons _ (by decide), by decide⟩
  | _, _, .emptyObject _, _ => ⟨_, _, skipSpace_cons _ (by decide), by decide⟩
  | _, _, .object _, _ => ⟨_, _, skipSpace_cons _ (by decide), by decide⟩
  | _, _, @Spells.padded _ _ _ after hBefore hText _, rest => by
    obtain ⟨c, tail, hHead, hBracket⟩ := hText.exists_head (after ++ rest)
    refine ⟨c, tail, ?_, hBracket⟩
    rwa [List.append_assoc, List.append_assoc, skipSpace_append hBefore]

lemma SpellsItems.exists_head {items : List Json} {text : List Char} (h : SpellsItems items text)
    (rest : List Char) : ∃ c tail, skipSpace (text ++ rest) = c :: tail ∧ c ≠ ']' := by
  cases h with
  | last hItem => exact hItem.exists_head rest
  | cons hItem hItems =>
    rw [List.append_assoc]
    exact hItem.exists_head _

/-! ## One step of the reader -/

section Steps

variable {depth : Nat} {text after rest : List Char}

lemma scanValue_emptyArray {gap : List Char} (hDepth : 1 < depth) (hGap : IsGap gap)
    (rest : List Char) :
    scanValue depth ('[' :: (gap ++ ']' :: rest)) = .ok (.array [], rest) := by
  rw [scanValue_eq, skipSpace_cons _ (by decide)]
  simp [Nat.not_le.2 hDepth, skipSpace_append hGap, skipSpace_cons (c := ']') rest (by decide)]

lemma scanValue_array (hDepth : 1 < depth) {c : Char} {tail : List Char}
    (hHead : skipSpace text = c :: tail) (hBracket : c ≠ ']') {items : List Json}
    (hItems : scanItems (depth - 1) text = .ok (items, rest)) :
    scanValue depth ('[' :: text) = .ok (.array items, rest) := by
  rw [scanValue_eq, skipSpace_cons _ (by decide)]
  simp [Nat.not_le.2 hDepth, hHead, hBracket, hItems, Except.map]

lemma scanValue_emptyObject {gap : List Char} (hDepth : 1 < depth) (hGap : IsGap gap)
    (rest : List Char) :
    scanValue depth ('\x7b' :: (gap ++ '\x7d' :: rest)) = .ok (.object [], rest) := by
  rw [scanValue_eq, skipSpace_cons _ (by decide)]
  simp [Nat.not_le.2 hDepth, skipSpace_append hGap,
    skipSpace_cons (c := '\x7d') rest (by decide)]

lemma scanValue_object (hDepth : 1 < depth) (hHead : skipSpace text = '\x22' :: after)
    {fields : List (String × Json)} (hFields : scanFields (depth - 1) after = .ok (fields, rest)) :
    scanValue depth ('\x7b' :: text) = .ok (.object fields, rest) := by
  rw [scanValue_eq, skipSpace_cons _ (by decide)]
  simp [Nat.not_le.2 hDepth, hHead, hFields, Except.map]

lemma scanItems_last {item : Json} (hItem : scanValue depth text = .ok (item, after))
    (hAfter : skipSpace after = ']' :: rest) : scanItems depth text = .ok ([item], rest) := by
  rw [scanItems_eq, hItem]
  simp [hAfter]

lemma scanItems_comma {item : Json} {items : List Json} {more tail : List Char} {c : Char}
    (hItem : scanValue depth text = .ok (item, after)) (hAfter : skipSpace after = ',' :: more)
    (hHead : skipSpace more = c :: tail) (hBracket : c ≠ ']')
    (hItems : scanItems depth more = .ok (items, rest)) :
    scanItems depth text = .ok (item :: items, rest) := by
  rw [scanItems_eq, hItem]
  simp [hAfter, hHead, hBracket, hItems, Except.map]

variable {name : List Char} {value : Json} {colon behind : List Char}

lemma scanFields_last (hName : readString text = .ok (name, colon))
    (hColon : skipSpace colon = ':' :: behind)
    (hValue : scanValue depth behind = .ok (value, after))
    (hAfter : skipSpace after = '\x7d' :: rest) :
    scanFields depth text = .ok ([(String.ofList name, value)], rest) := by
  rw [scanFields_eq, hName]
  simp [hColon, hValue, hAfter]

lemma scanFields_comma {more next : List Char} {fields : List (String × Json)}
    (hName : readString text = .ok (name, colon)) (hColon : skipSpace colon = ':' :: behind)
    (hValue : scanValue depth behind = .ok (value, after))
    (hAfter : skipSpace after = ',' :: more) (hHead : skipSpace more = '\x22' :: next)
    (hFields : scanFields depth next = .ok (fields, rest)) :
    scanFields depth text = .ok ((String.ofList name, value) :: fields, rest) := by
  rw [scanFields_eq, hName]
  simp [hColon, hValue, hAfter, hHead, hFields, Except.map]

end Steps

/-! ## Reading -/

mutual

/-- A value is read from each of its spellings, whatever stands behind it that continues no number,
if there are more levels of nesting left than it has. -/
lemma scanValue_of_spells : ∀ {d : Json} {text : List Char}, Spells d text → d.IsWhole →
    ∀ (depth : Nat) (rest : List Char), d.nesting < depth → EndsNumber rest →
    ∃ left, scanValue depth (text ++ rest) = .ok (d, left) ∧ skipSpace left = skipSpace rest
  | _, _, .null, _, depth, rest, _, _ => by
    refine ⟨rest, ?_, rfl⟩
    rw [nullText, List.cons_append, scanValue_eq, skipSpace_cons _ (by decide)]
    simp [readWord, Except.map]
  | _, _, .bool b, _, depth, rest, _, _ => by
    refine ⟨rest, ?_, rfl⟩
    cases b <;>
    · rw [boolText, List.cons_append, scanValue_eq, skipSpace_cons _ (by decide)]
      simp [readWord, Except.map]
  | _, _, .number _, .integer hLeast hGreatest, depth, rest, _, hRest =>
    ⟨rest, scanValue_integerText hLeast hGreatest depth hRest, rfl⟩
  | _, _, .string s, _, depth, rest, _, _ => by
    refine ⟨rest, ?_, rfl⟩
    rw [quoted_append, scanValue_eq, skipSpace_cons _ (by decide)]
    simp [readString_flatMap, Except.map]
  | _, _, .emptyArray hGap, _, depth, rest, hDepth, _ => by
    rw [nesting] at hDepth
    refine ⟨rest, ?_, rfl⟩
    rw [List.cons_append, List.cons_append, List.append_assoc, List.singleton_append]
    exact scanValue_emptyArray (by omega) hGap rest
  | _, _, .array hItems, .array hWhole, depth, rest, hDepth, _ => by
    rw [nesting] at hDepth
    obtain ⟨c, tail, hHead, hBracket⟩ := hItems.exists_head (']' :: rest)
    refine ⟨rest, ?_, rfl⟩
    rw [List.cons_append, List.cons_append, List.append_assoc, List.singleton_append]
    exact scanValue_array (by omega) hHead hBracket
      (scanItems_of_spells hItems hWhole (depth - 1) rest (by omega))
  | _, _, .emptyObject hGap, _, depth, rest, hDepth, _ => by
    rw [nesting] at hDepth
    refine ⟨rest, ?_, rfl⟩
    rw [List.cons_append, List.cons_append, List.append_assoc, List.singleton_append]
    exact scanValue_emptyObject (by omega) hGap rest
  | _, _, .object hFields, .object hWhole, depth, rest, hDepth, _ => by
    rw [nesting] at hDepth
    obtain ⟨after, hHead, hRead⟩ :=
      scanFields_of_spells hFields hWhole (depth - 1) rest (by omega)
    refine ⟨rest, ?_, rfl⟩
    rw [List.cons_append, List.cons_append, List.append_assoc, List.singleton_append]
    exact scanValue_object (by omega) hHead hRead
  | _, _, @Spells.padded _ _ _ after hBefore hText hAfter, hWhole, depth, rest, hDepth, hRest => by
    obtain ⟨left, hRead, hLeft⟩ :=
      scanValue_of_spells hText hWhole depth (after ++ rest) hDepth (hRest.behindGap hAfter)
    refine ⟨left, ?_, by rw [hLeft, skipSpace_append hAfter]⟩
    rw [List.append_assoc, List.append_assoc, scanValue_congr depth (skipSpace_append hBefore _),
      hRead]

lemma scanItems_of_spells : ∀ {items : List Json} {text : List Char}, SpellsItems items text →
    (∀ item ∈ items, item.IsWhole) → ∀ (depth : Nat) (rest : List Char),
    itemsNesting items < depth → scanItems depth (text ++ ']' :: rest) = .ok (items, rest)
  | _, _, .last hItem, hWhole, depth, rest, hDepth => by
    rw [itemsNesting, itemsNesting] at hDepth
    obtain ⟨left, hRead, hLeft⟩ := scanValue_of_spells hItem (hWhole _ List.mem_cons_self) depth
      (']' :: rest) (by omega) (endsNumber_cons rfl)
    exact scanItems_last hRead (hLeft.trans (skipSpace_cons rest (by decide)))
  | _, _, @SpellsItems.cons _ _ _ more hItem hItems, hWhole, depth, rest, hDepth => by
    rw [itemsNesting] at hDepth
    obtain ⟨hFirst, hOthers⟩ := List.forall_mem_cons.1 hWhole
    obtain ⟨left, hRead, hLeft⟩ := scanValue_of_spells hItem hFirst depth
      (',' :: (more ++ ']' :: rest)) (by omega) (endsNumber_cons rfl)
    obtain ⟨c, tail, hHead, hBracket⟩ := hItems.exists_head (']' :: rest)
    rw [List.append_assoc, List.cons_append]
    exact scanItems_comma hRead (hLeft.trans (skipSpace_cons _ (by decide))) hHead hBracket
      (scanItems_of_spells hItems hOthers depth rest (by omega))

/-- The fields of an object are read from each of their spellings, from behind the quote that opens
the first name. -/
lemma scanFields_of_spells : ∀ {fields : List (String × Json)} {text : List Char},
    SpellsFields fields text → (∀ field ∈ fields, field.2.IsWhole) →
    ∀ (depth : Nat) (rest : List Char), valuesNesting fields < depth →
    ∃ after, skipSpace (text ++ '\x7d' :: rest) = '\x22' :: after ∧
      scanFields depth after = .ok (fields, rest)
  | _, _, @SpellsFields.last name _ _ _ text hBefore hAfter hValue, hWhole, depth, rest,
      hDepth => by
    rw [valuesNesting, valuesNesting] at hDepth
    obtain ⟨left, hRead, hLeft⟩ := scanValue_of_spells hValue (hWhole _ List.mem_cons_self) depth
      ('\x7d' :: rest) (by omega) (endsNumber_cons rfl)
    have hColon := (skipSpace_append hAfter _).trans
      (skipSpace_cons (c := ':') (text ++ '\x7d' :: rest) (by decide))
    have hFields := scanFields_last (readString_flatMap name.toList _) hColon hRead
      (hLeft.trans (skipSpace_cons rest (by decide)))
    rw [String.ofList_toList] at hFields
    refine ⟨_, ?_, hFields⟩
    rw [List.append_assoc, List.cons_append, skipSpace_name hBefore]
  | _, _, @SpellsFields.cons name _ _ _ _ text more hBefore hAfter hValue hFields, hWhole, depth,
      rest, hDepth => by
    rw [valuesNesting] at hDepth
    obtain ⟨hFirst, hOthers⟩ := List.forall_mem_cons.1 hWhole
    obtain ⟨left, hRead, hLeft⟩ := scanValue_of_spells hValue hFirst depth
      (',' :: (more ++ '\x7d' :: rest)) (by omega) (endsNumber_cons rfl)
    obtain ⟨next, hNext, hMore⟩ := scanFields_of_spells hFields hOthers depth rest (by omega)
    have hColon := (skipSpace_append hAfter _).trans
      (skipSpace_cons (c := ':') (text ++ ',' :: (more ++ '\x7d' :: rest)) (by decide))
    have hAll := scanFields_comma (readString_flatMap name.toList _) hColon hRead
      (hLeft.trans (skipSpace_cons _ (by decide))) hNext hMore
    rw [String.ofList_toList] at hAll
    refine ⟨_, ?_, hAll⟩
    rw [List.append_assoc, List.append_assoc, List.cons_append, List.cons_append,
      skipSpace_name hBefore]

end

/-- **A value is read back from each of its spellings.** -/
theorem parseAsWritten_of_spells {d : Json} {text : List Char} (hText : Spells d text)
    (hWhole : d.IsWhole) (hNesting : d.nesting < nestingLimit) : parseAsWritten text = .ok d := by
  obtain ⟨left, hRead, hLeft⟩ :=
    scanValue_of_spells hText hWhole nestingLimit [] hNesting endsNumber_nil
  rw [List.append_nil, scanValue] at hRead
  rw [parseAsWritten]
  split
  · rename_i hFault
    rw [hFault] at hRead
    cases hRead
  · rename_i hValue
    rw [hValue] at hRead
    cases hRead
    rw [hLeft]
    rfl

end PolicyText.Json
