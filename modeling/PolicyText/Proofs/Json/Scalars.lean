import PolicyText.Json.Printer
import PolicyText.Proofs.Json.Readers
import PolicyText.Proofs.Text.Digits
import PolicyText.Proofs.Text.Trim

/-!
# Numbers and strings in JSON texts

Integers of 64 bits and strings are read back from the texts that the printer writes for them.  An
integer is read as far as the text behind it does not continue it (`Json.EndsNumber`,
`Json.scanValue_integerText`), and the characters of a string are read as they are escaped
(`Json.readString_escapeChar`, `Json.readString_flatMap`).

Of binary numbers it is said only with which characters they are written (`Json.numberText_spec`):
their shortest digits are read back by steps that round.
-/

namespace PolicyText

lemma Text.eq_zero_of_head?_decimal {n : Nat} (h : (decimal n).head? = some '0') : n = 0 := by
  have hDigit : ∀ digit < 10, [Nat.digitChar digit].head? = some '0' → digit = 0 := by decide
  induction n using Nat.strongRecOn with
  | ind n ih =>
    obtain hSmall | hLarge := Nat.lt_or_ge n 10
    · rw [decimal, Nat.toDigits_of_lt_base hSmall] at h
      exact hDigit n hSmall h
    · rw [decimal, Nat.toDigits_of_base_le (by decide) hLarge, ← decimal,
        List.head?_append_of_ne_nil _ (decimal_ne_nil _)] at h
      have hZero := ih (n / 10) (by omega) h
      omega

namespace Json

/-! ## Numbers -/

/-- A text does not continue a number that stands in front of it. -/
def EndsNumber (rest : List Char) : Prop :=
  ∀ c ∈ rest.head?, c.isDigit = false ∧ c ≠ '.' ∧ c ≠ 'e' ∧ c ≠ 'E'

lemma EndsNumber.takeWhile_append {digits rest : List Char} (hRest : EndsNumber rest)
    (hDigits : ∀ c ∈ digits, c.isDigit = true) :
    (digits ++ rest).takeWhile Char.isDigit = digits ∧
      (digits ++ rest).dropWhile Char.isDigit = rest := by
  cases rest with
  | nil =>
    rw [List.append_nil]
    exact ⟨List.takeWhile_eq_self_iff.2 hDigits, List.dropWhile_eq_nil_iff.2 hDigits⟩
  | cons c rest =>
    have hc := (hRest c rfl).1
    exact ⟨Text.takeWhile_append_cons hDigits hc, Text.dropWhile_append_cons hDigits hc⟩

lemma takeDigits_digits {digits : List Char} (hDigits : ∀ c ∈ digits, c.isDigit = true)
    (significand : Nat) (hValue : Nat.ofDigitChars 10 digits significand < 2 ^ 64) :
    takeDigits significand digits = (Nat.ofDigitChars 10 digits significand, []) := by
  induction digits generalizing significand with
  | nil => rw [takeDigits, Nat.ofDigitChars_nil]
  | cons c digits ih =>
    obtain ⟨hc, hDigits⟩ := List.forall_mem_cons.1 hDigits
    rw [Nat.ofDigitChars_cons] at hValue ⊢
    have hNext := Nat.lt_of_le_of_lt (Text.le_ofDigitChars digits _) hValue
    rw [takeDigits, Text.digitValue?_of_isDigit hc, Option.getD_some, Nat.mul_comm significand]
    simp only [if_pos hNext]
    exact ih hDigits _ hValue

/-- The text of a number that fits 64 bits is read as this number. -/
lemma readNumber_decimal {n : Nat} (negative : Bool) (hn : n < 2 ^ 64) {rest : List Char}
    (hRest : EndsNumber rest) :
    readNumber negative (Text.decimal n ++ rest) = finishInteger negative n rest := by
  have hDigits : ∀ c ∈ Text.decimal n, c.isDigit = true := fun _ hc =>
    Text.isDigit_of_mem_decimal hc
  obtain ⟨hTake, hDrop⟩ := hRest.takeWhile_append hDigits
  have hAmount : Nat.ofDigitChars 10 (Text.decimal n) 0 = n := Nat.ofDigitChars_ten_toDigits
  have hTaken := takeDigits_digits hDigits 0 (by rwa [hAmount])
  rw [hAmount] at hTaken
  obtain ⟨c, tail, hText⟩ := List.exists_cons_of_ne_nil (Text.decimal_ne_nil n)
  have hc : c.isDigit = true := hDigits c (by rw [hText]; exact List.mem_cons_self)
  have hLeading : (c = '0' && (Text.decimal n).length != 1) = false := by
    by_cases hZero : c = '0'
    · have hn := Text.eq_zero_of_head?_decimal (by rw [hText, hZero]; rfl)
      subst hn
      simp [Text.decimal]
    · simp [hZero]
  unfold readNumber
  split
  · rename_i hNil
    rw [hText] at hNil
    cases hNil
  · rename_i d rest' hCons
    rw [hText, List.cons_append] at hCons
    obtain ⟨rfl, -⟩ := List.cons.inj hCons
    simp only [hc, hTake, hDrop, hTaken, hLeading, Bool.not_true, Bool.false_eq_true, if_false,
      List.isEmpty_nil, if_true]
    -- Neither a point nor an exponent follows.
    split
    · exact absurd rfl (hRest '.' rfl).2.1
    · exact absurd rfl (hRest 'e' rfl).2.2.1
    · exact absurd rfl (hRest 'E' rfl).2.2.2
    · rfl

/-! ## Strings -/

lemma hexDigitValue?_hexDigit {n : Nat} (h : n < 16) :
    Text.hexDigitValue? (hexDigit n) = some n := by
  revert n
  decide

lemma readUnicodeEscape_control {c : Char} (h : c.toNat < 32) (text : List Char) :
    readUnicodeEscape
        ('0' :: '0' :: hexDigit (c.toNat / 16) :: hexDigit (c.toNat % 16) :: text)
      = .ok (c, text) := by
  have hHigh := hexDigitValue?_hexDigit (show c.toNat / 16 < 16 by omega)
  have hLow := hexDigitValue?_hexDigit (show c.toNat % 16 < 16 by omega)
  have hZero : Text.hexDigitValue? '0' = some 0 := rfl
  have hUnit : ((0 * 16 + 0) * 16 + c.toNat / 16) * 16 + c.toNat % 16 = c.toNat := by omega
  have hTrailing : isTrailingSurrogate c.toNat = false := by
    simp only [isTrailingSurrogate, Bool.and_eq_false_iff, decide_eq_false_iff_not]
    omega
  have hLeading : isLeadingSurrogate c.toNat = false := by
    simp only [isLeadingSurrogate, Bool.and_eq_false_iff, decide_eq_false_iff_not]
    omega
  simp only [readUnicodeEscape, readHex, hZero, hHigh, hLow, hUnit, hTrailing, hLeading,
    Char.ofNat_toNat, Bool.false_eq_true, if_false]

lemma escapeChar_cases (c : Char) :
    (escapeChar c = [c] ∧ c ≠ '\x22' ∧ c ≠ '\\' ∧ ¬ c.toNat < 32) ∨
      ∃ tail, escapeChar c = '\\' :: tail ∧ ∀ text, readEscape (tail ++ text) = .ok (c, text) := by
  have hCode {n : Nat} (h : c.toNat = n) : Char.ofNat n = c := by rw [← h, Char.ofNat_toNat]
  unfold escapeChar
  split_ifs with hQuote hBackslash h8 h9 h10 h12 h13 hControl
  · exact .inr ⟨_, rfl, fun text => by rw [hQuote]; rfl⟩
  · exact .inr ⟨_, rfl, fun text => by rw [hBackslash]; rfl⟩
  · exact .inr ⟨_, rfl, fun text => by rw [← hCode h8]; rfl⟩
  · exact .inr ⟨_, rfl, fun text => by rw [← hCode h9]; rfl⟩
  · exact .inr ⟨_, rfl, fun text => by rw [← hCode h10]; rfl⟩
  · exact .inr ⟨_, rfl, fun text => by rw [← hCode h12]; rfl⟩
  · exact .inr ⟨_, rfl, fun text => by rw [← hCode h13]; rfl⟩
  · exact .inr ⟨_, rfl, fun text => readUnicodeEscape_control hControl text⟩
  · exact .inl ⟨rfl, hQuote, hBackslash, hControl⟩

lemma readString_escaped {c : Char} {text rest : List Char} (h : readEscape text = .ok (c, rest)) :
    readString ('\\' :: text) = (readString rest).map fun read => (c :: read.1, read.2) := by
  rw [readString]
  simp only [Char.reduceEq, if_false, if_true]
  split
  · rename_i hFault
    rw [h] at hFault
    cases hFault
  · rename_i hRead
    rw [h] at hRead
    cases hRead
    cases readString rest <;> rfl

lemma readString_escapeChar (c : Char) (text : List Char) :
    readString (escapeChar c ++ text)
      = (readString text).map fun read => (c :: read.1, read.2) := by
  obtain ⟨hItself, hQuote, hBackslash, hControl⟩ | ⟨tail, hEscaped, hRead⟩ := escapeChar_cases c
  · rw [hItself, List.singleton_append, readString, if_neg hQuote, if_neg hBackslash,
      if_neg hControl]
    cases readString text <;> rfl
  · rw [hEscaped, List.cons_append, readString_escaped (hRead text)]

lemma readString_flatMap (chars rest : List Char) :
    readString (chars.flatMap escapeChar ++ '\x22' :: rest) = .ok (chars, rest) := by
  induction chars with
  | nil =>
    rw [List.flatMap_nil, List.nil_append, readString, if_pos rfl]
  | cons c chars ih =>
    rw [List.flatMap_cons, List.append_assoc, readString_escapeChar, ih]
    rfl

/-! ## The characters of a number -/

/-- A character with which numbers are written, or one of the word for what is no number. -/
def IsNumberChar (c : Char) : Prop :=
  c.isDigit = true ∨ c ∈ ['-', '+', '.', 'e', 'n', 'u', 'l']

instance : DecidablePred IsNumberChar := fun c =>
  inferInstanceAs (Decidable (c.isDigit = true ∨ c ∈ ['-', '+', '.', 'e', 'n', 'u', 'l']))

lemma isNumberChar_of_mem_zeros {count : Nat} {c : Char} (h : c ∈ List.replicate count '0') :
    IsNumberChar c := by
  rw [List.eq_of_mem_replicate h]
  exact .inl rfl

lemma IsNumberChar.ne {c d : Char} (h : IsNumberChar c)
    (hd : d ∈ [' ', '\n', '\t', '\r', '[', ']', '\x7b', '\x7d', ',', ':', '\x22']) : c ≠ d := by
  obtain hDigit | hMark := h
  · have hNone : ∀ d ∈ [' ', '\n', '\t', '\r', '[', ']', '\x7b', '\x7d', ',', ':', '\x22'],
        d.isDigit = false := by
      decide
    exact Text.ne_of_isDigit hDigit (hNone d hd)
  · have hApart : ∀ c ∈ ['-', '+', '.', 'e', 'n', 'u', 'l'],
        ∀ d ∈ [' ', '\n', '\t', '\r', '[', ']', '\x7b', '\x7d', ',', ':', '\x22'], c ≠ d := by
      decide
    exact hApart c hMark d hd

lemma IsNumberChar.isSpace_eq_false {c : Char} (h : IsNumberChar c) : isSpace c = false := by
  simp only [isSpace, Bool.or_eq_false_iff, beq_eq_false_iff_ne]
  exact ⟨⟨⟨h.ne (by decide), h.ne (by decide)⟩, h.ne (by decide)⟩, h.ne (by decide)⟩

section BinaryText

open Binary

variable {digits : List Char}

lemma isNumberChar_positional (hDigits : ∀ c ∈ digits, c.isDigit = true) (leading : Int) :
    ∀ c ∈ positional digits leading, IsNumberChar c := by
  have hAll : ∀ c ∈ digits, IsNumberChar c := fun c hc => .inl (hDigits c hc)
  unfold positional
  dsimp only
  split_ifs
  · simp only [List.forall_mem_append]
    exact ⟨⟨by decide, fun c => isNumberChar_of_mem_zeros⟩, hAll⟩
  · simp only [List.forall_mem_append]
    exact ⟨⟨hAll, fun c => isNumberChar_of_mem_zeros⟩, by decide⟩
  · simp only [List.forall_mem_append, List.forall_mem_cons]
    exact ⟨fun c hc => hAll c (List.mem_of_mem_take hc), by decide,
      fun c hc => hAll c (List.mem_of_mem_drop hc)⟩

lemma isNumberChar_scientific (hDigits : ∀ c ∈ digits, c.isDigit = true) (leading : Int) :
    ∀ c ∈ scientific digits leading, IsNumberChar c := by
  have hAll : ∀ c ∈ digits, IsNumberChar c := fun c hc => .inl (hDigits c hc)
  have hExponent : ∀ c ∈ Text.decimal leading.natAbs, IsNumberChar c := fun c hc =>
    .inl (Text.isDigit_of_mem_decimal hc)
  have hSign : IsNumberChar (if leading < 0 then '-' else '+') := by
    split <;> decide
  unfold scientific
  simp only [List.forall_mem_append, List.forall_mem_cons]
  refine ⟨?_, by decide, hSign, hExponent⟩
  cases digits with
  | nil => exact List.forall_mem_nil _
  | cons d rest =>
    obtain ⟨hFirst, hRest⟩ := List.forall_mem_cons.1 hAll
    cases rest with
    | nil => exact hAll
    | cons e rest => exact List.forall_mem_cons.2 ⟨hFirst, List.forall_mem_cons.2 ⟨by decide, hRest⟩⟩

lemma positional_ne_nil (digits : List Char) (leading : Int) : positional digits leading ≠ [] := by
  unfold positional
  dsimp only
  split_ifs <;> simp

lemma scientific_ne_nil (digits : List Char) (leading : Int) : scientific digits leading ≠ [] :=
  List.append_ne_nil_of_right_ne_nil _ (List.cons_ne_nil _ _)

end BinaryText

lemma jsonText_spec {format : BinaryFormat} (x : Binary format) :
    x.jsonText ≠ [] ∧ ∀ c ∈ x.jsonText, IsNumberChar c := by
  cases x with
  | infinite negative =>
    have hWord : ∀ c ∈ ['n', 'u', 'l', 'l'], IsNumberChar c := by decide
    exact ⟨List.cons_ne_nil _ _, hWord⟩
  | finite negative significand exponent admitted =>
    have hSign : ∀ c ∈ if negative = true then ['-'] else [], IsNumberChar c := by
      cases negative <;> decide
    unfold Binary.jsonText
    dsimp only
    generalize (if negative = true then ['-'] else []) = sign at hSign ⊢
    split
    · exact ⟨List.append_ne_nil_of_right_ne_nil _ (List.cons_ne_nil _ _),
        List.forall_mem_append.2 ⟨hSign, by decide⟩⟩
    · generalize Binary.shortest format significand exponent = shortest
      have hDigits : ∀ c ∈ shortest.leading.1, c.isDigit = true := fun c hc =>
        Text.isDigit_of_mem_decimal ((Text.dropEndWhile_isPrefix _ _).subset hc)
      split
      · exact ⟨List.append_ne_nil_of_right_ne_nil _ (positional_ne_nil _ _),
          List.forall_mem_append.2 ⟨hSign, isNumberChar_positional hDigits _⟩⟩
      · exact ⟨List.append_ne_nil_of_right_ne_nil _ (scientific_ne_nil _ _),
          List.forall_mem_append.2 ⟨hSign, isNumberChar_scientific hDigits _⟩⟩

lemma numberText_spec (n : JsonNumber) :
    numberText n ≠ [] ∧ ∀ c ∈ numberText n, IsNumberChar c := by
  cases n with
  | integer n =>
    have hDigits : ∀ c ∈ Text.decimal n.natAbs, IsNumberChar c := fun c hc =>
      .inl (Text.isDigit_of_mem_decimal hc)
    rw [numberText, Text.integerText]
    split
    · exact ⟨List.cons_ne_nil _ _, List.forall_mem_cons.2 ⟨by decide, hDigits⟩⟩
    · exact ⟨Text.decimal_ne_nil _, hDigits⟩
  | double x => exact jsonText_spec x
  | single x => exact jsonText_spec x

/-! ## Integers and what is behind them -/

lemma endsNumber_nil : EndsNumber [] := by
  rintro c ⟨⟩

lemma endsNumber_cons {c : Char} {rest : List Char}
    (h : (c.isDigit || c == '.' || c == 'e' || c == 'E') = false) : EndsNumber (c :: rest) := by
  simp only [Bool.or_eq_false_iff, beq_eq_false_iff_ne] at h
  rintro d ⟨⟩
  exact ⟨h.1.1.1, h.1.1.2, h.1.2, h.2⟩

lemma skipSpace_cons {c : Char} (tail : List Char) (h : isSpace c = false) :
    skipSpace (c :: tail) = c :: tail := by
  rw [skipSpace, List.dropWhile_cons, if_neg (by rw [h]; exact Bool.false_ne_true)]

/-- A minus sign or a digit begins a number. -/
lemma scanValue_integerText {n : Int} (hLeast : -2 ^ 63 ≤ n) (hGreatest : n < 2 ^ 64) (depth : Nat)
    {rest : List Char} (hRest : EndsNumber rest) :
    scanValue depth (Text.integerText n ++ rest) = .ok (.number (.integer n), rest) := by
  rw [Text.integerText]
  split
  · rename_i hNegative
    have hRead := readNumber_decimal true (n := n.natAbs) (by omega) hRest
    have hZero : ¬ (n.natAbs = 0 || 2 ^ 63 < n.natAbs) = true := by
      simp only [Bool.or_eq_true, decide_eq_true_eq]
      omega
    have hValue : -(n.natAbs : Int) = n := by omega
    rw [List.cons_append, scanValue_eq, skipSpace_cons _ (by decide)]
    simp only [Char.reduceEq, if_false, if_true, hRead, finishInteger, Bool.not_true,
      Bool.false_eq_true, if_neg hZero, hValue]
    rfl
  · rename_i hNegative
    have hRead := readNumber_decimal false (n := n.natAbs) (by omega) hRest
    have hValue : (n.natAbs : Int) = n := by omega
    obtain ⟨c, tail, hText⟩ := List.exists_cons_of_ne_nil (Text.decimal_ne_nil n.natAbs)
    have hDigit : c.isDigit = true :=
      Text.isDigit_of_mem_decimal (n := n.natAbs) (by rw [hText]; exact List.mem_cons_self)
    have hOther {d : Char} (hd : d.isDigit = false) : c ≠ d := Text.ne_of_isDigit hDigit hd
    rw [hText, List.cons_append] at hRead ⊢
    rw [scanValue_eq, skipSpace_cons _ (IsNumberChar.isSpace_eq_false (.inl hDigit))]
    simp only [if_neg (hOther (d := 'n') rfl), if_neg (hOther (d := 't') rfl),
      if_neg (hOther (d := 'f') rfl), if_neg (hOther (d := '-') rfl), if_pos hDigit, hRead,
      finishInteger, Bool.not_false, if_true, hValue]
    rfl

end Json

end PolicyText
