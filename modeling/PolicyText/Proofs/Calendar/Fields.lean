import PolicyText.Calendar.Fields
import PolicyText.Proofs.Text.Digits

/-!
# Reading what components write

Digits are read as the number to which they amount, if there are as many as a component reads at
most or no digit follows (`readDigits_digits`).  From this come the components that stand in the
notations of documents: padded numbers with bounds (`readBounded_padded`), numbers behind a sign
(`readSigned_sign`) and fractions of a second (`readFraction_digits`).
-/

namespace PolicyText

open Text

/-! ## Digits -/

lemma isDigitByte_of_isDigit {c : Char} (h : c.isDigit = true) :
    isDigitByte c.val.toUInt8 = true ∧ c.val.toUInt8.toNat = c.toNat := by
  obtain ⟨hZero, hNine⟩ := Char.isDigit_iff_toNat.1 h
  have hLeast : 48 ≤ c.toNat := hZero
  have hMost : c.toNat ≤ 57 := hNine
  have hNat : c.val.toUInt8.toNat = c.toNat := by
    rw [UInt32.toNat_toUInt8]
    exact Nat.mod_eq_of_lt (by exact Nat.lt_of_le_of_lt hMost (by decide))
  refine ⟨?_, hNat⟩
  rw [isDigitByte, Bool.and_eq_true, decide_eq_true_eq, decide_eq_true_eq,
    UInt8.le_iff_toNat_le, UInt8.le_iff_toNat_le, hNat]
  exact ⟨hLeast, hMost⟩

lemma isDigitByte_of_mem_utf8 {digits : List Char} (hDigits : ∀ c ∈ digits, c.isDigit = true) :
    ∀ b ∈ utf8 digits, isDigitByte b = true := by
  intro b hb
  rw [utf8_digits hDigits] at hb
  obtain ⟨c, hc, rfl⟩ := List.mem_map.1 hb
  exact (isDigitByte_of_isDigit (hDigits c hc)).1

lemma length_utf8_digits {digits : List Char} (hDigits : ∀ c ∈ digits, c.isDigit = true) :
    (utf8 digits).length = digits.length := by
  rw [utf8_digits hDigits, List.length_map]

lemma digitBytesValue_utf8 {digits : List Char} (hDigits : ∀ c ∈ digits, c.isDigit = true) :
    digitBytesValue (utf8 digits) = Nat.ofDigitChars 10 digits 0 := by
  rw [utf8_digits hDigits, digitBytesValue, List.foldl_map, Nat.ofDigitChars_eq_foldl]
  refine List.foldl_ext _ _ _ fun total c hc => ?_
  rw [(isDigitByte_of_isDigit (hDigits c hc)).2, Nat.mul_comm]
  rfl

/-- No digit stands at the beginning of some bytes. -/
def StartsNoDigit (bytes : List UInt8) : Prop :=
  ∀ b ∈ bytes.head?, isDigitByte b = false

lemma takeWhile_take_digits {digits : List Char} {rest : List UInt8} {most : Nat}
    (hDigits : ∀ c ∈ digits, c.isDigit = true) (hMost : digits.length ≤ most)
    (hEnd : digits.length = most ∨ StartsNoDigit rest) :
    ((utf8 digits ++ rest).take most).takeWhile isDigitByte = utf8 digits := by
  have hLength := length_utf8_digits hDigits
  rw [List.take_append, List.take_of_length_le (by rw [hLength]; exact hMost), hLength,
    List.takeWhile_append_of_pos (isDigitByte_of_mem_utf8 hDigits)]
  have hNone : (rest.take (most - digits.length)).takeWhile isDigitByte = [] := by
    obtain hEq | hNoDigit := hEnd
    · rw [hEq, Nat.sub_self, List.take_zero, List.takeWhile_nil]
    · cases rest with
      | nil => rw [List.take_nil, List.takeWhile_nil]
      | cons b rest =>
        cases most - digits.length with
        | zero => rw [List.take_zero, List.takeWhile_nil]
        | succ n =>
          have hb : ¬ isDigitByte b = true := by rw [hNoDigit b rfl]; exact Bool.false_ne_true
          rw [List.take_succ_cons, List.takeWhile_cons_of_neg hb]
  rw [hNone, List.append_nil]

lemma readDigits_digits {digits : List Char} {rest : List UInt8} {least most : Nat}
    (hDigits : ∀ c ∈ digits, c.isDigit = true) (hLeast : least ≤ digits.length)
    (hMost : digits.length ≤ most) (hEnd : digits.length = most ∨ StartsNoDigit rest) :
    readDigits least most (utf8 digits ++ rest) = some (Nat.ofDigitChars 10 digits 0, rest) := by
  have hLength := length_utf8_digits hDigits
  rw [readDigits, takeWhile_take_digits hDigits hMost hEnd]
  simp only [hLength, if_neg (Nat.not_lt.2 hLeast), digitBytesValue_utf8 hDigits]
  rw [← hLength, List.drop_left]

/-! ## Components -/

lemma readPadded_padded {width n : Nat} (hWidth : 0 < width) (hn : n < 10 ^ width)
    (rest : List UInt8) :
    readPadded .zero width (utf8 (paddedDecimal width n) ++ rest) = some (n, rest) := by
  have hLength := length_paddedDecimal hWidth hn
  rw [readPadded, readFilled, readDigits_digits (fun _ hc => isDigit_of_mem_paddedDecimal hc)
    (Nat.le_of_eq hLength.symm) (Nat.le_of_eq hLength) (Or.inl hLength),
    ofDigitChars_paddedDecimal]

lemma readBounded_padded {least most n : Nat} (hLeast : least ≤ n) (hMost : n ≤ most)
    (hn : n < 10 ^ 2) (rest : List UInt8) :
    readBounded .zero 2 least most (utf8 (paddedDecimal 2 n) ++ rest) = some (n, rest) := by
  rw [readBounded, readPadded_padded (by decide) hn]
  simp [Option.filter, hLeast, hMost]

lemma readSign_digits {digits : List Char} (hDigits : ∀ c ∈ digits, c.isDigit = true)
    (hSome : digits ≠ []) (rest : List UInt8) :
    readSign (utf8 digits ++ rest) = (none, utf8 digits ++ rest) := by
  cases hBytes : utf8 digits with
  | nil =>
    have hLength := length_utf8_digits hDigits
    rw [hBytes, List.length_nil] at hLength
    exact absurd (List.length_eq_zero_iff.1 hLength.symm) hSome
  | cons b tail =>
    have hb := isDigitByte_of_mem_utf8 hDigits b (by rw [hBytes]; exact List.mem_cons_self)
    have hPlus : b ≠ 43 := by rintro rfl; cases hb
    have hMinus : b ≠ 45 := by rintro rfl; cases hb
    rw [List.cons_append, readSign, if_neg hPlus, if_neg hMinus]

lemma readSigned_sign {mandatory : Bool} {unsigned signed : List UInt8 → Option (Nat × List UInt8)}
    {bytes rest : List UInt8} {n : Nat} (negative : Bool) (hRead : signed bytes = some (n, rest)) :
    readSigned mandatory unsigned signed (utf8 [if negative then '-' else '+'] ++ bytes)
      = some ((n, negative), rest) := by
  have hSign : readSign (utf8 [if negative then '-' else '+'] ++ bytes)
      = (some negative, bytes) := by
    cases negative <;> rfl
  rw [readSigned, hSign]
  simp only [hRead, Option.map_some]

lemma readFraction_digits {digits : List Char} {rest : List UInt8}
    (hDigits : ∀ c ∈ digits, c.isDigit = true) (hSome : digits ≠ []) (hNine : digits.length ≤ 9)
    (hEnd : StartsNoDigit rest) :
    readFraction none (utf8 digits ++ rest)
      = some (Nat.ofDigitChars 10 digits 0 * 10 ^ (9 - digits.length), rest) := by
  have hLength := length_utf8_digits hDigits
  have hMost : digits.length ≤ maxFractionDigits := Nat.le_trans hNine (by decide)
  have hOne : ¬ digits.length < 1 := Nat.not_lt.2 (List.length_pos_iff.2 hSome)
  have hAll : (utf8 digits).take 9 = utf8 digits :=
    List.take_of_length_le (by rw [hLength]; exact hNine)
  rw [readFraction, Option.getD_none, Option.getD_none,
    takeWhile_take_digits hDigits hMost (Or.inr hEnd)]
  simp only [hLength, if_neg hOne, fractionNanoseconds, hAll, digitBytesValue_utf8 hDigits,
    Nat.min_eq_right hNine]
  rw [← hLength, List.drop_left]

/-! ## Items of a format -/

lemma Fields.readItems_literal (fields : Fields) (c : Char) (bytes : List UInt8)
    (items : List FormatItem) :
    fields.readItems (utf8 [c] ++ bytes) (.literal (utf8 [c]) :: items)
      = fields.readItems bytes items := by
  have hHere : (utf8 [c]).isPrefixOf (utf8 [c] ++ bytes) = true :=
    List.isPrefixOf_iff_prefix.2 (List.prefix_append _ _)
  rw [readItems, if_pos hHere, List.drop_left]

lemma Fields.readItems_component {fields next : Fields} {bytes rest : List UInt8}
    {component : FormatComponent} (h : fields.readComponent bytes component = some (next, rest))
    (items : List FormatItem) :
    fields.readItems bytes (.component component :: items) = next.readItems rest items := by
  rw [readItems, h]

/-- The items of a format are read one after the other, so that a format can be cut anywhere. -/
lemma Fields.readItems_append (fields : Fields) (bytes : List UInt8)
    (items others : List FormatItem) :
    fields.readItems bytes (items ++ others)
      = fields.readItems bytes items >>= fun read => read.1.readItems read.2 others := by
  induction items generalizing fields bytes with
  | nil => rfl
  | cons item items ih =>
    cases item with
    | literal literal =>
      rw [List.cons_append, readItems, readItems]
      split
      · exact ih _ _
      · rfl
    | component component =>
      rw [List.cons_append, readItems, readItems]
      cases fields.readComponent bytes component with
      | none => rfl
      | some read => exact ih _ _

end PolicyText
