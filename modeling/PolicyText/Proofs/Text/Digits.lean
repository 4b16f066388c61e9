import Mathlib.Data.List.Basic
import PolicyText.Proofs.Text.Integer
import PolicyText.Text.Utf8

/-!
# Padded decimals and their bytes

A natural number that is padded with zeros to a number of places has exactly so many if it has no
more by itself (`length_paddedDecimal`), and its digits amount to it (`ofDigitChars_paddedDecimal`).
In UTF-8 every digit is one byte (`utf8_digits`).
-/

namespace PolicyText.Text

/-! ## Padded decimals -/

lemma length_paddedDecimal {width n : Nat} (hWidth : 0 < width) (hn : n < 10 ^ width) :
    (paddedDecimal width n).length = width := by
  have hLength : (decimal n).length ≤ width :=
    (Nat.length_toDigits_le_iff (by decide) hWidth).2 hn
  rw [paddedDecimal, List.length_append, List.length_replicate]
  omega

lemma le_length_paddedDecimal (width n : Nat) : width ≤ (paddedDecimal width n).length := by
  rw [paddedDecimal, List.length_append, List.length_replicate]
  omega

lemma isDigit_of_mem_paddedDecimal {width n : Nat} {c : Char} (h : c ∈ paddedDecimal width n) :
    c.isDigit = true := by
  obtain hZero | hDigit := List.mem_append.1 h
  · rw [(List.mem_replicate.1 hZero).2]
    rfl
  · exact isDigit_of_mem_decimal hDigit

lemma paddedDecimal_ne_nil (width n : Nat) : paddedDecimal width n ≠ [] :=
  List.append_ne_nil_of_right_ne_nil _ (decimal_ne_nil n)

@[simp] lemma ofDigitChars_paddedDecimal (width n : Nat) :
    Nat.ofDigitChars 10 (paddedDecimal width n) 0 = n := by
  rw [paddedDecimal, Nat.ofDigitChars_append, Nat.ofDigitChars_replicate_zero, Nat.mul_zero,
    decimal, Nat.ofDigitChars_ten_toDigits]

lemma digitsValue_eq {digits : List Char} (hDigits : ∀ c ∈ digits, c.isDigit = true) :
    digitsValue digits = Nat.ofDigitChars 10 digits 0 := by
  rw [digitsValue, Nat.ofDigitChars_eq_foldl]
  refine List.foldl_ext _ _ _ fun total c hc => ?_
  rw [digitValue?_of_isDigit (hDigits c hc), Option.getD_some, Nat.mul_comm]

/-! ## Bytes -/

lemma utf8_append (front back : List Char) : utf8 (front ++ back) = utf8 front ++ utf8 back :=
  List.flatMap_append

lemma utf8_cons (c : Char) (rest : List Char) : utf8 (c :: rest) = utf8 [c] ++ utf8 rest :=
  utf8_append [c] rest

lemma utf8_digits {digits : List Char} (hDigits : ∀ c ∈ digits, c.isDigit = true) :
    utf8 digits = digits.map fun c => c.val.toUInt8 := by
  induction digits with
  | nil => rfl
  | cons c rest ih =>
    obtain ⟨hc, hRest⟩ := List.forall_mem_cons.1 hDigits
    obtain ⟨-, hNine⟩ := Char.isDigit_iff_toNat.1 hc
    have hSize : c.utf8Size = 1 := by
      rw [Char.utf8Size_eq_one_iff, UInt32.le_iff_toNat_le]
      exact Nat.le_trans hNine (by decide)
    rw [utf8_cons, ih hRest, utf8, List.flatMap_singleton, String.utf8EncodeChar_eq_singleton hSize]
    rfl

end PolicyText.Text
