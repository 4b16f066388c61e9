import Mathlib.Tactic.Lemma
import PolicyText.Text.Integer

/-!
# Reading the text of an integer

The text of an integer is read back as that integer by every range that contains it and zero
(`readInteger_integerText`, `readBounded_integerText`).  A reader of digits stops as soon as the
value leaves the range; since digits only take a value further away from zero, it does not stop
early in a text whose value as a whole is in the range (`appendDigits_of_contains`).  Whatever is
read at all is a sign and digits, and the integer is their value (`readInteger_eq_ok`); a sign and
digits are read exactly if their value is in the range (`readInteger_sign_append_eq_ok`).
-/

namespace PolicyText.Text

/-- A natural number with a sign. -/
def signed (negative : Bool) (n : Nat) : Int :=
  if negative then -n else n

lemma signed_append (negative : Bool) (n d : Nat) :
    (if negative then signed negative n * 10 - (d : Int) else signed negative n * 10 + (d : Int))
      = signed negative (10 * n + d) := by
  cases negative <;> simp only [signed, if_true, Bool.false_eq_true, if_false] <;> omega

lemma digitValue?_of_isDigit {c : Char} (h : c.isDigit = true) :
    digitValue? c = some (c.toNat - '0'.toNat) := by
  rw [digitValue?, if_pos h]

lemma le_ofDigitChars (digits : List Char) (init : Nat) :
    init ≤ Nat.ofDigitChars 10 digits init := by
  induction digits generalizing init with
  | nil => simp
  | cons c digits ih =>
    rw [Nat.ofDigitChars_cons]
    have hNext := ih (10 * init + (c.toNat - '0'.toNat))
    omega

/-- Digits are read to their end if the value that they amount to is in the range. -/
lemma appendDigits_of_contains {range : IntegerRange} {negative : Bool} {digits : List Char}
    (hDigits : ∀ c ∈ digits, c.isDigit = true) (hZero : range.contains 0 = true) (init : Nat)
    (hValue : range.contains (signed negative (Nat.ofDigitChars 10 digits init)) = true) :
    appendDigits range negative (signed negative init) digits
      = .ok (signed negative (Nat.ofDigitChars 10 digits init)) := by
  induction digits generalizing init with
  | nil => rw [appendDigits, Nat.ofDigitChars_nil]
  | cons c digits ih =>
    have hc : c.isDigit = true := hDigits c (by simp)
    have hRest : ∀ d ∈ digits, d.isDigit = true := fun d hd => hDigits d (by simp [hd])
    rw [Nat.ofDigitChars_cons] at hValue ⊢
    have hNext := ih hRest _ hValue
    have hLe := le_ofDigitChars digits (10 * init + (c.toNat - '0'.toNat))
    simp only [IntegerRange.contains, Bool.and_eq_true, decide_eq_true_eq] at hZero hValue
    have hLeast : ¬ signed negative (10 * init + (c.toNat - '0'.toNat)) < range.least := by
      cases negative <;> simp only [signed, if_true, Bool.false_eq_true, if_false] at hValue ⊢ <;>
        omega
    have hGreatest : ¬ range.greatest < signed negative (10 * init + (c.toNat - '0'.toNat)) := by
      cases negative <;> simp only [signed, if_true, Bool.false_eq_true, if_false] at hValue ⊢ <;>
        omega
    simp only [appendDigits, digitValue?_of_isDigit hc, signed_append, if_neg hLeast,
      if_neg hGreatest]
    exact hNext

lemma appendDigits_eq_ok {range : IntegerRange} {negative : Bool} {digits : List Char} {n : Int}
    (init : Nat) (h : appendDigits range negative (signed negative init) digits = .ok n) :
    (∀ c ∈ digits, c.isDigit = true) ∧ n = signed negative (Nat.ofDigitChars 10 digits init) := by
  induction digits generalizing init with
  | nil =>
    cases h
    exact ⟨List.forall_mem_nil _, by rw [Nat.ofDigitChars_nil]⟩
  | cons c digits ih =>
    by_cases hc : c.isDigit = true
    · simp only [appendDigits, digitValue?_of_isDigit hc, signed_append] at h
      split at h
      · cases h
      · split at h
        · cases h
        · obtain ⟨hDigits, hValue⟩ := ih _ h
          exact ⟨List.forall_mem_cons.2 ⟨hc, hDigits⟩, by rw [hValue, Nat.ofDigitChars_cons]⟩
    · rw [appendDigits, digitValue?, if_neg hc] at h
      cases h

lemma contains_of_appendDigits {range : IntegerRange} {negative : Bool} {init n : Int}
    {digits : List Char} (hInit : range.contains init = true)
    (h : appendDigits range negative init digits = .ok n) : range.contains n = true := by
  fun_induction appendDigits range negative init digits with
  | case1 =>
    cases h
    exact hInit
  | case2 => cases h
  | case3 => cases h
  | case4 => cases h
  | case5 total c rest d hd next hLeast hGreatest ih =>
    refine ih ?_ h
    rw [IntegerRange.contains, Bool.and_eq_true, decide_eq_true_eq, decide_eq_true_eq]
    exact ⟨Int.not_lt.1 hLeast, Int.not_lt.1 hGreatest⟩

/-- A sign before a number. -/
inductive Sign where
  | absent
  | plus
  | minus
  deriving DecidableEq, Repr

/-- A sign as it is written. -/
def Sign.text : Sign → List Char
  | .absent => []
  | .plus => ['+']
  | .minus => ['-']

/-- A number with a sign before it. -/
def Sign.apply : Sign → Int → Int
  | .minus, n => -n
  | _, n => n

lemma Sign.ite_minus (sign : Sign) (n : Int) :
    (if decide (sign = .minus) then -n else n) = sign.apply n := by
  cases sign <;> rfl

lemma Sign.apply_mul (sign : Sign) (n k : Int) : sign.apply n * k = sign.apply (n * k) := by
  cases sign with
  | minus => exact Int.neg_mul n k
  | _ => rfl

/-- A number that is read is a sign and at least one digit. -/
lemma readInteger_eq_ok {range : IntegerRange} {text : List Char} {n : Int}
    (h : readInteger range text = .ok n) :
    ∃ (sign : Sign) (digits : List Char), text = sign.text ++ digits ∧ digits ≠ [] ∧
      (∀ c ∈ digits, c.isDigit = true) ∧ n = sign.apply (Nat.ofDigitChars 10 digits 0) := by
  unfold readInteger at h
  split at h
  · cases h
  · split at h
    · cases h
    · rename_i digits hEmpty
      obtain ⟨hDigits, hValue⟩ := appendDigits_eq_ok 0 h
      exact ⟨.plus, digits, rfl, mt List.isEmpty_iff.2 hEmpty, hDigits, hValue⟩
  · split at h
    · cases h
    · rename_i digits hEmpty
      rw [Bool.or_eq_true, not_or] at hEmpty
      obtain ⟨hDigits, hValue⟩ := appendDigits_eq_ok 0 h
      exact ⟨.minus, digits, rfl, mt List.isEmpty_iff.2 hEmpty.1, hDigits, hValue⟩
  · rename_i hText hPlus hMinus
    obtain ⟨hDigits, hValue⟩ := appendDigits_eq_ok 0 h
    exact ⟨.absent, text, rfl, hText, hDigits, hValue⟩

lemma isDigit_of_mem_decimal {n : Nat} {c : Char} (h : c ∈ decimal n) : c.isDigit = true :=
  Nat.isDigit_of_mem_toDigits (by omega) (by omega) h

lemma decimal_ne_nil (n : Nat) : decimal n ≠ [] :=
  Nat.toDigits_ne_nil

lemma ne_of_isDigit {c d : Char} (hDigit : c.isDigit = true) (hOther : d.isDigit = false) :
    c ≠ d := by
  rintro rfl
  rw [hDigit] at hOther
  cases hOther

lemma not_sign_of_isDigit {c : Char} (h : c.isDigit = true) : c ≠ '+' ∧ c ≠ '-' :=
  ⟨ne_of_isDigit h rfl, ne_of_isDigit h rfl⟩

lemma readInteger_digit {range : IntegerRange} {c : Char} {rest : List Char}
    (h : c.isDigit = true) :
    readInteger range (c :: rest) = appendDigits range false 0 (c :: rest) := by
  obtain ⟨hPlus, hMinus⟩ := not_sign_of_isDigit h
  unfold readInteger
  split
  · rename_i hEq
    cases hEq
  · rename_i hEq
    exact absurd (List.cons.inj hEq).1 hPlus
  · rename_i hEq
    exact absurd (List.cons.inj hEq).1 hMinus
  · rfl

lemma readInteger_sign_append {range : IntegerRange} (sign : Sign) {digits : List Char}
    (hDigits : ∀ c ∈ digits, c.isDigit = true) (hNonempty : digits ≠ [])
    (hLeast : sign = .minus → range.least < 0) :
    readInteger range (sign.text ++ digits)
      = appendDigits range (decide (sign = .minus)) 0 digits := by
  have hEmpty : digits.isEmpty = false := List.isEmpty_eq_false_iff.2 hNonempty
  cases sign with
  | absent =>
    obtain ⟨c, rest, rfl⟩ := List.exists_cons_of_ne_nil hNonempty
    exact readInteger_digit (hDigits c List.mem_cons_self)
  | plus =>
    rw [Sign.text, List.singleton_append, readInteger, hEmpty, if_neg Bool.false_ne_true]
    rfl
  | minus =>
    have hNegative : ¬ 0 ≤ range.least := Int.not_le.2 (hLeast rfl)
    rw [Sign.text, List.singleton_append, readInteger, hEmpty, Bool.false_or,
      decide_eq_false hNegative, if_neg Bool.false_ne_true]
    rfl

lemma signed_decide (sign : Sign) (n : Nat) : signed (decide (sign = .minus)) n = sign.apply n := by
  cases sign <;> rfl

/-- A sign and digits are read as their value exactly if it is in the range. -/
lemma readInteger_sign_append_eq_ok {range : IntegerRange} (sign : Sign) {digits : List Char}
    {n : Int} (hDigits : ∀ c ∈ digits, c.isDigit = true) (hNonempty : digits ≠ [])
    (hZero : range.contains 0 = true) (hLeast : sign = .minus → range.least < 0) :
    readInteger range (sign.text ++ digits) = .ok n ↔
      range.contains n = true ∧ n = sign.apply (Nat.ofDigitChars 10 digits 0 : Nat) := by
  have hInit : (0 : Int) = signed (decide (sign = .minus)) 0 := by cases sign <;> rfl
  rw [readInteger_sign_append sign hDigits hNonempty hLeast, ← signed_decide]
  constructor
  · intro h
    refine ⟨contains_of_appendDigits hZero h, ?_⟩
    rw [hInit] at h
    exact (appendDigits_eq_ok 0 h).2
  · rintro ⟨hn, rfl⟩
    have hRead := appendDigits_of_contains hDigits hZero 0 hn
    rwa [← hInit] at hRead

/-- Digits with or without a minus sign are read as the number with that sign.  The sign of zero is
lost. -/
lemma readInteger_signed {range : IntegerRange} {negative : Bool} {n : Nat}
    (hZero : range.contains 0 = true) (hn : range.contains (signed negative n) = true)
    (hLeast : negative = true → range.least < 0) :
    readInteger range ((if negative then ['-'] else []) ++ decimal n)
      = .ok (signed negative n) := by
  have hDigits : ∀ c ∈ decimal n, c.isDigit = true := fun c hc => isDigit_of_mem_decimal hc
  have hAmount : Nat.ofDigitChars 10 (decimal n) 0 = n := Nat.ofDigitChars_ten_toDigits
  cases negative with
  | true =>
    refine (readInteger_sign_append_eq_ok .minus hDigits (decimal_ne_nil n) hZero
      fun _ => hLeast rfl).2 ⟨hn, ?_⟩
    rw [hAmount]
    rfl
  | false =>
    refine (readInteger_sign_append_eq_ok .absent hDigits (decimal_ne_nil n) hZero nofun).2
      ⟨hn, ?_⟩
    rw [hAmount]
    rfl

lemma readInteger_integerText {range : IntegerRange} {n : Int} (hZero : range.contains 0 = true)
    (hn : range.contains n = true) : readInteger range (integerText n) = .ok n := by
  have hValue : signed (decide (n < 0)) n.natAbs = n := by
    by_cases hNegative : n < 0 <;> simp only [signed, hNegative, decide_true, decide_false, if_true,
      Bool.false_eq_true, if_false] <;> omega
  have hLeast : decide (n < 0) = true → range.least < 0 := by
    simp only [IntegerRange.contains, Bool.and_eq_true, decide_eq_true_eq] at hn ⊢
    omega
  have hRead := @readInteger_signed range (decide (n < 0)) n.natAbs hZero (by rwa [hValue]) hLeast
  have hText : integerText n = (if decide (n < 0) then ['-'] else []) ++ decimal n.natAbs := by
    by_cases hNegative : n < 0 <;> simp [integerText, hNegative]
  rw [hText, hRead, hValue]

lemma readBounded_integerText {range : IntegerRange} (hZero : range.contains 0 = true)
    (n : Bounded range) : readBounded range (integerText n.value) = .ok n := by
  rw [readBounded, readInteger_integerText hZero n.contained]
  simp only [Bounded.ofInt?_value]

end PolicyText.Text
