import PolicyText.Decimal
import PolicyText.Proofs.Text.Digits

/-!
# The text of a decimal

A decimal is read back from its text with all its places (`Decimal.readPlain_text`), also where an
exponent could stand behind it (`Decimal.read_text`).  The digits of the text, with the point taken
out, are those of the coefficient, so that the number that has been read never passes the
coefficient on its way, and there are exactly as many places as the scale says.
-/

namespace PolicyText.Decimal

open Text

variable {negative point digit : Bool}

/-- Digits are read one after the other as long as the value and the places fit. -/
lemma readFrom_digits {digits : List Char} (hDigits : ∀ c ∈ digits, c.isDigit = true)
    {coefficient scale : Nat} (hValue : Nat.ofDigitChars 10 digits coefficient < coefficientBound)
    (hScale : point = true → scale + digits.length ≤ greatestScale) (rest : List Char) :
    readFrom negative point digit coefficient scale (digits ++ rest)
      = readFrom negative point (digit || !digits.isEmpty) (Nat.ofDigitChars 10 digits coefficient)
          (if point then scale + digits.length else scale) rest := by
  induction digits generalizing digit coefficient scale with
  | nil => cases point <;> simp
  | cons c digits ih =>
    obtain ⟨hc, hDigits⟩ := List.forall_mem_cons.1 hDigits
    rw [Nat.ofDigitChars_cons] at hValue ⊢
    rw [List.length_cons] at hScale ⊢
    have hNext : coefficient * 10 + (c.toNat - '0'.toNat) < coefficientBound := by
      have hLe := le_ofDigitChars digits (10 * coefficient + (c.toNat - '0'.toNat))
      omega
    have hPlace : (point && scale == greatestScale) = false := by
      cases point with
      | false => rfl
      | true =>
        have hRoom := hScale rfl
        rw [Bool.true_and, beq_eq_false_iff_ne]
        omega
    rw [List.cons_append, readFrom, hPlace, digitValue?_of_isDigit hc]
    simp only [Bool.false_eq_true, if_false, if_pos hNext]
    rw [Nat.mul_comm coefficient 10] at hNext ⊢
    rw [ih hDigits hValue (fun hPoint => by
      have hRoom := hScale hPoint
      simp only [hPoint, if_true]
      omega)]
    cases point <;> simp; congr 1; omega

lemma finish_parts (d : Decimal) :
    finish (decide (d.coefficient < 0)) d.coefficient.natAbs d.scale = .ok d := by
  have hCoefficient : (if decide (d.coefficient < 0) = true then -(d.coefficient.natAbs : Int)
      else d.coefficient.natAbs) = d.coefficient := by
    by_cases hNegative : d.coefficient < 0 <;>
      simp only [hNegative, decide_true, decide_false, if_true, Bool.false_eq_true, if_false] <;>
      omega
  have hParts : ofParts? (decide (d.coefficient < 0)) d.coefficient.natAbs d.scale = some d := by
    rw [ofParts?, dif_pos ⟨d.coefficient_lt, d.scale_le⟩]
    simp only [hCoefficient]
  rw [finish, hParts]

lemma readPlain_digits {digits : List Char} (hDigits : ∀ c ∈ digits, c.isDigit = true)
    (hSome : digits ≠ []) (rest : List Char) :
    readPlain ((if negative then ['-'] else []) ++ digits ++ rest)
      = readFrom negative false false 0 0 (digits ++ rest) := by
  obtain ⟨c, tail, rfl⟩ := List.exists_cons_of_ne_nil hSome
  cases negative with
  | true => rfl
  | false =>
    obtain ⟨hPlus, hMinus⟩ := not_sign_of_isDigit (hDigits c List.mem_cons_self)
    rw [if_neg Bool.false_ne_true, List.nil_append, List.cons_append]
    unfold readPlain
    split
    · rename_i hEq
      cases hEq
    · rename_i hEq
      exact absurd (List.cons.inj hEq).1 hMinus
    · rename_i hEq
      exact absurd (List.cons.inj hEq).1 hPlus
    · rfl

/-- A decimal is read back from its text. -/
lemma readPlain_text (d : Decimal) : readPlain d.text = .ok d := by
  have hDigits : ∀ c ∈ paddedDecimal (d.scale + 1) d.coefficient.natAbs, c.isDigit = true :=
    fun c hc => isDigit_of_mem_paddedDecimal hc
  have hLength := le_length_paddedDecimal (d.scale + 1) d.coefficient.natAbs
  have hAmount := ofDigitChars_paddedDecimal (d.scale + 1) d.coefficient.natAbs
  rw [text]
  generalize paddedDecimal (d.scale + 1) d.coefficient.natAbs = digits at *
  obtain ⟨whole, places, rfl, hScale⟩ :
      ∃ whole places, digits = whole ++ places ∧ places.length = d.scale :=
    ⟨digits.take (digits.length - d.scale), digits.drop (digits.length - d.scale),
      (List.take_append_drop _ _).symm, by rw [List.length_drop]; omega⟩
  rw [Nat.ofDigitChars_append] at hAmount
  rw [List.length_append] at hLength
  obtain ⟨hWhole, hPlaces⟩ := List.forall_mem_append.1 hDigits
  have hSome : whole ≠ [] := List.length_pos_iff.1 (by omega)
  have hValue : Nat.ofDigitChars 10 whole 0 < coefficientBound := by
    have hLe := le_ofDigitChars places (Nat.ofDigitChars 10 whole 0)
    have hBound := d.coefficient_lt
    omega
  have hCut : (whole ++ places).length - d.scale = whole.length := by
    rw [List.length_append]
    omega
  have hFront := @readPlain_digits (decide (d.coefficient < 0)) _ hWhole hSome
  simp only [hCut, List.take_left, List.drop_left, decide_eq_true_eq] at hFront ⊢
  rw [hFront, readFrom_digits hWhole hValue (fun hPoint => absurd hPoint Bool.false_ne_true),
    List.isEmpty_eq_false_iff.2 hSome]
  cases places with
  | nil =>
    rw [Nat.ofDigitChars_nil] at hAmount
    rw [List.length_nil] at hScale
    rw [hAmount, List.isEmpty_nil, if_pos rfl, readFrom]
    simpa only [hScale, Bool.false_or, Bool.not_false, Bool.false_eq_true, if_true, if_false]
      using d.finish_parts
  | cons c places =>
    have hRoom : 0 + (c :: places).length ≤ greatestScale := by
      rw [hScale, Nat.zero_add]
      exact d.scale_le
    have hBound : Nat.ofDigitChars 10 (c :: places) (Nat.ofDigitChars 10 whole 0)
        < coefficientBound := by
      rw [hAmount]
      exact d.coefficient_lt
    have hRest := @readFrom_digits (decide (d.coefficient < 0)) true true _ hPlaces _ _ hBound
      (fun _ => hRoom) []
    rw [List.append_nil, hAmount, if_pos rfl, hScale, Nat.zero_add] at hRest
    exact hRest.trans d.finish_parts

lemma forall_mem_text (d : Decimal) : ∀ c ∈ d.text, c.isDigit = true ∨ c = '-' ∨ c = '.' := by
  have hDigits : ∀ c ∈ paddedDecimal (d.scale + 1) d.coefficient.natAbs, c.isDigit = true :=
    fun c hc => isDigit_of_mem_paddedDecimal hc
  intro c hc
  simp only [text, List.mem_append] at hc
  obtain (hSign | hWhole) | hPlaces := hc
  · split at hSign
    · exact .inr (.inl (List.mem_singleton.1 hSign))
    · cases hSign
  · exact .inl (hDigits c (List.mem_of_mem_take hWhole))
  · split at hPlaces
    · cases hPlaces
    · obtain rfl | hPlace := List.mem_cons.1 hPlaces
      · exact .inr (.inr rfl)
      · exact .inl (hDigits c (List.mem_of_mem_drop hPlace))

lemma read_text (d : Decimal) : read d.text = .ok d := by
  have hPlain : d.text.any isExponentMark = false := by
    rw [List.any_eq_false]
    intro c hc
    obtain hDigit | rfl | rfl := d.forall_mem_text c hc
    · have hSmall := ne_of_isDigit hDigit (d := 'e') rfl
      have hCapital := ne_of_isDigit hDigit (d := 'E') rfl
      simp [isExponentMark, hSmall, hCapital]
    · decide
    · decide
  rw [read, hPlain, if_neg Bool.false_ne_true, readPlain_text]

end PolicyText.Decimal
