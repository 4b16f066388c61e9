import Mathlib.Tactic.Lemma
import Mathlib.Tactic.SplitIfs
import PolicyText.Calendar.Amount
import PolicyText.Proofs.Text.Integer

/-!
# Rows of amounts

Periods and durations are both written as rows of amounts.  `SpellsRow` says how such a row is
written, and the reader of rows is traced in both directions:

* a text is taken apart without losing any of it (`SpellsRow.of_readAmounts`);
* a sign, digits and points before the letter of a unit are the first amount of a row
  (`readAmounts_number`), whatever follows.

What is read of a number is always a numeral (`IsNumeral`): digits and points behind one optional
sign.
-/

namespace PolicyText

open Text

/-! ## Signs and numerals -/

lemma exists_sign (text : List Char) :
    ∃ sign : Sign, text = sign.text ++ (takeSign text).2 ∧
      (takeSign text).1 = decide (sign = .minus) := by
  unfold takeSign
  split
  · exact ⟨.minus, rfl, rfl⟩
  · exact ⟨.plus, rfl, rfl⟩
  · exact ⟨.absent, rfl, rfl⟩

lemma takeSign_append (sign : Sign) {c : Char} {rest : List Char} (hPlus : c ≠ '+')
    (hMinus : c ≠ '-') :
    takeSign (sign.text ++ c :: rest) = (decide (sign = .minus), c :: rest) := by
  cases sign with
  | plus => rfl
  | minus => rfl
  | absent =>
    rw [Sign.text, List.nil_append, takeSign]
    · rfl
    · exact fun _ hEq => hMinus (List.cons.inj hEq).1
    · exact fun _ hEq => hPlus (List.cons.inj hEq).1

lemma takeDesignator_eq_ok {text body : List Char} (h : takeDesignator text = .ok body) :
    ∃ designator, (designator = 'P' ∨ designator = 'p') ∧ text = designator :: body := by
  unfold takeDesignator at h
  split at h
  · cases h
    exact ⟨'P', Or.inl rfl, rfl⟩
  · cases h
    exact ⟨'p', Or.inr rfl, rfl⟩
  · cases h

/-- Digits and points behind an optional sign. -/
def IsNumeral (number : List Char) : Prop :=
  ∀ c ∈ (takeSign number).2, c.isDigit = true ∨ c = '.'

lemma isNumeral_nil : IsNumeral [] :=
  List.forall_mem_nil _

/-- A number that goes on is still digits and points behind a sign. -/
lemma IsNumeral.append {number : List Char} (h : IsNumeral number) {c : Char}
    (hc : continuesNumber number c = true) : IsNumeral (number ++ [c]) := by
  simp only [continuesNumber, Bool.or_eq_true, Bool.and_eq_true, beq_iff_eq] at hc
  by_cases hNumber : number = []
  · subst hNumber
    obtain (hDigit | rfl) | ⟨rfl | rfl, -⟩ := hc
    · obtain ⟨hPlus, hMinus⟩ := not_sign_of_isDigit hDigit
      intro d hd
      rw [List.nil_append, takeSign] at hd
      · rw [List.mem_singleton.1 hd]
        exact Or.inl hDigit
      · exact fun _ hEq => hMinus (List.cons.inj hEq).1
      · exact fun _ hEq => hPlus (List.cons.inj hEq).1
    · exact List.forall_mem_singleton.2 (Or.inr rfl)
    · exact List.forall_mem_nil _
    · exact List.forall_mem_nil _
  · obtain hc | ⟨-, hEmpty⟩ := hc
    · -- The sign of the longer text is that of the shorter one.
      have hSign : (takeSign (number ++ [c])).2 = (takeSign number).2 ++ [c] := by
        obtain ⟨d, rest, rfl⟩ := List.exists_cons_of_ne_nil hNumber
        by_cases hMinus : d = '-'
        · subst hMinus; rfl
        · by_cases hPlus : d = '+'
          · subst hPlus; rfl
          · rw [List.cons_append, takeSign, takeSign] <;> simp [hMinus, hPlus]
      intro d hd
      rw [hSign, List.mem_append, List.mem_singleton] at hd
      obtain hd | rfl := hd
      · exact h d hd
      · exact hc
    · exact absurd (List.isEmpty_iff.1 hEmpty) hNumber

/-! ## Rows of amounts -/

/-- A row of amounts as it is written: each number stands before a letter that names its unit. -/
inductive SpellsRow : List Amount → List Char → Prop
  /-- No amounts are an empty text. -/
  | nil : SpellsRow [] []
  /-- An amount stands before the others. -/
  | cons {number : List Char} {amounts : List Amount} {text : List Char} (letter : Char)
      (numeral : IsNumeral number) (row : SpellsRow amounts text) :
      SpellsRow (⟨number, letter.toUpper⟩ :: amounts) (number ++ letter :: text)

lemma SpellsRow.of_readAmounts_append {number text : List Char} {amounts : List Amount}
    (hNumber : IsNumeral number) (h : readAmounts number text = .ok amounts) :
    SpellsRow amounts (number ++ text) := by
  fun_induction readAmounts number text generalizing amounts with
  | case1 number hEmpty =>
    cases h
    rw [List.isEmpty_iff.1 hEmpty]
    exact .nil
  | case2 => cases h
  | case3 number c rest hc ih =>
    have hRow := ih (hNumber.append hc) h
    rwa [List.append_assoc, List.singleton_append] at hRow
  | case4 => cases h
  | case5 number c rest _ _ others hOthers ih =>
    cases h
    exact .cons c hNumber (ih isNumeral_nil hOthers)
  | case6 => cases h

lemma SpellsRow.of_readAmounts {text : List Char} {amounts : List Amount}
    (h : readAmounts [] text = .ok amounts) : SpellsRow amounts text :=
  of_readAmounts_append isNumeral_nil h

/-! ## The first amount of a row -/

lemma continuesNumber_of_digitOrPoint (number : List Char) {c : Char}
    (h : c.isDigit = true ∨ c = '.') : continuesNumber number c = true := by
  obtain h | rfl := h
  · rw [continuesNumber, h, Bool.true_or, Bool.true_or]
  · rfl

lemma readAmounts_append {run : List Char} (hRun : ∀ c ∈ run, c.isDigit = true ∨ c = '.')
    (number rest : List Char) :
    readAmounts number (run ++ rest) = readAmounts (number ++ run) rest := by
  induction run generalizing number with
  | nil => rw [List.nil_append, List.append_nil]
  | cons c run ih =>
    have hc := continuesNumber_of_digitOrPoint number (hRun c List.mem_cons_self)
    rw [List.cons_append, readAmounts, if_pos hc,
      ih (fun d hd => hRun d (List.mem_cons_of_mem _ hd)), List.append_assoc,
      List.singleton_append]

lemma readAmounts_sign (sign : Sign) (rest : List Char) :
    readAmounts [] (sign.text ++ rest) = readAmounts sign.text rest := by
  cases sign <;> rfl

lemma isBareSign_append (sign : Sign) {run : List Char}
    (hRun : ∀ c ∈ run, c.isDigit = true ∨ c = '.') (hNonempty : run ≠ []) :
    isBareSign (sign.text ++ run) = false := by
  obtain ⟨c, rest, rfl⟩ := List.exists_cons_of_ne_nil hNonempty
  have hc : c ≠ '+' ∧ c ≠ '-' := by
    obtain hDigit | rfl := hRun c List.mem_cons_self
    · exact not_sign_of_isDigit hDigit
    · decide
  cases sign <;> simp [isBareSign, Sign.text, hc.1, hc.2]

lemma readAmounts_number (sign : Sign) {run : List Char}
    (hRun : ∀ c ∈ run, c.isDigit = true ∨ c = '.') (hNonempty : run ≠ []) {letter : Char}
    (hLetter : ∀ number, continuesNumber number letter = false) (rest : List Char) :
    readAmounts [] (sign.text ++ run ++ letter :: rest)
      = (readAmounts [] rest).map (⟨sign.text ++ run, letter.toUpper⟩ :: ·) := by
  rw [List.append_assoc, readAmounts_sign, readAmounts_append hRun, readAmounts, hLetter,
    isBareSign_append sign hRun hNonempty]
  simp only [Bool.false_eq_true, if_false]
  cases readAmounts [] rest <;> rfl

lemma toUpper_of_continuesNumber {number : List Char} {c : Char}
    (h : continuesNumber number c = true) : c.toUpper = c := by
  simp only [continuesNumber, Bool.or_eq_true, Bool.and_eq_true, beq_iff_eq] at h
  obtain (hDigit | rfl) | ⟨rfl | rfl, -⟩ := h
  · obtain ⟨-, hNine⟩ := Char.isDigit_iff_toNat.1 hDigit
    have hLower : ¬ 'a'.val ≤ c.val := by
      rw [UInt32.le_iff_toNat_le]
      exact Nat.not_le.2 (Nat.lt_of_le_of_lt hNine (by decide))
    exact dif_neg fun h => hLower h.1
  · rfl
  · rfl
  · rfl

lemma not_continuesNumber_of_toUpper {letter unit : Char} (h : letter.toUpper = unit)
    (hUnit : ∀ number, continuesNumber number unit = false) (number : List Char) :
    continuesNumber number letter = false := by
  refine Bool.eq_false_iff.2 fun hLetter => ?_
  rw [toUpper_of_continuesNumber hLetter] at h
  rw [h, hUnit] at hLetter
  cases hLetter

lemma readAmounts_integerText (n : Int) {unit : Char} (rest : List Char)
    (hUnit : ∀ number, continuesNumber number unit = false) :
    readAmounts [] (Text.integerText n ++ unit :: rest)
      = (readAmounts [] rest).map (⟨Text.integerText n, unit.toUpper⟩ :: ·) := by
  have hDigits : ∀ c ∈ decimal n.natAbs, c.isDigit = true ∨ c = '.' :=
    fun c hc => Or.inl (isDigit_of_mem_decimal hc)
  rw [integerText]
  split
  · exact readAmounts_number .minus hDigits (decimal_ne_nil _) hUnit rest
  · exact readAmounts_number .absent hDigits (decimal_ne_nil _) hUnit rest

/-! ## The order of units -/

lemma unitPlace_eq_ok {kind : SpanKind} {order : List Char} {last : Option Nat} {unit : Char}
    {place : Nat} (h : unitPlace kind order last unit = .ok place) :
    order[place]? = some unit ∧ last.elim 0 (· + 1) ≤ place := by
  rw [unitPlace] at h
  split at h
  · cases h
  · rename_i found hFound
    split_ifs at h with hBehind
    cases h
    obtain ⟨hBound, hUnit, -⟩ := List.findIdx?_eq_some_iff_getElem.1 hFound
    refine ⟨List.getElem?_eq_some_iff.2 ⟨hBound, beq_iff_eq.1 hUnit⟩, ?_⟩
    cases last with
    | none => exact Nat.zero_le _
    | some previous =>
      rw [Option.any_some, decide_eq_true_eq, Nat.not_le] at hBehind
      exact hBehind

lemma unitPlace_of_findIdx? {kind : SpanKind} {order : List Char} {last : Option Nat} {unit : Char}
    {place : Nat} (hFound : order.findIdx? (· == unit) = some place)
    (hLast : last.elim 0 (· + 1) ≤ place) : unitPlace kind order last unit = .ok place := by
  rw [unitPlace, hFound]
  cases last with
  | none => rfl
  | some previous =>
    have hBehind : ¬ place ≤ previous := Nat.not_le.2 hLast
    simp only [Option.any_some, hBehind, decide_false, Bool.false_eq_true, if_false]

end PolicyText
