import PolicyText.Calendar.Period
import PolicyText.Proofs.Calendar.Row

/-!
# The text of a period

A period can be written with all three of its amounts, each with a sign of its own (`Period.text`),
and is then read back as it was (`Period.read_text`).
-/

namespace PolicyText

/-! ## Periods -/

namespace Period

lemma contains_int64 (n : Text.Integer32) : Text.IntegerRange.int64.contains n.value = true := by
  have hn := n.contained
  simp only [Text.IntegerRange.contains, Bool.and_eq_true, decide_eq_true_eq] at hn ⊢
  simp only [Text.IntegerRange.int32, Text.IntegerRange.int64] at hn ⊢
  omega

lemma wholeAmount_integerText (n : Text.Integer32) (unit : Char) :
    wholeAmount (Text.integerText n.value) unit = .ok n.value := by
  rw [wholeAmount, Text.readInteger_integerText (by decide) (contains_int64 n)]

lemma narrowed_value (n : Text.Integer32) : narrowed false n.value = .ok n := by
  simp only [narrowed, Bool.false_eq_true, if_false, Text.Bounded.ofInt?_value]

/-- The body of the text of a period: what follows the designator. -/
def body (p : Period) : List Char :=
  Text.integerText p.years.value ++ 'Y' :: (Text.integerText p.months.value ++
    'M' :: (Text.integerText p.days.value ++ ['D']))

/-- The amounts in the text of a period. -/
def amounts (p : Period) : List Amount :=
  [⟨Text.integerText p.years.value, 'Y'⟩, ⟨Text.integerText p.months.value, 'M'⟩,
    ⟨Text.integerText p.days.value, 'D'⟩]

/-- The text of a period: its years, months and days, none of them left out. -/
def text (p : Period) : List Char :=
  'P' :: p.body

lemma readAmounts_body (p : Period) : readAmounts [] p.body = .ok p.amounts := by
  rw [body, readAmounts_integerText _ _ (fun _ => rfl), readAmounts_integerText _ _ (fun _ => rfl),
    readAmounts_integerText _ _ (fun _ => rfl)]
  rfl

lemma total_amounts (p : Period) :
    total none ⟨0, 0, 0⟩ p.amounts = .ok ⟨p.years.value, p.months.value, p.days.value⟩ := by
  have hYears : unitPlace .period units none 'Y' = .ok 0 := rfl
  have hMonths : unitPlace .period units (some 0) 'M' = .ok 1 := rfl
  have hDays : unitPlace .period units (some 1) 'D' = .ok 3 := rfl
  have hAddYears (sum : Sum) (n : Int) : sum.add n 'Y' = .ok { sum with years := n } := rfl
  have hAddMonths (sum : Sum) (n : Int) : sum.add n 'M' = .ok { sum with months := n } := rfl
  have hAddDays (years months : Int) :
      (Sum.mk years months 0).add p.days.value 'D' = .ok ⟨years, months, p.days.value⟩ := by
    have hChecked : checkedDays (0 + p.days.value) = .ok p.days.value := by
      rw [Int.zero_add, checkedDays, if_pos (contains_int64 p.days)]
    rw [Sum.add, if_neg (by decide), if_neg (by decide), if_neg (by decide), hChecked]
  simp only [amounts, total, wholeAmount_integerText, hYears, hMonths, hDays, hAddYears,
    hAddMonths, hAddDays]

lemma read_text (p : Period) : read p.text = .ok p := by
  have hSign : takeSign p.text = (false, p.text) := rfl
  have hBody : takeDesignator p.text = .ok p.body := rfl
  have hAmounts : p.amounts.isEmpty = false := rfl
  simp only [read, hSign, hBody, bind, Except.bind, readAmounts_body, hAmounts, total_amounts,
    Bool.false_eq_true, if_false, narrowed_value]

end Period

end PolicyText
