import PolicyText.Proofs.Calendar.Period
import PolicyText.Proofs.Outcome
import PolicyText.Proofs.Text.Digits

/-!
# What the text of a period amounts to

`PeriodText` is the text of a period taken apart: a sign, a `P`, and an amount for each of the four
units or none.  What it amounts to is said of it without a reader, and so is whether all of it fits
(`PeriodText.Fits`).

A text that is so written is read by going through its amounts one by one; a unit that is left out
adds nothing, so that every text takes the same four steps (`Period.total_optional`).  For the
converse the units are taken off a row of amounts from the first to the last, each of them present
or not (`SpellsRow.exists_optional`), until there is nothing left that could come.

Main statement: `Period.read_eq_ok_iff`, the texts that are periods and what they amount to.
-/

namespace PolicyText

open Text

/-! ## The text of a period -/

/-- The units of a period. -/
inductive PeriodUnit where
  | year
  | month
  | week
  | day
  deriving DecidableEq, Repr

namespace PeriodUnit

/-- The letter of a unit. -/
def letter : PeriodUnit → Char
  | .year => 'Y'
  | .month => 'M'
  | .week => 'W'
  | .day => 'D'

/-- The place of a unit in the order of units. -/
def place : PeriodUnit → Nat
  | .year => 0
  | .month => 1
  | .week => 2
  | .day => 3

end PeriodUnit

/-- Digits behind an optional sign, before the letter of a unit in either case. -/
structure PeriodAmount (unit : PeriodUnit) where
  sign : Sign
  digits : List Char
  letter : Char
  numeric : ∀ c ∈ digits, c.isDigit = true
  nonempty : digits ≠ []
  names : letter.toUpper = unit.letter

namespace PeriodAmount

variable {unit : PeriodUnit}

/-- An amount as it is written. -/
def text (amount : PeriodAmount unit) : List Char :=
  amount.sign.text ++ amount.digits ++ [amount.letter]

/-- The number of an amount. -/
def value (amount : PeriodAmount unit) : Int :=
  amount.sign.apply (digitsValue amount.digits)

/-- An amount as the reader of rows finds it. -/
def toAmount (amount : PeriodAmount unit) : Amount :=
  ⟨amount.sign.text ++ amount.digits, unit.letter⟩

/-- An amount as it is written, or nothing. -/
def optionText (amount : Option (PeriodAmount unit)) : List Char :=
  amount.elim [] text

/-- The number of an amount, zero where there is none. -/
def optionValue (amount : Option (PeriodAmount unit)) : Int :=
  amount.elim 0 value

/-- The amounts that the reader of rows finds. -/
def optionAmounts (amount : Option (PeriodAmount unit)) : List Amount :=
  amount.toList.map toAmount

/-- The place up to which units have been read. -/
def lastPlace (last : Option Nat) (amount : Option (PeriodAmount unit)) : Option Nat :=
  amount.elim last fun _ => some unit.place

end PeriodAmount

open PeriodAmount (optionText optionValue optionAmounts lastPlace)

/-- The text of a period taken apart: a sign, a `P`, and the amounts in their order, each of which
can be left out. -/
structure PeriodText where
  sign : Sign
  designator : Char
  years : Option (PeriodAmount .year)
  months : Option (PeriodAmount .month)
  weeks : Option (PeriodAmount .week)
  days : Option (PeriodAmount .day)
  designates : designator = 'P' ∨ designator = 'p'
  nonempty : years.isSome || months.isSome || weeks.isSome || days.isSome

namespace PeriodText

/-- The amounts as they are written. -/
def body (written : PeriodText) : List Char :=
  optionText written.years ++
    (optionText written.months ++ (optionText written.weeks ++ optionText written.days))

/-- A period as it is written. -/
def text (written : PeriodText) : List Char :=
  written.sign.text ++ written.designator :: written.body

/-- The amounts as the reader of rows finds them. -/
def amounts (written : PeriodText) : List Amount :=
  optionAmounts written.years ++
    (optionAmounts written.months ++ (optionAmounts written.weeks ++ optionAmounts written.days))

/-- The days and the days of the weeks. -/
def daysValue (written : PeriodText) : Int :=
  7 * optionValue written.weeks + optionValue written.days

/-- Every amount has 64 bits, and so have the days of the weeks alone and with the other days. -/
structure AddsUp (written : PeriodText) : Prop where
  years : IntegerRange.int64.contains (optionValue written.years) = true
  months : IntegerRange.int64.contains (optionValue written.months) = true
  weeks : IntegerRange.int64.contains (optionValue written.weeks) = true
  days : IntegerRange.int64.contains (optionValue written.days) = true
  daysOfWeeks : IntegerRange.int64.contains (7 * optionValue written.weeks) = true
  allDays : IntegerRange.int64.contains written.daysValue = true

/-- The amounts add up, and the sums with the sign of the whole have 32 bits. -/
structure Fits (written : PeriodText) : Prop extends AddsUp written where
  narrowYears : IntegerRange.int32.contains (written.sign.apply (optionValue written.years)) = true
  narrowMonths :
    IntegerRange.int32.contains (written.sign.apply (optionValue written.months)) = true
  narrowDays : IntegerRange.int32.contains (written.sign.apply written.daysValue) = true

end PeriodText

/-! ## Reading the amounts of a text -/

namespace PeriodUnit

lemma not_continuesNumber (unit : PeriodUnit) (number : List Char) :
    continuesNumber number unit.letter = false := by
  cases unit <;> rfl

lemma letter_injective : Function.Injective letter := by
  intro unit other h
  cases unit <;> cases other <;> first | rfl | cases h

lemma place_injective : Function.Injective place := by
  intro unit other h
  cases unit <;> cases other <;> first | rfl | cases h

lemma findIdx?_units (unit : PeriodUnit) :
    Period.units.findIdx? (· == unit.letter) = some unit.place := by
  cases unit <;> rfl

lemma exists_of_units {place : Nat} {letter : Char} (h : Period.units[place]? = some letter) :
    ∃ unit : PeriodUnit, unit.place = place ∧ letter = unit.letter := by
  match place, h with
  | 0, h => exact ⟨.year, rfl, (Option.some.inj h).symm⟩
  | 1, h => exact ⟨.month, rfl, (Option.some.inj h).symm⟩
  | 2, h => exact ⟨.week, rfl, (Option.some.inj h).symm⟩
  | 3, h => exact ⟨.day, rfl, (Option.some.inj h).symm⟩

end PeriodUnit

namespace PeriodAmount

variable {unit : PeriodUnit}

lemma readAmounts_optionText (amount : Option (PeriodAmount unit)) (rest : List Char) :
    readAmounts [] (optionText amount ++ rest)
      = (readAmounts [] rest).map (optionAmounts amount ++ ·) := by
  cases amount with
  | none =>
    have hId : ([] ++ · : List Amount → List Amount) = id := funext List.nil_append
    rw [optionText, Option.elim_none, List.nil_append, optionAmounts, Option.toList_none,
      List.map_nil, hId, Except.map_id]
    rfl
  | some amount =>
    have hLetter := not_continuesNumber_of_toUpper amount.names unit.not_continuesNumber
    rw [optionText, Option.elim_some, text, List.append_assoc, List.singleton_append,
      readAmounts_number amount.sign (fun c hc => Or.inl (amount.numeric c hc)) amount.nonempty
        hLetter rest, amount.names]
    rfl

/-- The number of an amount is read exactly if it has 64 bits. -/
lemma wholeAmount_eq_ok (amount : PeriodAmount unit) {n : Int} :
    wholeAmount amount.toAmount.number unit.letter = .ok n ↔
      IntegerRange.int64.contains amount.value = true ∧ n = amount.value := by
  have hRead : readInteger .int64 _ = .ok n ↔ _ := readInteger_sign_append_eq_ok amount.sign
    amount.numeric amount.nonempty (by decide) (fun _ => by decide)
  rw [← digitsValue_eq amount.numeric] at hRead
  rw [wholeAmount, toAmount]
  constructor
  · intro h
    split at h
    · rename_i k hk
      cases h
      obtain ⟨hContains, hValue⟩ := hRead.1 hk
      rw [hValue] at hContains
      exact ⟨hContains, hValue⟩
    · cases h
  · rintro ⟨hContains, rfl⟩
    simp only [hRead.2 ⟨hContains, rfl⟩]

end PeriodAmount

namespace Period

lemma checkedDays_eq_ok {days checked : Int} :
    checkedDays days = .ok checked ↔
      IntegerRange.int64.contains days = true ∧ checked = days := by
  rw [checkedDays]
  split_ifs with h
  · simp only [Except.ok.injEq, h, true_and, eq_comm]
  · simp [h]

/-- Weeks are added as seven days each. -/
lemma Sum.add_week {years months n : Int} {sum : Sum} :
    (Sum.mk years months 0).add n 'W' = .ok sum ↔
      IntegerRange.int64.contains (7 * n) = true ∧ sum = ⟨years, months, 7 * n⟩ := by
  have hAdd : (Sum.mk years months 0).add n 'W' =
      (checkedDays (n * 7)).bind fun week =>
        (checkedDays (0 + week)).bind fun days => .ok ⟨years, months, days⟩ := by
    rw [Sum.add, if_neg (by decide), if_neg (by decide), if_pos rfl]
    cases checkedDays (n * 7) with
    | error fault => rfl
    | ok week => cases hDays : checkedDays (0 + week) <;> simp only [hDays, Except.bind]
  rw [hAdd, Int.mul_comm n 7]
  constructor
  · intro h
    obtain ⟨week, hWeek, h⟩ := Except.bind_eq_ok.1 h
    obtain ⟨days, hDays, h⟩ := Except.bind_eq_ok.1 h
    obtain ⟨hContains, rfl⟩ := checkedDays_eq_ok.1 hWeek
    obtain ⟨-, rfl⟩ := checkedDays_eq_ok.1 hDays
    rw [Int.zero_add] at h
    exact ⟨hContains, (Except.ok.inj h).symm⟩
  · rintro ⟨hContains, rfl⟩
    have hWeek := checkedDays_eq_ok.2 ⟨hContains, rfl⟩
    refine Except.bind_eq_ok.2 ⟨_, hWeek, Except.bind_eq_ok.2 ⟨_, ?_, rfl⟩⟩
    rw [Int.zero_add]
    exact hWeek

lemma Sum.add_day {years months days n : Int} {sum : Sum} :
    (Sum.mk years months days).add n 'D' = .ok sum ↔
      IntegerRange.int64.contains (days + n) = true ∧ sum = ⟨years, months, days + n⟩ := by
  have hAdd : (Sum.mk years months days).add n 'D' =
      (checkedDays (days + n)).bind fun days => .ok ⟨years, months, days⟩ := by
    rw [Sum.add, if_neg (by decide), if_neg (by decide), if_neg (by decide)]
    cases checkedDays (days + n) <;> rfl
  rw [hAdd]
  constructor
  · intro h
    obtain ⟨checked, hChecked, h⟩ := Except.bind_eq_ok.1 h
    obtain ⟨hContains, rfl⟩ := checkedDays_eq_ok.1 hChecked
    exact ⟨hContains, (Except.ok.inj h).symm⟩
  · rintro ⟨hContains, rfl⟩
    exact Except.bind_eq_ok.2 ⟨_, checkedDays_eq_ok.2 ⟨hContains, rfl⟩, rfl⟩

variable {unit : PeriodUnit} {last : Option Nat} {sum : Sum}

/-- An amount is added if its unit can stand where it does and its number is read, and then the
others are. -/
lemma total_cons (last : Option Nat) (sum : Sum) (amount : Amount) (rest : List Amount) :
    total last sum (amount :: rest) =
      (unitPlace .period units last amount.unit).bind fun place =>
        (wholeAmount amount.number amount.unit).bind fun n =>
          (sum.add n amount.unit).bind fun next => total (some place) next rest := by
  rw [total]
  cases unitPlace .period units last amount.unit with
  | error fault => rfl
  | ok place =>
    cases wholeAmount amount.number amount.unit with
    | error fault => rfl
    | ok n => cases hAdd : sum.add n amount.unit <;> simp only [hAdd, Except.bind]

/-- A unit that may be left out is added with the number zero where it is. -/
lemma total_optional (amount : Option (PeriodAmount unit)) (rest : List Amount) {result : Sum}
    (hLast : last.elim 0 (· + 1) ≤ unit.place) (hZero : sum.add 0 unit.letter = .ok sum) :
    total last sum (optionAmounts amount ++ rest) = .ok result ↔
      IntegerRange.int64.contains (optionValue amount) = true ∧
        ∃ next, sum.add (optionValue amount) unit.letter = .ok next ∧
          total (lastPlace last amount) next rest = .ok result := by
  cases amount with
  | none =>
    have hContains : IntegerRange.int64.contains 0 = true := by decide
    simp only [optionAmounts, optionValue, lastPlace, Option.elim_none, Option.toList_none,
      List.map_nil, List.nil_append, hZero, hContains, true_and, Except.ok.injEq, exists_eq_left']
  | some amount =>
    have hPlace : unitPlace .period units last amount.toAmount.unit = .ok unit.place :=
      unitPlace_of_findIdx? unit.findIdx?_units hLast
    have hTotal : total last sum (optionAmounts (some amount) ++ rest) =
        (wholeAmount amount.toAmount.number unit.letter).bind fun n =>
          (sum.add n unit.letter).bind fun next => total (some unit.place) next rest := by
      rw [optionAmounts, Option.toList_some, List.map_singleton, List.singleton_append, total_cons,
        hPlace]
      rfl
    rw [hTotal]
    constructor
    · intro h
      obtain ⟨n, hn, hRest⟩ := Except.bind_eq_ok.1 h
      obtain ⟨hContains, rfl⟩ := amount.wholeAmount_eq_ok.1 hn
      obtain ⟨next, hNext, hRest⟩ := Except.bind_eq_ok.1 hRest
      exact ⟨hContains, next, hNext, hRest⟩
    · rintro ⟨hContains, next, hNext, h⟩
      exact Except.bind_eq_ok.2 ⟨_, amount.wholeAmount_eq_ok.2 ⟨hContains, rfl⟩,
        Except.bind_eq_ok.2 ⟨next, hNext, h⟩⟩

lemma lastPlace_le (amount : Option (PeriodAmount unit)) (hLast : last.elim 0 (· + 1) ≤ unit.place) :
    (lastPlace last amount).elim 0 (· + 1) ≤ unit.place + 1 := by
  cases amount with
  | none => exact Nat.le_succ_of_le hLast
  | some amount => exact Nat.le_refl _

end Period

lemma PeriodText.readAmounts_body (written : PeriodText) :
    readAmounts [] written.body = .ok written.amounts := by
  have hEnd : readAmounts [] (optionText written.days) = .ok (optionAmounts written.days) := by
    have hRead := PeriodAmount.readAmounts_optionText written.days []
    rw [List.append_nil] at hRead
    rw [hRead, readAmounts, List.isEmpty_nil, if_pos rfl, Except.map, List.append_nil]
  rw [body, PeriodAmount.readAmounts_optionText, PeriodAmount.readAmounts_optionText,
    PeriodAmount.readAmounts_optionText, hEnd]
  rfl

/-- The amounts that are written add up to what they are exactly if they fit 64 bits. -/
lemma PeriodText.total_amounts (written : PeriodText) {sum : Period.Sum} :
    Period.total none ⟨0, 0, 0⟩ written.amounts = .ok sum ↔
      written.AddsUp ∧
        sum = ⟨optionValue written.years, optionValue written.months, written.daysValue⟩ := by
  have hYears : (none : Option Nat).elim 0 (· + 1) ≤ 0 := Nat.le_refl 0
  have hMonths := Period.lastPlace_le written.years hYears
  have hWeeks := Period.lastPlace_le written.months hMonths
  have hDays := Period.lastPlace_le written.weeks hWeeks
  have hNoDay (years months : Int) (days : Int)
      (h : IntegerRange.int64.contains days = true) :
      (Period.Sum.mk years months days).add 0 'D' = .ok ⟨years, months, days⟩ := by
    refine Period.Sum.add_day.2 ?_
    rw [Int.add_zero]
    exact ⟨h, rfl⟩
  rw [amounts, ← List.append_nil (optionAmounts written.days),
    Period.total_optional written.years _ hYears rfl]
  constructor
  · rintro ⟨hYear, _, ⟨⟩, h⟩
    obtain ⟨hMonth, _, ⟨⟩, h⟩ := (Period.total_optional written.months _ hMonths rfl).1 h
    obtain ⟨hWeek, next, hNext, h⟩ := (Period.total_optional written.weeks _ hWeeks rfl).1 h
    obtain ⟨hDaysOfWeeks, rfl⟩ := Period.Sum.add_week.1 hNext
    obtain ⟨hDay, next, hNext, h⟩ := (Period.total_optional written.days _ hDays
      (hNoDay _ _ _ hDaysOfWeeks)).1 h
    obtain ⟨hAllDays, rfl⟩ := Period.Sum.add_day.1 hNext
    exact ⟨⟨hYear, hMonth, hWeek, hDay, hDaysOfWeeks, hAllDays⟩, (Except.ok.inj h).symm⟩
  · rintro ⟨hAdds, rfl⟩
    refine ⟨hAdds.years, _, rfl, ?_⟩
    refine (Period.total_optional written.months _ hMonths rfl).2 ⟨hAdds.months, _, rfl, ?_⟩
    refine (Period.total_optional written.weeks _ hWeeks rfl).2
      ⟨hAdds.weeks, _, Period.Sum.add_week.2 ⟨hAdds.daysOfWeeks, rfl⟩, ?_⟩
    exact (Period.total_optional written.days _ hDays (hNoDay _ _ _ hAdds.daysOfWeeks)).2
      ⟨hAdds.days, _, Period.Sum.add_day.2 ⟨hAdds.allDays, rfl⟩, rfl⟩

/-! ## Taking a row of amounts apart -/

/-- A row of amounts behind the units before `place`. -/
def BeginsFrom (place : Nat) (amounts : List Amount) : Prop :=
  ∀ first ∈ amounts.head?, ∃ unit : PeriodUnit, first.unit = unit.letter ∧ place ≤ unit.place

namespace Period

variable {last : Option Nat} {sum result : Sum} {amounts : List Amount} {text : List Char}

lemma beginsFrom_of_total (h : total last sum amounts = .ok result) :
    BeginsFrom (last.elim 0 (· + 1)) amounts := by
  cases amounts with
  | nil => exact fun _ hFirst => absurd hFirst (Option.not_mem_none _)
  | cons amount rest =>
    intro first hFirst
    obtain rfl : amount = first := Option.some.inj hFirst
    rw [total_cons] at h
    obtain ⟨place, hPlace, -⟩ := Except.bind_eq_ok.1 h
    obtain ⟨hAt, hBehind⟩ := unitPlace_eq_ok hPlace
    obtain ⟨unit, rfl, hLetter⟩ := PeriodUnit.exists_of_units hAt
    exact ⟨unit, hLetter, hBehind⟩

lemma exists_amount {unit : PeriodUnit} {number : List Char} {letter : Char} {n : Int}
    (hLetter : letter.toUpper = unit.letter)
    (h : wholeAmount number letter.toUpper = .ok n) :
    ∃ amount : PeriodAmount unit, amount.text = number ++ [letter] := by
  rw [wholeAmount] at h
  split at h
  · rename_i k hRead
    obtain ⟨sign, digits, rfl, hNonempty, hDigits, -⟩ := readInteger_eq_ok hRead
    exact ⟨⟨sign, digits, letter, hDigits, hNonempty, hLetter⟩, rfl⟩
  · cases h

/-- A unit is the first of a row that begins with it, or is left out. -/
lemma exists_optional (unit : PeriodUnit) (hRow : SpellsRow amounts text)
    (hTotal : total last sum amounts = .ok result) (hFrom : BeginsFrom unit.place amounts) :
    ∃ (amount : Option (PeriodAmount unit)) (others : List Amount) (rest : List Char)
      (last : Option Nat) (sum : Sum), text = optionText amount ++ rest ∧ SpellsRow others rest ∧
        total last sum others = .ok result ∧ BeginsFrom (unit.place + 1) others := by
  cases hRow with
  | nil =>
    exact ⟨none, [], [], last, sum, rfl, .nil, hTotal,
      fun _ hFirst => absurd hFirst (Option.not_mem_none _)⟩
  | @cons number others rest letter numeral row =>
    obtain ⟨first, hFirst, hPlace⟩ := hFrom _ rfl
    by_cases hUnit : first = unit
    · subst hUnit
      rw [total_cons] at hTotal
      obtain ⟨place, hAt, hTotal⟩ := Except.bind_eq_ok.1 hTotal
      obtain ⟨n, hn, hTotal⟩ := Except.bind_eq_ok.1 hTotal
      obtain ⟨next, -, hTotal⟩ := Except.bind_eq_ok.1 hTotal
      obtain ⟨amount, hAmount⟩ := exists_amount hFirst hn
      obtain rfl : place = first.place := by
        obtain ⟨hLetter, -⟩ := unitPlace_eq_ok hAt
        obtain ⟨found, rfl, hFound⟩ := PeriodUnit.exists_of_units hLetter
        exact congrArg _ (PeriodUnit.letter_injective (hFound.symm.trans hFirst))
      refine ⟨some amount, others, rest, some first.place, next, ?_, row, hTotal,
        beginsFrom_of_total hTotal⟩
      rw [optionText, Option.elim_some, hAmount, List.append_assoc, List.singleton_append]
    · refine ⟨none, _, _, last, sum, rfl, .cons letter numeral row, hTotal, ?_⟩
      rintro _ ⟨⟩
      exact ⟨first, hFirst,
        Nat.lt_of_le_of_ne hPlace fun h => hUnit (PeriodUnit.place_injective h.symm)⟩

lemma eq_nil_of_beginsFrom (h : BeginsFrom 4 amounts) : amounts = [] := by
  cases amounts with
  | nil => rfl
  | cons amount rest =>
    obtain ⟨unit, -, hPlace⟩ := h amount rfl
    cases unit <;> exact absurd hPlace (by decide)

end Period

/-! ## Periods -/

lemma PeriodText.isEmpty_amounts (written : PeriodText) : written.amounts.isEmpty = false := by
  have hSome := written.nonempty
  refine List.isEmpty_eq_false_iff.2 fun hNone => ?_
  simp only [amounts, optionAmounts, List.append_eq_nil_iff, List.map_eq_nil_iff,
    Option.toList_eq_nil_iff] at hNone
  obtain ⟨hYears, hMonths, hWeeks, hDays⟩ := hNone
  rw [hYears, hMonths, hWeeks, hDays] at hSome
  cases hSome

namespace Period

lemma narrowed_eq_ok {sign : Sign} {n : Int} {narrow : Text.Integer32} :
    narrowed (decide (sign = .minus)) n = .ok narrow ↔ narrow.value = sign.apply n := by
  rw [narrowed, Sign.ite_minus]
  constructor
  · intro h
    split at h
    · rename_i found hFound
      cases h
      exact Bounded.value_of_ofInt? hFound
    · cases h
  · intro h
    rw [← h, Bounded.ofInt?_value]

/-- A text that is written like a period is read exactly if its amounts add up to numbers of 32
bits. -/
lemma read_written (written : PeriodText) {p : Period} :
    read written.text = .ok p ↔ written.AddsUp ∧
      p.years.value = written.sign.apply (optionValue written.years) ∧
      p.months.value = written.sign.apply (optionValue written.months) ∧
      p.days.value = written.sign.apply written.daysValue := by
  have hSign : takeSign written.text
      = (decide (written.sign = .minus), written.designator :: written.body) := by
    have hDesignator : written.designator ≠ '+' ∧ written.designator ≠ '-' := by
      obtain h | h := written.designates <;> rw [h] <;> decide
    exact takeSign_append written.sign hDesignator.1 hDesignator.2
  have hBody : takeDesignator (written.designator :: written.body) = .ok written.body := by
    obtain h | h := written.designates <;> rw [h] <;> rfl
  have hRead : read written.text =
      (total none ⟨0, 0, 0⟩ written.amounts >>= fun sum =>
        narrowed (decide (written.sign = .minus)) sum.years >>= fun years =>
          narrowed (decide (written.sign = .minus)) sum.months >>= fun months =>
            narrowed (decide (written.sign = .minus)) sum.days >>= fun days =>
              .ok ⟨years, months, days⟩) := by
    rw [read, hSign]
    simp only [hBody, Except.ok_bind, written.readAmounts_body, written.isEmpty_amounts,
      Bool.false_eq_true, if_false]
  rw [hRead]
  constructor
  · intro h
    obtain ⟨sum, hSum, h⟩ := Except.bind_eq_ok.1 h
    obtain ⟨hAdds, rfl⟩ := written.total_amounts.1 hSum
    obtain ⟨years, hYears, h⟩ := Except.bind_eq_ok.1 h
    obtain ⟨months, hMonths, h⟩ := Except.bind_eq_ok.1 h
    obtain ⟨days, hDays, h⟩ := Except.bind_eq_ok.1 h
    cases h
    exact ⟨hAdds, narrowed_eq_ok.1 hYears, narrowed_eq_ok.1 hMonths, narrowed_eq_ok.1 hDays⟩
  · rintro ⟨hAdds, hYears, hMonths, hDays⟩
    refine Except.bind_eq_ok.2 ⟨_, written.total_amounts.2 ⟨hAdds, rfl⟩, ?_⟩
    refine Except.bind_eq_ok.2 ⟨_, narrowed_eq_ok.2 hYears, ?_⟩
    refine Except.bind_eq_ok.2 ⟨_, narrowed_eq_ok.2 hMonths, ?_⟩
    exact Except.bind_eq_ok.2 ⟨_, narrowed_eq_ok.2 hDays, rfl⟩

/-- What is read is written like a period. -/
lemma exists_written {raw : List Char} {p : Period} (h : read raw = .ok p) :
    ∃ written : PeriodText, raw = written.text := by
  obtain ⟨sign, hSign, -⟩ := exists_sign raw
  cases hTaken : takeSign raw with
  | mk negative rest =>
  rw [hTaken] at hSign
  rw [read, hTaken] at h
  obtain ⟨body, hBody, h⟩ := Except.bind_eq_ok.1 h
  obtain ⟨designator, hDesignates, hRest⟩ := takeDesignator_eq_ok hBody
  obtain ⟨amounts, hAmounts, h⟩ := Except.bind_eq_ok.1 h
  split at h
  · cases h
  rename_i hSome
  obtain ⟨sum, hTotal, -⟩ := Except.bind_eq_ok.1 h
  obtain ⟨years, _, _, _, _, rfl, hRow, hTotal, hFrom⟩ := exists_optional .year
    (.of_readAmounts hAmounts) hTotal (beginsFrom_of_total hTotal)
  obtain ⟨months, _, _, _, _, rfl, hRow, hTotal, hFrom⟩ :=
    exists_optional .month hRow hTotal hFrom
  obtain ⟨weeks, _, _, _, _, rfl, hRow, hTotal, hFrom⟩ := exists_optional .week hRow hTotal hFrom
  obtain ⟨days, _, _, _, _, rfl, hRow, hTotal, hFrom⟩ := exists_optional .day hRow hTotal hFrom
  obtain rfl := eq_nil_of_beginsFrom hFrom
  cases hRow
  rw [List.append_nil] at hAmounts hRest
  have hNonempty : years.isSome || months.isSome || weeks.isSome || days.isSome := by
    by_contra hNone
    simp only [Bool.or_eq_true, not_or, Bool.not_eq_true, Option.isSome_eq_false_iff,
      Option.isNone_iff_eq_none] at hNone
    obtain ⟨⟨⟨rfl, rfl⟩, rfl⟩, rfl⟩ := hNone
    cases hAmounts
    exact hSome rfl
  refine ⟨⟨sign, designator, years, months, weeks, days, hDesignates, hNonempty⟩, ?_⟩
  rw [hSign, hRest, PeriodText.text, PeriodText.body]

/-- **A period is read exactly if it is written like one and its amounts fit, and is then what they
amount to.**  Every period is read back from its text with all three amounts. -/
theorem read_eq_ok_iff :
    (∀ (raw : String) (p : Period), read raw.toList = .ok p ↔
      ∃ written : PeriodText, raw.toList = written.text ∧ written.Fits ∧
        p.years.value = written.sign.apply (optionValue written.years) ∧
        p.months.value = written.sign.apply (optionValue written.months) ∧
        p.days.value = written.sign.apply written.daysValue) ∧
    ∀ p : Period, read p.text = .ok p := by
  refine ⟨fun raw p => ⟨?_, ?_⟩, read_text⟩
  · intro h
    obtain ⟨written, hText⟩ := exists_written h
    rw [hText] at h
    obtain ⟨hAdds, hYears, hMonths, hDays⟩ := (read_written written).1 h
    have hFits : written.Fits :=
      { hAdds with
        narrowYears := hYears ▸ p.years.contained
        narrowMonths := hMonths ▸ p.months.contained
        narrowDays := hDays ▸ p.days.contained }
    exact ⟨written, hText, hFits, hYears, hMonths, hDays⟩
  · rintro ⟨written, hText, hFits, hValues⟩
    rw [hText]
    exact (read_written written).2 ⟨hFits.toAddsUp, hValues⟩

end Period

end PolicyText
