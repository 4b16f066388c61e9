import Mathlib.Algebra.Ring.Int.Defs
import PolicyText.Calendar.Duration
import PolicyText.Proofs.Calendar.Row
import PolicyText.Proofs.Text.Digits
import PolicyText.Proofs.Text.Trim

/-!
# The components of a duration

What a duration adds up is written as a row of components, each a number before the letter of a
unit.  Here a component is described by how it is written (`Component.text`) and how long it is
(`Component.nanoseconds`), without a reader.  The number before a unit is read as the duration of a
component, and if it is too large for one that is the only reason to report an overflow:
`DurationUnit.exists_component`.

The reader of seconds looks for a sign twice, once before the digits and the point and once before
the digits that stand before the point.  That the number is a numeral (`IsNumeral`), as all numbers
of a row are, leaves no place for the second sign.
-/

namespace PolicyText

open Text

/-! ## Faults -/

lemma SpanFault.eq_overflow_of_message {fault : SpanFault}
    (h : fault.message = "duration overflow") : fault = .overflow .duration := by
  have hText := congrArg String.toList h
  rw [message.eq_def] at hText
  cases fault with
  | overflow kind =>
    cases kind with
    | period => simp [SpanKind.word] at hText
    | duration => rfl
  | outOfOrder kind unit => cases kind <;> simp [SpanKind.word, toString] at hText
  | empty kind => cases kind <;> simp [SpanKind.word] at hText
  | _ => simp [toString] at hText

lemma readAmounts_eq_error {number text : List Char} {fault : SpanFault}
    (h : readAmounts number text = .error fault) : fault ≠ .overflow .duration := by
  fun_induction readAmounts number text with
  | case1 => cases h
  | case2 =>
    cases h
    rintro ⟨⟩
  | case3 _ _ _ _ ih => exact ih h
  | case4 =>
    cases h
    rintro ⟨⟩
  | case5 => cases h
  | case6 _ _ _ _ _ other hOther ih =>
    cases h
    exact ih hOther

/-! ## Components -/

/-- A number as it is written before a unit: a sign, digits, and up to nine digits behind a
point. -/
structure WrittenNumber where
  sign : Sign
  whole : List Char
  /-- What stands behind the point, if there is one. -/
  places : Option (List Char)
  digits : ∀ c ∈ whole ++ places.getD [], c.isDigit = true
  nonempty : whole ++ places.getD [] ≠ []
  precise : (places.getD []).length ≤ 9

namespace WrittenNumber

/-- A number as it is written. -/
def text (number : WrittenNumber) : List Char :=
  number.sign.text ++ number.whole ++ number.places.elim [] ('.' :: ·)

/-- The billionths to which a number amounts. -/
def billionths (number : WrittenNumber) : Int :=
  number.sign.apply
    (digitsValue number.whole * 10 ^ 9 +
      digitsValue (number.places.getD []) * 10 ^ (9 - (number.places.getD []).length) : Nat)

/-- A number without a point. -/
def ofDigits (sign : Sign) {whole : List Char} (digits : ∀ c ∈ whole, c.isDigit = true)
    (nonempty : whole ≠ []) : WrittenNumber where
  sign := sign
  whole := whole
  places := none
  digits := by rwa [Option.getD_none, List.append_nil]
  nonempty := by rwa [Option.getD_none, List.append_nil]
  precise := Nat.zero_le 9

lemma billionths_ofDigits (sign : Sign) {whole : List Char}
    (digits : ∀ c ∈ whole, c.isDigit = true) (nonempty : whole ≠ []) :
    (ofDigits sign digits nonempty).billionths
      = sign.apply (digitsValue whole) * nanosecondsPerSecond := by
  rw [Sign.apply_mul]
  exact congrArg sign.apply (by simp [ofDigits, digitsValue, nanosecondsPerSecond])

end WrittenNumber

/-- The units of a duration. -/
inductive DurationUnit where
  | day
  | hour
  | minute
  | second
  deriving DecidableEq, Repr

namespace DurationUnit

/-- The letter of a unit. -/
def letter : DurationUnit → Char
  | .day => 'D'
  | .hour => 'H'
  | .minute => 'M'
  | .second => 'S'

/-- The seconds of a unit. -/
def seconds : DurationUnit → Nat
  | .day => 86400
  | .hour => 3600
  | .minute => 60
  | .second => 1

/-- What the number before a unit is read as. -/
def ofNumber (number : List Char) : DurationUnit → Except SpanFault Duration
  | .second => Duration.ofSeconds number
  | unit => Duration.ofWhole number unit.letter unit.seconds

end DurationUnit

/-- A number before the letter of its unit, in either case.  Only seconds have a point. -/
structure Component where
  number : WrittenNumber
  unit : DurationUnit
  letter : Char
  names : letter.toUpper = unit.letter
  whole : number.places ≠ none → unit = .second

namespace Component

/-- A component as it is written. -/
def text (component : Component) : List Char :=
  component.number.text ++ [component.letter]

/-- The length of a component. -/
def nanoseconds (component : Component) : Int :=
  component.number.billionths * component.unit.seconds

/-- Components as they are written, one behind the other. -/
def rowText (components : List Component) : List Char :=
  components.flatMap text

/-- The length of components together. -/
def total (components : List Component) : Int :=
  (components.map nanoseconds).sum

lemma eq_nil_of_rowText {components : List Component} (h : rowText components = []) :
    components = [] := by
  cases components with
  | nil => rfl
  | cons component rest =>
    have hFirst := (List.append_eq_nil_iff.1 h).1
    cases (List.append_eq_nil_iff.1 hFirst).2

lemma total_append (before after : List Component) :
    total (before ++ after) = total before + total after := by
  rw [total, List.map_append, List.sum_append]
  rfl

end Component

/-! ## Reading the number before a unit -/

lemma Duration.ofNanoseconds_eq_ok {n : Int} {d : Duration} (h : ofNanoseconds n = .ok d) :
    d.nanoseconds = n := by
  rw [ofNanoseconds, ofNanoseconds?] at h
  split_ifs at h with hn
  cases h
  rfl

lemma Duration.ofNanoseconds_eq_error {n : Int} {fault : SpanFault}
    (h : ofNanoseconds n = .error fault) :
    isDuration n = false ∧ fault = .overflow .duration := by
  rw [ofNanoseconds, ofNanoseconds?] at h
  split_ifs at h with hn
  exact ⟨Bool.not_eq_true _ ▸ hn, (Except.error.inj h).symm⟩

lemma eq_digitsValue_of_readInteger {range : IntegerRange} {digits : List Char} {n : Int}
    (hDigits : ∀ c ∈ digits, c.isDigit = true) (h : readInteger range digits = .ok n) :
    n = digitsValue digits := by
  obtain ⟨sign, rest, hText, -, -, hValue⟩ := readInteger_eq_ok h
  cases sign with
  | absent =>
    rw [Sign.text, List.nil_append] at hText
    subst hText
    rw [digitsValue_eq hDigits]
    exact hValue
  | plus => cases hDigits '+' (by rw [hText]; exact List.mem_cons_self)
  | minus => cases hDigits '-' (by rw [hText]; exact List.mem_cons_self)

namespace DurationUnit

/-- A reader of the number before a unit refuses the text for what it is, or makes the duration
that a component has. -/
def ReadsAs (unit : DurationUnit) (number : List Char) (outcome : Except SpanFault Duration) :
    Prop :=
  (∃ fault, outcome = .error fault ∧ fault ≠ .overflow .duration) ∨
    ∃ written : WrittenNumber, number = written.text ∧ (written.places ≠ none → unit = .second) ∧
      outcome = Duration.ofNanoseconds (written.billionths * unit.seconds)

lemma readsAs_ofWhole (unit : DurationUnit) (number : List Char) :
    unit.ReadsAs number (Duration.ofWhole number unit.letter unit.seconds) := by
  rw [Duration.ofWhole, wholeAmount]
  cases hRead : readInteger .int64 number with
  | error fault => exact Or.inl ⟨_, rfl, nofun⟩
  | ok n =>
    obtain ⟨sign, digits, hNumber, hNonempty, hDigits, hValue⟩ := readInteger_eq_ok hRead
    refine Or.inr ⟨.ofDigits sign hDigits hNonempty, ?_, fun h => absurd rfl h, ?_⟩
    · rw [hNumber]
      exact (List.append_nil _).symm
    · rw [WrittenNumber.billionths_ofDigits, digitsValue_eq hDigits, ← hValue, Int.mul_right_comm]

lemma exists_places (digits : List Char) :
    ∃ places : Option (List Char),
      digits = digits.takeWhile (· != '.') ++ places.elim [] ('.' :: ·) ∧
        (digits.dropWhile (· != '.')).drop 1 = places.getD [] := by
  obtain ⟨mark, hMark, hNone, hDigits, -⟩ := exists_mark (· == '.') digits
  cases mark with
  | none =>
    refine ⟨none, ?_, hNone rfl⟩
    rwa [hNone rfl, List.append_nil] at hDigits
  | some c =>
    obtain rfl := beq_iff_eq.1 (hMark c rfl)
    refine ⟨some _, ?_, rfl⟩
    rwa [List.append_assoc] at hDigits

lemma wholeSeconds_cases {whole : List Char} (hWhole : ∀ c ∈ whole, c.isDigit = true) :
    (∃ fault, (if whole.isEmpty then .ok 0 else wholeAmount whole 'S') = .error fault ∧
        fault ≠ .overflow .duration) ∨
      (if whole.isEmpty then .ok 0 else wholeAmount whole 'S') = .ok (digitsValue whole : Int) := by
  split_ifs with hEmpty
  · rw [List.isEmpty_iff.1 hEmpty]
    exact Or.inr rfl
  · rw [wholeAmount]
    cases hRead : readInteger .int64 whole with
    | error fault => exact Or.inl ⟨_, rfl, nofun⟩
    | ok n => exact Or.inr (congrArg Except.ok (eq_digitsValue_of_readInteger hWhole hRead))

/-- A number of seconds is read with what stands behind its point. -/
lemma readsAs_ofSeconds {number : List Char} (hNumeral : IsNumeral number) :
    DurationUnit.second.ReadsAs number (Duration.ofSeconds number) := by
  obtain ⟨sign, hNumber, hNegative⟩ := exists_sign number
  cases hTaken : takeSign number with
  | mk negative digits =>
  rw [hTaken] at hNumber hNegative
  rw [IsNumeral, hTaken] at hNumeral
  obtain ⟨places, hDigits, hPlaces⟩ := exists_places digits
  have hWhole : ∀ c ∈ digits.takeWhile (· != '.'), c.isDigit = true := by
    intro c hc
    obtain hDigit | rfl := hNumeral c (List.takeWhile_subset _ hc)
    · exact hDigit
    · cases List.mem_takeWhile_imp hc
  rw [Duration.ofSeconds, hTaken]
  simp only [hPlaces]
  split
  · exact Or.inl ⟨_, rfl, nofun⟩
  rename_i hEmpty
  split
  · exact Or.inl ⟨_, rfl, nofun⟩
  rename_i hInvalid
  obtain ⟨fault, hFault, hOther⟩ | hSeconds := wholeSeconds_cases hWhole
  · rw [hFault]
    exact Or.inl ⟨fault, rfl, hOther⟩
  simp only [Bool.or_eq_true, decide_eq_true_eq, Bool.not_eq_true', not_or, Bool.not_eq_false,
    List.all_eq_true, not_lt] at hInvalid
  rw [Bool.and_eq_true, List.isEmpty_iff, List.isEmpty_iff, ← List.append_eq_nil_iff] at hEmpty
  have hWritten : ∀ c ∈ digits.takeWhile (· != '.') ++ places.getD [], c.isDigit = true :=
    fun c hc => (List.mem_append.1 hc).elim (hWhole c) (hInvalid.2 c)
  rw [hSeconds]
  refine Or.inr ⟨⟨sign, _, places, hWritten, hEmpty, hInvalid.1⟩, ?_, fun _ => rfl, ?_⟩
  · rw [WrittenNumber.text, List.append_assoc, ← hDigits]
    exact hNumber
  · refine congrArg Duration.ofNanoseconds ?_
    obtain rfl : negative = decide (sign = .minus) := hNegative
    rw [Sign.ite_minus]
    exact (Int.mul_one _).symm

/-- The number before a unit is read as the duration of a component, unless the text is refused for
what it is. -/
lemma exists_component (unit : DurationUnit) {number : List Char} {letter : Char}
    (hNumeral : IsNumeral number) (hLetter : letter.toUpper = unit.letter) :
    (∃ fault, unit.ofNumber number = .error fault ∧ fault ≠ .overflow .duration) ∨
      ∃ component : Component, component.unit = unit ∧ component.text = number ++ [letter] ∧
        unit.ofNumber number = Duration.ofNanoseconds component.nanoseconds := by
  have hReads : unit.ReadsAs number (unit.ofNumber number) := by
    cases unit with
    | second => exact readsAs_ofSeconds hNumeral
    | day => exact readsAs_ofWhole .day number
    | hour => exact readsAs_ofWhole .hour number
    | minute => exact readsAs_ofWhole .minute number
  obtain hFault | ⟨written, hNumber, hPlaces, hOutcome⟩ := hReads
  · exact Or.inl hFault
  · exact Or.inr ⟨⟨written, unit, letter, hLetter, hPlaces⟩, rfl,
      congrArg (· ++ [letter]) hNumber.symm, hOutcome⟩

end DurationUnit

end PolicyText
