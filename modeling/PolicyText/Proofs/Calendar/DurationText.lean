import PolicyText.Proofs.Calendar.Amounts
import PolicyText.Proofs.Calendar.Duration
import PolicyText.Proofs.Outcome

/-!
# What the text of a duration amounts to

The reader of durations adds up one amount after the other and stops at the first that is refused
or no longer fits.  `Adds` is such a run with what came out of it, a step for each component; the
two loops of the reader, over the days and over the smaller units, are both runs of it
(`Adds.of_addDays`, `Adds.of_addTime`), and they differ in the units that they admit.  What a run
says about the text and the sum is then read off once, for a run that succeeds (`Adds.of_ok`) and
for one that overflows (`Adds.of_overflow`).

Main statements:

* `Duration.read_exact`: a duration that is read is the exact sum of its components with the sign
  of the whole, and an overflow is reported only where something does not fit.
* `Duration.read_grammar`: which rows of components are durations.  The units behind the `T` stand
  in their order and at most once each; days can be given more than once
  (`Duration.read_days_twice`).
-/

namespace PolicyText

open Text

/-! ## Runs of a sum -/

/-- At the beginning of a text stand components that cannot all be added to a sum: the last of them
does not fit by itself, or the sum with all of them does not. -/
def Component.Overflows (sum : Int) (text : List Char) : Prop :=
  ∃ (rest : List Char) (before : List Component) (last : Component),
    text = rowText (before ++ [last]) ++ rest ∧
      (isDuration last.nanoseconds = false ∨
        isDuration (sum + total (before ++ [last])) = false)

/-- Adding up the components of a text from left to right.  A run that overflows does so with its
last component. -/
inductive Adds : Duration → List Char → List Component → Except SpanFault Duration → Prop
  /-- Nothing is left to be added. -/
  | done (sum : Duration) : Adds sum [] [] (.ok sum)
  /-- The text is refused for what it is. -/
  | refused {sum : Duration} {text : List Char} {fault : SpanFault}
      (other : fault ≠ .overflow .duration) : Adds sum text [] (.error fault)
  /-- A component does not fit, or the sum with it does not. -/
  | overflows {sum : Duration} {component : Component} (rest : List Char)
      (large : isDuration component.nanoseconds = false ∨
        isDuration (sum.nanoseconds + component.nanoseconds) = false) :
      Adds sum (component.text ++ rest) [component] (.error (.overflow .duration))
  /-- A component is added. -/
  | added {sum next : Duration} {component : Component} {text : List Char}
      {components : List Component} {outcome : Except SpanFault Duration}
      (amount : next.nanoseconds = sum.nanoseconds + component.nanoseconds)
      (others : Adds next text components outcome) :
      Adds sum (component.text ++ text) (component :: components) outcome

namespace Adds

variable {sum : Duration} {text : List Char} {components : List Component}

lemma of_ok {d : Duration} (h : Adds sum text components (.ok d)) :
    text = Component.rowText components ∧
      d.nanoseconds = sum.nanoseconds + Component.total components := by
  generalize hOutcome : Except.ok d = outcome at h
  induction h with
  | done sum =>
    cases hOutcome
    exact ⟨rfl, (Int.add_zero _).symm⟩
  | refused => cases hOutcome
  | overflows => cases hOutcome
  | added amount others ih =>
    obtain ⟨hText, hSum⟩ := ih hOutcome
    rw [hText, hSum, amount, Int.add_assoc]
    exact ⟨rfl, rfl⟩

lemma of_overflow (h : Adds sum text components (.error (.overflow .duration))) :
    Component.Overflows sum.nanoseconds text := by
  generalize hOutcome : Except.error (SpanFault.overflow .duration) = outcome at h
  induction h with
  | done => cases hOutcome
  | refused other =>
    cases hOutcome
    exact absurd rfl other
  | @overflows sum component rest large =>
    refine ⟨rest, [], component, ?_, ?_⟩
    · simp [Component.rowText]
    · simpa [Component.total] using large
  | @added sum next component text components outcome amount others ih =>
    obtain ⟨rest, before, last, hText, hLarge⟩ := ih hOutcome
    refine ⟨rest, component :: before, last, ?_, ?_⟩
    · rw [hText, ← List.append_assoc]
      rfl
    · rwa [amount, Int.add_assoc] at hLarge

/-- The step that both loops take: an amount is refused, or is the last one because something does
not fit, or is added before what comes next.  What a loop admits of the components behind this one
is handed on. -/
lemma step (sum : Duration) (admits : List Component → Prop) {unit : DurationUnit}
    {number : List Char} {letter : Char} (hNumeral : IsNumeral number)
    (hLetter : letter.toUpper = unit.letter) {next : Duration → Except SpanFault Duration}
    (hNil : admits [])
    (hNext : ∀ sum, ∃ components, Adds sum text components (next sum) ∧ admits components) :
    ∃ components,
      Adds sum (number ++ letter :: text) components
        (match unit.ofNumber number with
        | .error fault => .error fault
        | .ok part =>
          match sum.add part with
          | .error fault => .error fault
          | .ok sum => next sum) ∧
      (components = [] ∨ ∃ component others,
        components = component :: others ∧ component.unit = unit ∧ admits others) := by
  obtain ⟨fault, hFault, hOther⟩ | ⟨component, hUnit, hText, hOutcome⟩ :=
    unit.exists_component hNumeral hLetter
  · rw [hFault]
    exact ⟨[], .refused hOther, Or.inl rfl⟩
  · have hRow : number ++ letter :: text = component.text ++ text := by
      rw [hText, List.append_assoc, List.singleton_append]
    rw [hRow]
    have hSingle : ∀ fault, isDuration component.nanoseconds = false ∨
        isDuration (sum.nanoseconds + component.nanoseconds) = false →
        fault = SpanFault.overflow .duration →
        Adds sum (component.text ++ text) [component] (.error fault) := by
      rintro _ hLarge rfl
      exact .overflows text hLarge
    cases hPart : unit.ofNumber number with
    | error fault =>
      rw [hOutcome] at hPart
      obtain ⟨hLarge, hFault⟩ := Duration.ofNanoseconds_eq_error hPart
      exact ⟨[component], hSingle fault (Or.inl hLarge) hFault,
        Or.inr ⟨component, [], rfl, hUnit, hNil⟩⟩
    | ok part =>
      rw [hOutcome] at hPart
      have hLength := Duration.ofNanoseconds_eq_ok hPart
      cases hSum : sum.add part with
      | error fault =>
        obtain ⟨hLarge, hFault⟩ := Duration.ofNanoseconds_eq_error hSum
        rw [hLength] at hLarge
        simp only [hSum]
        exact ⟨[component], hSingle fault (Or.inr hLarge) hFault,
          Or.inr ⟨component, [], rfl, hUnit, hNil⟩⟩
      | ok after =>
        obtain ⟨others, hOthers, hAdmits⟩ := hNext after
        have hAmount := Duration.ofNanoseconds_eq_ok hSum
        rw [hLength] at hAmount
        simp only [hSum]
        exact ⟨component :: others, .added hAmount hOthers,
          Or.inr ⟨component, others, rfl, hUnit, hAdmits⟩⟩

/-- The days are a run of days, of any number. -/
lemma of_addDays {amounts : List Amount} (hRow : SpellsRow amounts text) (sum : Duration) :
    ∃ components, Adds sum text components (Duration.addDays sum amounts) ∧
      ∀ component ∈ components, component.unit = .day := by
  induction hRow generalizing sum with
  | nil => exact ⟨[], .done sum, List.forall_mem_nil _⟩
  | @cons number amounts text letter numeral row ih =>
    rw [Duration.addDays]
    by_cases hLetter : letter.toUpper = 'D'
    · have hDay : letter.toUpper = DurationUnit.day.letter := hLetter
      obtain ⟨components, hAdds, hUnits⟩ := step sum
        (fun components => ∀ component ∈ components, component.unit = .day) numeral hDay
        (List.forall_mem_nil _) ih
      rw [if_neg (not_not_intro hLetter)]
      simp only [hLetter]
      refine ⟨components, hAdds, ?_⟩
      obtain rfl | ⟨component, others, rfl, hUnit, hOthers⟩ := hUnits
      · exact List.forall_mem_nil _
      · exact List.forall_mem_cons.2 ⟨hUnit, hOthers⟩
    · rw [if_pos hLetter]
      exact ⟨[], .refused nofun, List.forall_mem_nil _⟩

end Adds

/-! ## The units behind a `T` -/

/-- The units that follow a `T` in their order. -/
def DurationUnit.timeOrder : List DurationUnit :=
  [.hour, .minute, .second]

lemma unitPlace_eq_error {kind : SpanKind} {order : List Char} {last : Option Nat} {unit : Char}
    {fault : SpanFault} (h : unitPlace kind order last unit = .error fault) :
    fault ≠ .overflow .duration := by
  rw [unitPlace] at h
  split at h
  · cases h
    rintro ⟨⟩
  · split_ifs at h
    cases h
    rintro ⟨⟩

lemma DurationUnit.exists_of_timeUnits {place : Nat} {letter : Char}
    (h : Duration.timeUnits[place]? = some letter) :
    ∃ unit, timeOrder[place]? = some unit ∧ letter = unit.letter := by
  have hUnits : Duration.timeUnits = timeOrder.map DurationUnit.letter := rfl
  rw [hUnits, List.getElem?_map, Option.map_eq_some_iff] at h
  obtain ⟨unit, hUnit, hLetter⟩ := h
  exact ⟨unit, hUnit, hLetter.symm⟩

lemma Duration.ofTimeAmount_eq {unit : DurationUnit} {number : List Char}
    (h : unit ∈ DurationUnit.timeOrder) :
    ofTimeAmount ⟨number, unit.letter⟩ = unit.ofNumber number := by
  cases unit with
  | day => cases (by decide : DurationUnit.day ∉ DurationUnit.timeOrder) h
  | hour => rfl
  | minute => rfl
  | second => rfl

/-- The smaller units are a run of units in their order, none of them twice. -/
lemma Adds.of_addTime {text : List Char} {amounts : List Amount} (hRow : SpellsRow amounts text)
    (last : Option Nat) (sum : Duration) :
    ∃ components, Adds sum text components (Duration.addTime last sum amounts) ∧
      (components.map Component.unit).Sublist
        (DurationUnit.timeOrder.drop (last.elim 0 (· + 1))) := by
  induction hRow generalizing last sum with
  | nil => exact ⟨[], .done sum, List.nil_sublist _⟩
  | @cons number amounts text letter numeral row ih =>
    rw [Duration.addTime]
    cases hPlace : unitPlace .duration Duration.timeUnits last letter.toUpper with
    | error fault => exact ⟨[], .refused (unitPlace_eq_error hPlace), List.nil_sublist _⟩
    | ok place =>
      obtain ⟨hAt, hBehind⟩ := unitPlace_eq_ok hPlace
      obtain ⟨unit, hUnit, hLetter⟩ := DurationUnit.exists_of_timeUnits hAt
      obtain ⟨components, hAdds, hUnits⟩ := step sum
        (fun components => (components.map Component.unit).Sublist
          (DurationUnit.timeOrder.drop (place + 1)))
        numeral hLetter (List.nil_sublist _) (ih (some place))
      simp only [hLetter, Duration.ofTimeAmount_eq (List.mem_of_getElem? hUnit)]
      refine ⟨components, hAdds, ?_⟩
      obtain rfl | ⟨component, others, rfl, hFirst, hOthers⟩ := hUnits
      · exact List.nil_sublist _
      · -- The unit at its place stands in front of the units behind it.
        have hFrom : DurationUnit.timeOrder.drop place
            = unit :: DurationUnit.timeOrder.drop (place + 1) := by
          rw [List.drop_eq_getElem?_toList_append, hUnit]
          rfl
        rw [List.map_cons, hFirst]
        refine List.Sublist.trans ?_ (List.drop_sublist_drop_left _ hBehind)
        rw [hFrom]
        exact hOthers.cons_cons unit

/-! ## The text of a duration -/

/-- The text of a duration taken apart: a sign, a `P`, components, and behind a `T` more
components. -/
structure DurationText where
  sign : Sign
  designator : Char
  days : List Component
  mark : Option Char
  times : List Component
  designates : designator = 'P' ∨ designator = 'p'
  marks : ∀ c ∈ mark, c = 'T' ∨ c = 't'
  unmarked : mark = none → times = []

namespace DurationText

/-- A duration as it is written. -/
def text (written : DurationText) : List Char :=
  written.sign.text ++ written.designator ::
    (Component.rowText written.days ++ written.mark.toList ++ Component.rowText written.times)

/-- The components from left to right. -/
def components (written : DurationText) : List Component :=
  written.days ++ written.times

end DurationText

namespace Duration

/-- Reads what stands before and behind the `T` of a duration and adds it up. -/
def ofParts (sign : Sign) (dayPart timePart : List Char) : Except SpanFault Duration := do
  let days ← readAmounts [] dayPart
  let sum ← addDays zero days
  let times ← readAmounts [] timePart
  let sum ← addTime none sum times
  if days.isEmpty && times.isEmpty then .error (.empty .duration)
  else if decide (sign = .minus) then sum.neg
  else .ok sum

/-- A text is refused for what it is, or is a sign, a `P` and two parts that are added up, of which
the second is not empty if there is a `T` before it. -/
lemma read_cases (text : List Char) :
    (∃ fault, read text = .error fault ∧ fault ≠ .overflow .duration) ∨
      ∃ (sign : Sign) (designator : Char) (dayPart : List Char) (mark : Option Char)
        (timePart : List Char),
        (designator = 'P' ∨ designator = 'p') ∧ (∀ c ∈ mark, c = 'T' ∨ c = 't') ∧
          (mark = none ↔ timePart = []) ∧
          text = sign.text ++ designator :: (dayPart ++ mark.toList ++ timePart) ∧
          read text = ofParts sign dayPart timePart := by
  obtain ⟨sign, hSign, hNegative⟩ := exists_sign text
  cases hTaken : takeSign text with
  | mk negative rest =>
  rw [hTaken] at hSign hNegative
  obtain rfl : negative = decide (sign = .minus) := hNegative
  cases hBody : takeDesignator rest with
  | error fault =>
    refine Or.inl ⟨fault, ?_, ?_⟩
    · rw [read, hTaken]
      simp only [hBody]
      rfl
    · unfold takeDesignator at hBody
      split at hBody <;> cases hBody
      nofun
  | ok body =>
    obtain ⟨designator, hDesignates, hRest⟩ := takeDesignator_eq_ok hBody
    obtain ⟨mark, hMark, hNone, hParts, hIsNone⟩ := exists_mark isTimeMark body
    have hRead : read text =
        if !mark.isNone && ((body.dropWhile (!isTimeMark ·)).drop 1).isEmpty
        then .error .missingTime
        else ofParts sign (body.takeWhile (!isTimeMark ·))
          ((body.dropWhile (!isTimeMark ·)).drop 1) := by
      rw [read, hTaken, hIsNone]
      simp only [hBody]
      rfl
    split at hRead
    · exact Or.inl ⟨_, hRead, nofun⟩
    · rename_i hTime
      refine Or.inr ⟨sign, designator, _, mark, _, hDesignates, ?_, ⟨hNone, ?_⟩, ?_, hRead⟩
      · intro c hc
        simpa [isTimeMark] using hMark c hc
      · intro hEmpty
        simpa [hEmpty] using hTime
      · rw [← hParts, ← hRest]
        exact hSign

/-- Parts that are added up are rows of components. -/
lemma ofParts_eq_ok {sign : Sign} {dayPart timePart : List Char} {d : Duration}
    (h : ofParts sign dayPart timePart = .ok d) :
    ∃ days times : List Component,
      dayPart = Component.rowText days ∧ timePart = Component.rowText times ∧
        d.nanoseconds = sign.apply (Component.total (days ++ times)) ∧
        (∀ component ∈ days, component.unit = .day) ∧
        (times.map Component.unit).Sublist DurationUnit.timeOrder ∧ days ++ times ≠ [] := by
  rw [ofParts] at h
  obtain ⟨dayAmounts, hDayAmounts, h⟩ := Except.bind_eq_ok.1 h
  obtain ⟨daySum, hDaySum, h⟩ := Except.bind_eq_ok.1 h
  obtain ⟨timeAmounts, hTimeAmounts, h⟩ := Except.bind_eq_ok.1 h
  obtain ⟨sum, hSum, h⟩ := Except.bind_eq_ok.1 h
  obtain ⟨days, hDays, hDayUnits⟩ :=
    Adds.of_addDays (.of_readAmounts hDayAmounts) zero
  obtain ⟨times, hTimes, hTimeUnits⟩ :=
    Adds.of_addTime (.of_readAmounts hTimeAmounts) none daySum
  rw [hDaySum] at hDays
  rw [hSum] at hTimes
  obtain ⟨hDayText, hDayTotal⟩ := hDays.of_ok
  obtain ⟨hTimeText, hTotal⟩ := hTimes.of_ok
  have hSumTotal : sum.nanoseconds = Component.total (days ++ times) := by
    rw [hTotal, hDayTotal, Component.total_append]
    exact congrArg (· + _) (Int.zero_add _)
  split at h
  · cases h
  rename_i hAmounts
  refine ⟨days, times, hDayText, hTimeText, ?_, hDayUnits, hTimeUnits, ?_⟩
  · rw [← hSumTotal, ← Sign.ite_minus]
    split at h
    · rename_i hMinus
      rw [if_pos hMinus]
      exact ofNanoseconds_eq_ok h
    · rename_i hMinus
      rw [if_neg hMinus]
      exact congrArg Duration.nanoseconds (Except.ok.inj h).symm
  · -- No components are an empty text, and an empty text is no amounts.
    intro hNone
    obtain ⟨rfl, rfl⟩ := List.append_eq_nil_iff.1 hNone
    subst hDayText hTimeText
    cases hDayAmounts
    cases hTimeAmounts
    exact hAmounts rfl

/-- Parts that overflow do so with a component of the first or the second of them, or when their sum
is turned round. -/
lemma ofParts_eq_overflow {sign : Sign} {dayPart timePart : List Char}
    (h : ofParts sign dayPart timePart = .error (.overflow .duration)) :
    Component.Overflows 0 dayPart ∨
      ∃ days : List Component, dayPart = Component.rowText days ∧
        (Component.Overflows (Component.total days) timePart ∨
          ∃ times : List Component, timePart = Component.rowText times ∧ sign = .minus ∧
            isDuration (-Component.total (days ++ times)) = false) := by
  rw [ofParts, Except.bind_eq_error] at h
  obtain h | ⟨dayAmounts, hDayAmounts, h⟩ := h
  · exact absurd rfl (readAmounts_eq_error h)
  obtain ⟨days, hDays, -⟩ :=
    Adds.of_addDays (.of_readAmounts hDayAmounts) zero
  obtain h | ⟨daySum, hDaySum, h⟩ := Except.bind_eq_error.1 h
  · rw [h] at hDays
    exact Or.inl hDays.of_overflow
  rw [hDaySum] at hDays
  obtain ⟨hDayText, hDayTotal⟩ := hDays.of_ok
  rw [show zero.nanoseconds = 0 from rfl, Int.zero_add] at hDayTotal
  refine Or.inr ⟨days, hDayText, ?_⟩
  obtain h | ⟨timeAmounts, hTimeAmounts, h⟩ := Except.bind_eq_error.1 h
  · exact absurd rfl (readAmounts_eq_error h)
  obtain ⟨times, hTimes, -⟩ :=
    Adds.of_addTime (.of_readAmounts hTimeAmounts) none daySum
  obtain h | ⟨sum, hSum, h⟩ := Except.bind_eq_error.1 h
  · rw [h] at hTimes
    rw [← hDayTotal]
    exact Or.inl hTimes.of_overflow
  rw [hSum] at hTimes
  obtain ⟨hTimeText, hSumTotal⟩ := hTimes.of_ok
  rw [hDayTotal, ← Component.total_append] at hSumTotal
  split_ifs at h with hEmpty hMinus
  · cases h
  · refine Or.inr ⟨times, hTimeText, of_decide_eq_true hMinus, ?_⟩
    rw [← hSumTotal]
    exact (ofNanoseconds_eq_error h).1

/-- Whole seconds of 64 bits and a fraction of a second on the same side of zero are what every
duration consists of. -/
lemma exists_fraction (d : Duration) :
    ∃ seconds fraction : Int, IntegerRange.int64.contains seconds = true ∧
      d.nanoseconds = seconds * nanosecondsPerSecond + fraction ∧
      fraction.natAbs < nanosecondsPerSecond ∧
      (0 < seconds → 0 ≤ fraction) ∧ (seconds < 0 → fraction ≤ 0) := by
  refine ⟨_, _, d.contains_wholeSeconds, d.nanoseconds_eq.symm, ?_, ?_⟩
  · have hFraction : d.nanoseconds.natAbs % 10 ^ 9 < 10 ^ 9 := Nat.mod_lt _ (by decide)
    rw [nanosecondsPerSecond]
    split <;> omega
  · by_cases hNegative : d.nanoseconds < 0
    · rw [if_pos hNegative, decide_eq_true hNegative, signed, if_pos rfl]
      omega
    · rw [if_neg hNegative, decide_eq_false hNegative, signed, if_neg Bool.false_ne_true]
      omega

/-- **A duration is the exact sum of its components, and is too large only where one of them, a sum
up to one of them, or the sum turned round does not fit.**  What is read is a sign, a `P` and
components, and its fraction of a second lies on the same side of zero as its whole seconds. -/
theorem read_exact (raw : String) :
    (∀ d, read raw.toList = .ok d →
      ∃ written : DurationText, raw.toList = written.text ∧
        d.nanoseconds = written.sign.apply (Component.total written.components) ∧
        ∃ seconds fraction : Int, IntegerRange.int64.contains seconds = true ∧
          d.nanoseconds = seconds * nanosecondsPerSecond + fraction ∧
          fraction.natAbs < nanosecondsPerSecond ∧
          (0 < seconds → 0 ≤ fraction) ∧ (seconds < 0 → fraction ≤ 0)) ∧
    (∀ fault, read raw.toList = .error fault → fault.message = "duration overflow" →
      ∃ (written : DurationText) (rest : List Char), raw.toList = written.text ++ rest ∧
        ((∃ before last, written.components = before ++ [last] ∧
            (isDuration last.nanoseconds = false ∨
              isDuration (Component.total written.components) = false)) ∨
          rest = [] ∧ written.sign = .minus ∧
            isDuration (-Component.total written.components) = false)) := by
  obtain ⟨fault, hFault, hOther⟩ | ⟨sign, designator, dayPart, mark, timePart, hDesignates, hMarks,
    hMark, hText, hParts⟩ := read_cases raw.toList
  · rw [hFault]
    refine ⟨nofun, ?_⟩
    rintro _ ⟨⟩ hMessage
    exact absurd (SpanFault.eq_overflow_of_message hMessage) hOther
  rw [hParts, hText]
  refine ⟨?_, ?_⟩
  · intro d hRead
    obtain ⟨days, times, rfl, rfl, hSum, -⟩ := ofParts_eq_ok hRead
    have hUnmarked : mark = none → times = [] := fun h => Component.eq_nil_of_rowText (hMark.1 h)
    exact ⟨⟨sign, designator, days, mark, times, hDesignates, hMarks, hUnmarked⟩, rfl, hSum,
      d.exists_fraction⟩
  · intro fault hRead hMessage
    obtain rfl := SpanFault.eq_overflow_of_message hMessage
    obtain ⟨rest, before, last, rfl, hLarge⟩ | ⟨days, rfl, ⟨rest, before, last, rfl, hLarge⟩ |
      ⟨times, rfl, rfl, hLarge⟩⟩ := ofParts_eq_overflow hRead
    · -- A component before the `T`: what follows it has not been looked at.
      refine ⟨⟨sign, designator, before ++ [last], none, [], hDesignates, nofun, fun _ => rfl⟩,
        rest ++ mark.toList ++ timePart, ?_, Or.inl ⟨before, last, ?_, ?_⟩⟩
      · simp [DurationText.text, Component.rowText]
      · exact List.append_nil _
      · rwa [Int.zero_add, ← List.append_nil (before ++ [last])] at hLarge
    · -- A component behind the `T`.
      have hUnmarked : mark = none → before ++ [last] = [] := fun h =>
        Component.eq_nil_of_rowText (List.append_eq_nil_iff.1 (hMark.1 h)).1
      refine ⟨⟨sign, designator, days, mark, before ++ [last], hDesignates, hMarks, hUnmarked⟩,
        rest, ?_, Or.inl ⟨days ++ before, last, ?_, ?_⟩⟩
      · simp [DurationText.text]
      · exact (List.append_assoc _ _ _).symm
      · rwa [← Component.total_append] at hLarge
    · -- The sum of all components, turned round.
      have hUnmarked : mark = none → times = [] := fun h => Component.eq_nil_of_rowText (hMark.1 h)
      exact ⟨⟨.minus, designator, days, mark, times, hDesignates, hMarks, hUnmarked⟩, [],
        (List.append_nil _).symm, Or.inr ⟨rfl, rfl, hLarge⟩⟩

/-- In `-P1DT-0.5S` a sign stands before the whole, the fraction and nothing else; one day more than
64 bits of seconds hold is an overflow. -/
theorem read_exact_at_bounds :
    (∃ d, read "-P1DT-0.5S".toList = .ok d ∧ d.nanoseconds = -86399500000000 ∧
      ∃ written : DurationText, "-P1DT-0.5S".toList = written.text ∧
        d.nanoseconds = written.sign.apply (Component.total written.components)) ∧
    (∃ fault, read "P106751991167301D".toList = .error fault ∧
      fault.message = "duration overflow" ∧
      ∃ (written : DurationText) (rest : List Char),
        "P106751991167301D".toList = written.text ++ rest) := by
  constructor
  · have hRead : (read "-P1DT-0.5S".toList).map nanoseconds = .ok (-86399500000000) := by
      decide +kernel
    obtain ⟨d, hd, hNanoseconds⟩ := Except.map_eq_ok.1 hRead
    obtain ⟨written, hText, hSum, -⟩ := (read_exact "-P1DT-0.5S").1 d hd
    exact ⟨d, hd, hNanoseconds, written, hText, hSum⟩
  · have hRead : read "P106751991167301D".toList = .error (.overflow .duration) :=
      Except.eq_error_of_failsWith (by decide +kernel)
    obtain ⟨written, rest, hText, -⟩ := (read_exact "P106751991167301D").2 _ hRead rfl
    exact ⟨_, hRead, rfl, written, rest, hText⟩

/-- **The grammar of a duration.**  Components before the `T` are days, those behind it are hours,
minutes and seconds in this order and at most once each.  There is at least one component, a `T` is
followed by one, and only seconds have a point. -/
theorem read_grammar (raw : String) (d : Duration) (hRead : read raw.toList = .ok d) :
    ∃ written : DurationText, raw.toList = written.text ∧
      (∀ component ∈ written.days, component.unit = .day) ∧
      (written.times.map Component.unit).Sublist [.hour, .minute, .second] ∧
      written.components ≠ [] ∧ (written.mark ≠ none → written.times ≠ []) ∧
      (∀ component ∈ written.components,
        component.number.places ≠ none → component.unit = .second) := by
  obtain ⟨fault, hFault, -⟩ | ⟨sign, designator, dayPart, mark, timePart, hDesignates, hMarks,
    hMark, hText, hParts⟩ := read_cases raw.toList
  · rw [hRead] at hFault
    cases hFault
  rw [hRead] at hParts
  obtain ⟨days, times, rfl, rfl, -, hDays, hTimes, hSome⟩ := ofParts_eq_ok hParts.symm
  have hUnmarked : mark = none → times = [] := fun h => Component.eq_nil_of_rowText (hMark.1 h)
  refine ⟨⟨sign, designator, days, mark, times, hDesignates, hMarks, hUnmarked⟩, hText, hDays,
    hTimes, hSome, ?_, fun component _ => component.whole⟩
  rintro hMarked rfl
  exact hMarked (hMark.2 rfl)

/-- The grammar holds of `P1D2DT3H4.5S`. -/
theorem read_grammar_days_and_time :
    ∃ d, read "P1D2DT3H4.5S".toList = .ok d ∧
      ∃ written : DurationText, "P1D2DT3H4.5S".toList = written.text ∧
        (∀ component ∈ written.days, component.unit = .day) ∧
        (written.times.map Component.unit).Sublist [.hour, .minute, .second] := by
  obtain ⟨d, hRead⟩ := Except.exists_eq_ok
    (by decide +kernel : (read "P1D2DT3H4.5S".toList).isOk = true)
  obtain ⟨written, hText, hDays, hTimes, -⟩ := read_grammar "P1D2DT3H4.5S" d hRead
  exact ⟨d, hRead, written, hText, hDays, hTimes⟩

/-- Days can be given twice: `P1D2D` is read, as three days. -/
theorem read_days_twice :
    "P1D2D".toList.count 'D' = 2 ∧
      ∃ d, read "P1D2D".toList = .ok d ∧ d.nanoseconds = 3 * 86400 * nanosecondsPerSecond := by
  have hRead : (read "P1D2D".toList).map nanoseconds = .ok (3 * 86400 * nanosecondsPerSecond) := by
    decide +kernel
  exact ⟨by decide, Except.map_eq_ok.1 hRead⟩

end Duration

end PolicyText
