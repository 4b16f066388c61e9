import PolicyText.Calendar.Notation
import PolicyText.Proofs.Calendar.Fields
import PolicyText.Proofs.Outcome
import PolicyText.Proofs.Text.Trim

/-!
# The notations of documents

Dates, times of day and points in time are read back from what they are written as in documents
(`Date.parse_text`, `TimeOfDay.parse_text`, `DateTime.parse_text`), and times of day also where
their fraction is optional (`TimeOfDay.readStandard_text`).  Each part of a notation fills the
fields of its own components and leaves the others as they are, so that a point in time is read part
by part.
-/

namespace PolicyText

open Text

/-! ## Dates -/

lemma Date.bounds (d : Date) :
    d.year.natAbs ≤ 9999 ∧ (1 ≤ d.month ∧ d.month ≤ 12) ∧ 1 ≤ d.day ∧ d.day ≤ 31 := by
  have hValid := d.valid
  simp only [isDate, Bool.and_eq_true, decide_eq_true_eq] at hValid
  obtain ⟨⟨⟨⟨⟨hLeast, hMost⟩, hJanuary⟩, hDecember⟩, hFirst⟩, hLast⟩ := hValid
  have hDays : daysInMonth d.year d.month ≤ 31 := by
    unfold daysInMonth
    split_ifs <;> decide
  exact ⟨by omega, ⟨hJanuary, hDecember⟩, hFirst, Nat.le_trans hLast hDays⟩

/-- A year with its sign is read back. -/
lemma readComponent_yearText (fields : Fields) {year : Int} (hYear : year.natAbs ≤ 9999)
    (rest : List UInt8) :
    fields.readComponent (utf8 (Date.yearText year) ++ rest) (.year .full false .zero false)
      = some ({ fields with year := some year }, rest) := by
  have hAmount : year.natAbs < 10 ^ 4 := Nat.lt_of_le_of_lt hYear (by decide)
  have hRead := readPadded_padded (by decide) hAmount rest
  rw [Fields.readComponent, Fields.readYear]
  by_cases hNegative : year < 0
  · have hSigned := @readSigned_sign false (readPadded .zero 4) _ _ _ _ true hRead
    have hValue : withSign year.natAbs true = year := by
      simp only [withSign, if_true]
      omega
    rw [Date.yearText, if_pos hNegative, List.singleton_append, utf8_cons, List.append_assoc]
    rw [if_pos rfl] at hSigned
    simp only [hSigned, Option.map_some, hValue, Bool.false_eq_true, if_false]
  · have hValue : withSign year.natAbs false = year := by
      simp only [withSign, Bool.false_eq_true, if_false]
      omega
    have hSign := readSign_digits (fun _ hc => @isDigit_of_mem_paddedDecimal 4 year.natAbs _ hc)
      (paddedDecimal_ne_nil _ _) rest
    rw [Date.yearText, if_neg hNegative, List.nil_append]
    simp only [readSigned, hSign, Bool.false_eq_true, if_false, hRead, Option.map_some, hValue]

/-- A date fills the fields of a date. -/
lemma Date.readItems_text (fields : Fields) (d : Date) (bytes : List UInt8)
    (items : List FormatItem) :
    fields.readItems (utf8 d.text ++ bytes) (Date.format ++ items)
      = ({ fields with year := some d.year, month := some d.month, day := some d.day }
          : Fields).readItems bytes items := by
  obtain ⟨hYear, ⟨hJanuary, hDecember⟩, hFirst, hLast⟩ := d.bounds
  have hMonth (f : Fields) (rest : List UInt8) :
      f.readComponent (utf8 (paddedDecimal 2 d.month) ++ rest) (.month .numerical .zero true)
        = some ({ f with month := some d.month }, rest) := by
    rw [Fields.readComponent, Fields.readMonth,
      readBounded_padded hJanuary hDecember (Nat.lt_of_le_of_lt hDecember (by decide))]
    rfl
  have hDay (f : Fields) (rest : List UInt8) :
      f.readComponent (utf8 (paddedDecimal 2 d.day) ++ rest) (.day .zero)
        = some ({ f with day := some d.day }, rest) := by
    rw [Fields.readComponent,
      readBounded_padded hFirst hLast (Nat.lt_of_le_of_lt hLast (by decide))]
    rfl
  have hBytes : utf8 d.text ++ bytes
      = utf8 (yearText d.year) ++ (utf8 ['-'] ++ (utf8 (paddedDecimal 2 d.month) ++
        (utf8 ['-'] ++ (utf8 (paddedDecimal 2 d.day) ++ bytes)))) := by
    rw [Date.text, utf8_append, utf8_append, utf8_cons _ (paddedDecimal 2 d.month),
      utf8_cons _ (paddedDecimal 2 d.day)]
    simp only [List.append_assoc]
  rw [hBytes, Date.format]
  simp only [List.cons_append, List.nil_append, literalItem, paddedItem]
  rw [Fields.readItems_component (readComponent_yearText fields hYear _), Fields.readItems_literal,
    Fields.readItems_component (hMonth _ _), Fields.readItems_literal,
    Fields.readItems_component (hDay _ _)]

lemma Date.ofParts_eq (d : Date) : ofParts d.year d.month d.day = .ok d := by
  rw [ofParts, dif_pos d.valid]

lemma Date.parse_text (d : Date) : Date.parse d.text = .ok d := by
  have hRead := Date.readItems_text {} d [] []
  rw [List.append_nil, List.append_nil] at hRead
  rw [Date.parse, Fields.read, hRead]
  simp only [bind, Except.bind, Fields.readItems, List.isEmpty_nil, if_true, Fields.date,
    Fields.wholeYear, Date.ofParts_eq, orRangeFault]

/-! ## Times of day -/

/-- The places of a fraction of a second: at least one and at most nine digits, which amount to its
nanoseconds. -/
lemma TimeOfDay.fractionText_spec {nanosecond : Nat} (h : nanosecond < 10 ^ 9) :
    (∀ c ∈ fractionText nanosecond, c.isDigit = true) ∧ fractionText nanosecond ≠ [] ∧
      (fractionText nanosecond).length ≤ 9 ∧
      Nat.ofDigitChars 10 (fractionText nanosecond) 0
        * 10 ^ (9 - (fractionText nanosecond).length) = nanosecond := by
  have hLength := length_paddedDecimal (by decide) h
  -- The nine places are those that are written and zeros.
  obtain ⟨zeros, hZeros, hPlaces⟩ : ∃ zeros, (∀ c ∈ zeros, c = '0') ∧
      paddedDecimal 9 nanosecond
        = dropEndWhile (· == '0') (paddedDecimal 9 nanosecond) ++ zeros := by
    refine ⟨(paddedDecimal 9 nanosecond).rtakeWhile (· == '0'), fun c hc => ?_, ?_⟩
    · exact beq_iff_eq.1 (List.mem_rtakeWhile_imp (p := fun c => c == '0') hc)
    · exact (List.rdropWhile_append_rtakeWhile (p := fun c => c == '0')).symm
  have hReplicate : zeros = List.replicate zeros.length '0' := List.eq_replicate_iff.2 ⟨rfl, hZeros⟩
  have hValue : Nat.ofDigitChars 10 (paddedDecimal 9 nanosecond) 0 = nanosecond :=
    ofDigitChars_paddedDecimal 9 nanosecond
  have hCount := congrArg List.length hPlaces
  rw [hLength, List.length_append] at hCount
  rw [hPlaces, Nat.ofDigitChars_append, hReplicate, Nat.ofDigitChars_replicate_zero] at hValue
  unfold fractionText
  split
  · rename_i hNone
    rw [hNone, Nat.ofDigitChars_nil, Nat.mul_zero] at hValue
    exact ⟨List.forall_mem_singleton.2 rfl, by decide, by decide, by rw [← hValue]; decide⟩
  · rename_i hSome
    refine ⟨fun c hc => ?_, hSome, by omega, ?_⟩
    · refine @isDigit_of_mem_paddedDecimal 9 nanosecond c ?_
      rw [hPlaces]
      exact List.mem_append_left _ hc
    · rw [Nat.mul_comm, show 9 - _ = zeros.length by omega]
      exact hValue

/-- A time of day fills the fields of a time of day. -/
lemma TimeOfDay.readItems_text (fields : Fields) (t : TimeOfDay) {bytes : List UInt8}
    (hBytes : StartsNoDigit bytes) (items : List FormatItem) :
    fields.readItems (utf8 t.text ++ bytes) (wholeFormat ++ fractionFormat ++ items)
      = ({ fields with
            hour := some t.hour, minute := some t.minute, second := some t.second,
            nanosecond := some t.nanosecond } : Fields).readItems bytes items := by
  obtain ⟨hDigits, hSome, hNine, hValue⟩ := fractionText_spec t.nanosecond_lt
  have hHour (f : Fields) (rest : List UInt8) :
      f.readComponent (utf8 (paddedDecimal 2 t.hour) ++ rest) (.hour false .zero)
        = some ({ f with hour := some t.hour }, rest) := by
    rw [Fields.readComponent, readBounded_padded (Nat.zero_le _) (Nat.le_of_lt_succ t.hour_lt)
      (Nat.lt_trans t.hour_lt (by decide))]
    rfl
  have hMinute (f : Fields) (rest : List UInt8) :
      f.readComponent (utf8 (paddedDecimal 2 t.minute) ++ rest) (.minute .zero)
        = some ({ f with minute := some t.minute }, rest) := by
    rw [Fields.readComponent, readBounded_padded (Nat.zero_le _) (Nat.le_of_lt_succ t.minute_lt)
      (Nat.lt_trans t.minute_lt (by decide))]
    rfl
  have hSecond (f : Fields) (rest : List UInt8) :
      f.readComponent (utf8 (paddedDecimal 2 t.second) ++ rest) (.second .zero)
        = some ({ f with second := some t.second }, rest) := by
    rw [Fields.readComponent, readBounded_padded (Nat.zero_le _) (Nat.le_of_lt t.second_lt)
      (Nat.lt_trans t.second_lt (by decide))]
    rfl
  have hFraction (f : Fields) :
      f.readComponent (utf8 (fractionText t.nanosecond) ++ bytes) (.subsecond none)
        = some ({ f with nanosecond := some t.nanosecond }, bytes) := by
    rw [Fields.readComponent, readFraction_digits hDigits hSome hNine hBytes, hValue]
    rfl
  have hText : utf8 t.text ++ bytes
      = utf8 (paddedDecimal 2 t.hour) ++ (utf8 [':'] ++ (utf8 (paddedDecimal 2 t.minute) ++
        (utf8 [':'] ++ (utf8 (paddedDecimal 2 t.second) ++ (utf8 ['.'] ++
          (utf8 (fractionText t.nanosecond) ++ bytes)))))) := by
    rw [TimeOfDay.text, utf8_append, utf8_append, utf8_append,
      utf8_cons _ (paddedDecimal 2 t.minute), utf8_cons _ (paddedDecimal 2 t.second),
      utf8_cons _ (fractionText t.nanosecond)]
    simp only [List.append_assoc]
  rw [hText, wholeFormat, fractionFormat]
  simp only [List.cons_append, List.nil_append, literalItem, paddedItem]
  rw [Fields.readItems_component (hHour _ _), Fields.readItems_literal,
    Fields.readItems_component (hMinute _ _), Fields.readItems_literal,
    Fields.readItems_component (hSecond _ _), Fields.readItems_literal,
    Fields.readItems_component (hFraction _)]

lemma TimeOfDay.ofParts_eq (t : TimeOfDay) :
    ofParts t.hour t.minute t.second t.nanosecond = .ok t := by
  rw [ofParts, dif_pos t.hour_lt, dif_pos t.minute_lt, dif_pos t.second_lt,
    dif_pos t.nanosecond_lt]

lemma startsNoDigit_nil : StartsNoDigit [] := by
  intro b hb
  cases hb

lemma TimeOfDay.parse_text (t : TimeOfDay) : TimeOfDay.parse t.text = .ok t := by
  have hRead := TimeOfDay.readItems_text {} t startsNoDigit_nil []
  rw [List.append_nil, List.append_nil] at hRead
  rw [TimeOfDay.parse, Fields.read, hRead]
  simp only [bind, Except.bind, Fields.readItems, List.isEmpty_nil, if_true, Fields.time,
    Fields.wholeHour?, TimeOfDay.ofParts_eq, orRangeFault]

lemma TimeOfDay.readStandard_text (t : TimeOfDay) : TimeOfDay.readStandard t.text = .ok t := by
  have hRead := TimeOfDay.readItems_text {} t startsNoDigit_nil []
  rw [List.append_nil, List.append_nil, Fields.readItems_append] at hRead
  obtain ⟨⟨whole, rest⟩, hWhole, hFraction⟩ := Except.bind_eq_ok.1 hRead
  rw [readStandard, hWhole]
  simp only [bind, Except.bind, hFraction, Fields.time, Fields.wholeHour?, TimeOfDay.ofParts_eq,
    orRangeFault]

/-! ## Points in time -/

lemma Offset.bounds (o : Offset) :
    o.seconds.natAbs / 3600 ≤ 25 ∧ o.seconds.natAbs / 60 % 60 ≤ 59 ∧
      o.seconds.natAbs % 60 ≤ 59 := by
  have hBound := o.seconds_le
  simp only [bound] at hBound
  omega

lemma Offset.isNegativeParts_withSign {hours minutes seconds : Nat} (negative : Bool)
    (hSome : negative = true → 0 < hours ∨ 0 < minutes ∨ 0 < seconds) :
    isNegativeParts (withSign hours negative) (withSign minutes negative)
      (withSign seconds negative) = negative := by
  unfold isNegativeParts withSign
  cases negative with
  | false =>
    simp only [Bool.false_eq_true, if_false]
    split_ifs <;> simp only [decide_eq_false_iff_not] <;> omega
  | true =>
    have hSome := hSome rfl
    simp only [if_true]
    split_ifs <;> simp only [decide_eq_true_eq] <;> omega

/-- The parts of an offset make it up. -/
lemma Offset.ofParts_eq (o : Offset) :
    ofParts (withSign (o.seconds.natAbs / 3600) (decide (o.seconds < 0)))
      (withSign (o.seconds.natAbs / 60 % 60) (decide (o.seconds < 0)))
      (withSign (o.seconds.natAbs % 60) (decide (o.seconds < 0))) = .ok o := by
  obtain ⟨hHours, hMinutes, hSeconds⟩ := o.bounds
  have hAbs (n : Nat) : (withSign n (decide (o.seconds < 0))).natAbs = n := by
    rw [withSign]
    split <;> omega
  have hNegative := @isNegativeParts_withSign (o.seconds.natAbs / 3600)
    (o.seconds.natAbs / 60 % 60) (o.seconds.natAbs % 60) (decide (o.seconds < 0))
    (by rw [decide_eq_true_eq]; omega)
  have hSize : o.seconds.natAbs / 3600 * 3600 + o.seconds.natAbs / 60 % 60 * 60
      + o.seconds.natAbs % 60 = o.seconds.natAbs := by
    omega
  rw [ofParts]
  simp only [hAbs, dif_neg (Nat.not_lt.2 hHours), dif_neg (Nat.not_lt.2 hMinutes),
    dif_neg (Nat.not_lt.2 hSeconds), hNegative, hSize, decide_eq_true_eq]
  congr 1
  rcases o with ⟨seconds, hBound⟩
  congr 1
  simp only
  split <;> omega

/-- An offset fills the fields of an offset. -/
lemma Offset.readItems_text (fields : Fields) (o : Offset) :
    fields.readItems (utf8 o.text) format
      = .ok ({ fields with
            offsetHour := some (o.seconds.natAbs / 3600)
            offsetNegative := decide (o.seconds < 0)
            offsetMinute := some (o.seconds.natAbs / 60 % 60)
            offsetSecond := some (o.seconds.natAbs % 60) }, []) := by
  obtain ⟨hHours, hMinutes, hSeconds⟩ := o.bounds
  have hHour (f : Fields) (rest : List UInt8) :
      f.readComponent
          (utf8 [if decide (o.seconds < 0) then '-' else '+'] ++
            (utf8 (paddedDecimal 2 (o.seconds.natAbs / 3600)) ++ rest)) (.offsetHour true .zero)
        = some ({ f with
            offsetHour := some (o.seconds.natAbs / 3600)
            offsetNegative := decide (o.seconds < 0) }, rest) := by
    rw [Fields.readComponent, readSigned_sign _
      (readBounded_padded (Nat.zero_le _) hHours (Nat.lt_of_le_of_lt hHours (by decide)) rest)]
    rfl
  have hMinute (f : Fields) (rest : List UInt8) :
      f.readComponent (utf8 (paddedDecimal 2 (o.seconds.natAbs / 60 % 60)) ++ rest)
          (.offsetMinute .zero)
        = some ({ f with offsetMinute := some (o.seconds.natAbs / 60 % 60) }, rest) := by
    rw [Fields.readComponent, readBounded_padded (Nat.zero_le _) hMinutes
      (Nat.lt_of_le_of_lt hMinutes (by decide))]
    rfl
  have hSecond (f : Fields) (rest : List UInt8) :
      f.readComponent (utf8 (paddedDecimal 2 (o.seconds.natAbs % 60)) ++ rest)
          (.offsetSecond .zero)
        = some ({ f with offsetSecond := some (o.seconds.natAbs % 60) }, rest) := by
    rw [Fields.readComponent, readBounded_padded (Nat.zero_le _) hSeconds
      (Nat.lt_of_le_of_lt hSeconds (by decide))]
    rfl
  have hText : utf8 o.text
      = utf8 [if decide (o.seconds < 0) then '-' else '+'] ++
        (utf8 (paddedDecimal 2 (o.seconds.natAbs / 3600)) ++ (utf8 [':'] ++
          (utf8 (paddedDecimal 2 (o.seconds.natAbs / 60 % 60)) ++ (utf8 [':'] ++
            (utf8 (paddedDecimal 2 (o.seconds.natAbs % 60)) ++ []))))) := by
    rw [Offset.text, utf8_append, utf8_append, utf8_cons _ (paddedDecimal 2 _),
      utf8_cons ':' (paddedDecimal 2 (o.seconds.natAbs / 60 % 60)),
      utf8_cons ':' (paddedDecimal 2 (o.seconds.natAbs % 60))]
    simp only [List.append_assoc, List.append_nil, decide_eq_true_eq]
  rw [hText, format]
  simp only [literalItem, paddedItem]
  rw [Fields.readItems_component (hHour _ _), Fields.readItems_literal,
    Fields.readItems_component (hMinute _ _), Fields.readItems_literal,
    Fields.readItems_component (hSecond _ _), Fields.readItems]

/-- A point in time is read back from its text. -/
lemma DateTime.parse_text (dt : DateTime) : DateTime.parse dt.text = .ok dt := by
  have hText : utf8 dt.text
      = utf8 dt.date.text ++ (utf8 [' '] ++ (utf8 dt.time.text ++ (utf8 [' '] ++
        utf8 dt.offset.text))) := by
    rw [DateTime.text, utf8_append, utf8_append, utf8_cons ' ' dt.time.text,
      utf8_cons ' ' dt.offset.text]
    simp only [List.append_assoc]
  have hItems : Date.format ++ literalItem ' ' :: TimeOfDay.wholeFormat ++ TimeOfDay.fractionFormat
        ++ literalItem ' ' :: Offset.format
      = Date.format ++ (.literal (utf8 [' ']) ::
        (TimeOfDay.wholeFormat ++ TimeOfDay.fractionFormat ++ (.literal (utf8 [' ']) ::
          Offset.format))) := by
    simp only [List.append_assoc, List.cons_append, literalItem]
  have hBlank : StartsNoDigit (utf8 [' '] ++ utf8 dt.offset.text) := by
    rintro b ⟨⟩
    decide
  rw [DateTime.parse, Fields.read, hText, hItems, Date.readItems_text, Fields.readItems_literal,
    TimeOfDay.readItems_text _ _ hBlank, Fields.readItems_literal, Offset.readItems_text]
  simp only [bind, Except.bind, List.isEmpty_nil, if_true, Fields.dateTime, Fields.date,
    Fields.wholeYear, Date.ofParts_eq, Fields.time, Fields.wholeHour?, TimeOfDay.ofParts_eq,
    Fields.offset, Option.getD_some, Offset.ofParts_eq, orRangeFault]

end PolicyText
