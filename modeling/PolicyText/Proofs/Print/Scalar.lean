import PolicyText.Document.Form
import PolicyText.Proofs.Calendar.Notation
import PolicyText.Proofs.Decimal
import PolicyText.Proofs.Print.Literal

/-!
# Scalar literals

Integers, truth values, dates, times of day and decimals have documents that are a single number,
word or string.  The same text stands as a literal without a wrapper, and is read as the same value
(`parse_scalar`).  A number, a date or a time is written with digits, signs, points and colons.  It
can stand bare as long as it does not begin with a colon, which is a filler
(`isBareLiteral_of_head`).
-/

namespace PolicyText

/-! ## Bare numerals -/

/-- The characters with which numbers, dates and times are written. -/
def isNumeral (c : Char) : Bool :=
  c.isDigit || c == '-' || c == '.' || c == ':'

lemma isNumeral_iff {c : Char} :
    isNumeral c = true ↔ c.isDigit = true ∨ c = '-' ∨ c = '.' ∨ c = ':' := by
  simp only [isNumeral, Bool.or_eq_true, beq_iff_eq, or_assoc]

lemma isNumeral_spec {c : Char} (h : isNumeral c = true) :
    Text.isBlank c = false ∧ (c ≠ ',' ∧ c ≠ ')') ∧ c ≠ '\x60' ∧ c ≠ '\x22' := by
  obtain hDigit | rfl | rfl | rfl := isNumeral_iff.1 h
  · have hBlank : Text.isBlank c = false :=
      isBlank_eq_false_of_isAlphanum (by rw [Char.isAlphanum, hDigit, Bool.or_true])
    exact ⟨hBlank, ⟨Text.ne_of_isDigit hDigit rfl, Text.ne_of_isDigit hDigit rfl⟩,
      Text.ne_of_isDigit hDigit rfl, Text.ne_of_isDigit hDigit rfl⟩
  all_goals decide

lemma charClass_of_numeral {c : Char} (h : isNumeral c = true) (hColon : c ≠ ':') :
    CharClass.of c = .content := by
  obtain hDigit | rfl | rfl | rfl := isNumeral_iff.1 h
  · have hOther {d : Char} (hd : d.isDigit = false) : c ≠ d := Text.ne_of_isDigit hDigit hd
    simp [CharClass.of, Char.isAlphanum, hDigit, hOther (d := '#') rfl, hOther (d := '*') rfl,
      hOther (d := '(') rfl, hOther (d := ')') rfl, hOther (d := ',') rfl]
  · rfl
  · rfl
  · exact absurd rfl hColon

lemma isBareLiteral_of_head {text : List Char} (hText : ∀ c ∈ text, isNumeral c = true)
    (hHead : ∃ c ∈ text.head?, c ≠ ':') : IsBareLiteral text := by
  obtain ⟨c, hc, hColon⟩ := hHead
  have hFirst : isNumeral c = true := hText c (List.mem_of_mem_head? hc)
  refine ⟨?_, ?_, ?_, c, hc, (isNumeral_spec hFirst).2.2⟩
  · rw [Option.mem_def.1 hc, Option.map_some, charClass_of_numeral hFirst hColon]
  · exact Text.trimmed_of_forall fun d hd => (isNumeral_spec (hText d hd)).1
  · exact fun d hd => (isNumeral_spec (hText d hd)).2.1

lemma isBareLiteral_of_forall {text : List Char} (hSome : text ≠ [])
    (hText : ∀ c ∈ text, isNumeral c = true ∧ c ≠ ':') : IsBareLiteral text := by
  obtain ⟨c, tail, rfl⟩ := List.exists_cons_of_ne_nil hSome
  exact isBareLiteral_of_head (fun d hd => (hText d hd).1)
    ⟨c, rfl, (hText c List.mem_cons_self).2⟩

/-! ## Numbers, dates and times -/

lemma isNumeral_of_isDigit {c : Char} (h : c.isDigit = true) : isNumeral c = true ∧ c ≠ ':' :=
  ⟨isNumeral_iff.2 (.inl h), Text.ne_of_isDigit h rfl⟩

lemma isBareLiteral_integerText (n : Int) : IsBareLiteral (Text.integerText n) := by
  have hDigits : ∀ c ∈ Text.decimal n.natAbs, isNumeral c = true ∧ c ≠ ':' := fun c hc =>
    isNumeral_of_isDigit (Text.isDigit_of_mem_decimal hc)
  rw [Text.integerText]
  split
  · exact isBareLiteral_of_forall (List.cons_ne_nil _ _)
      (List.forall_mem_cons.2 ⟨by decide, hDigits⟩)
  · exact isBareLiteral_of_forall (Text.decimal_ne_nil _) hDigits

lemma Decimal.isBareLiteral_text (d : Decimal) : IsBareLiteral d.text := by
  refine isBareLiteral_of_forall ?_ fun c hc => ?_
  · intro hNone
    have hRead := d.readPlain_text
    rw [hNone] at hRead
    cases hRead
  · obtain hDigit | rfl | rfl := d.forall_mem_text c hc
    · exact isNumeral_of_isDigit hDigit
    · decide
    · decide

lemma Date.isBareLiteral_text (d : Date) : IsBareLiteral d.text := by
  have hPadded (width n : Nat) :
      ∀ c ∈ Text.paddedDecimal width n, isNumeral c = true ∧ c ≠ ':' := fun c hc =>
    isNumeral_of_isDigit (Text.isDigit_of_mem_paddedDecimal hc)
  have hSign : ∀ c ∈ if d.year < 0 then ['-'] else [], isNumeral c = true ∧ c ≠ ':' := by
    split <;> decide
  refine isBareLiteral_of_forall (by simp [Date.text]) ?_
  simp only [Date.text, yearText, List.forall_mem_append, List.forall_mem_cons]
  exact ⟨⟨⟨hSign, hPadded _ _⟩, by decide, hPadded _ _⟩, by decide, hPadded _ _⟩

lemma TimeOfDay.isBareLiteral_text (t : TimeOfDay) : IsBareLiteral t.text := by
  have hPadded (n : Nat) : ∀ c ∈ Text.paddedDecimal 2 n, isNumeral c = true := fun c hc =>
    (isNumeral_of_isDigit (Text.isDigit_of_mem_paddedDecimal hc)).1
  have hFraction : ∀ c ∈ fractionText t.nanosecond, isNumeral c = true := fun c hc =>
    (isNumeral_of_isDigit ((fractionText_spec t.nanosecond_lt).1 c hc)).1
  have hText : ∀ c ∈ t.text, isNumeral c = true := by
    simp only [TimeOfDay.text, List.forall_mem_append, List.forall_mem_cons]
    exact ⟨⟨⟨hPadded _, by decide, hPadded _⟩, by decide, hPadded _⟩, by decide, hFraction⟩
  obtain ⟨c, tail, hHour⟩ := List.exists_cons_of_ne_nil (Text.paddedDecimal_ne_nil 2 t.hour)
  have hDigit : c.isDigit = true := by
    refine @Text.isDigit_of_mem_paddedDecimal 2 t.hour c ?_
    rw [hHour]
    exact List.mem_cons_self
  refine isBareLiteral_of_head hText ⟨c, ?_, (isNumeral_of_isDigit hDigit).2⟩
  rw [TimeOfDay.text, hHour]
  rfl

lemma isBareLiteral_boolText (b : Bool) : IsBareLiteral (Json.boolText b) := by
  cases b <;> exact ⟨by decide, by decide, by decide, _, rfl, by decide, by decide⟩

/-! ## Documents as literals -/

/-- The number, truth value or string that stands as the value of a static value in its document. -/
def StaticValue.scalarText (v : StaticValue) : String :=
  match v.content with
  | .string s => s
  | d => d.compactString

lemma StaticValue.parse_scalarText {v : StaticValue} {opening : String} {text : List Char}
    (hOpening : opening = (Command.staticVariable v.type).keyword ++ "(")
    (hBare : IsBareLiteral text)
    (hText : v.scalarText = String.ofList text)
    (hRead : StaticValue.read {} (String.ofList text) v.type = .ok v) :
    Variable.parse {} (opening ++ v.scalarText ++ ")") = .ok (.static { value := v }) := by
  rw [hOpening, hText, Variable.parse_bare (by rwa [String.toList_ofList]), Variable.ofLiteral,
    hRead]

/-- **Scalar texts and scalar documents agree.**  Every integer of 32 or of 64 bits, every truth
value, every date with a year from -9999 to 9999, every time of day with its nanoseconds and every
decimal is read back from the number, word or string that stands for it in its document, written
without a wrapper behind the keyword of its type.  The variable has no metadata and no format. -/
theorem parse_scalar :
    (∀ n : Text.Integer32,
      Variable.parse {} ("#int(" ++ (StaticValue.int n).scalarText ++ ")")
        = .ok (.static { metadata := {}, value := .int n, format := none })) ∧
    (∀ n : Text.Integer64,
      Variable.parse {} ("#long(" ++ (StaticValue.long n).scalarText ++ ")")
        = .ok (.static { metadata := {}, value := .long n, format := none })) ∧
    (∀ b : Bool,
      Variable.parse {} ("#bool(" ++ (StaticValue.boolean b).scalarText ++ ")")
        = .ok (.static { metadata := {}, value := .boolean b, format := none })) ∧
    (∀ d : Date,
      Variable.parse {} ("#date(" ++ (StaticValue.date d).scalarText ++ ")")
        = .ok (.static { metadata := {}, value := .date d, format := none })) ∧
    (∀ t : TimeOfDay,
      Variable.parse {} ("#time(" ++ (StaticValue.time t).scalarText ++ ")")
        = .ok (.static { metadata := {}, value := .time t, format := none })) ∧
    ∀ d : Decimal,
      Variable.parse {} ("#bigD(" ++ (StaticValue.bigDecimal d).scalarText ++ ")")
        = .ok (.static { metadata := {}, value := .bigDecimal d, format := none }) := by
  refine ⟨fun n => ?_, fun n => ?_, fun b => ?_, fun d => ?_, fun t => ?_, fun d => ?_⟩
  · refine StaticValue.parse_scalarText rfl (isBareLiteral_integerText n.value) rfl ?_
    simp only [StaticValue.read, StaticValue.type, String.toList_ofList,
      @Text.readBounded_integerText .int32 (by decide) n, mapFault, Except.map]
  · refine StaticValue.parse_scalarText rfl (isBareLiteral_integerText n.value) rfl ?_
    simp only [StaticValue.read, StaticValue.type, String.toList_ofList,
      @Text.readBounded_integerText .int64 (by decide) n, mapFault, Except.map]
  · refine StaticValue.parse_scalarText rfl (isBareLiteral_boolText b) rfl ?_
    cases b <;> rfl
  · refine StaticValue.parse_scalarText rfl d.isBareLiteral_text rfl ?_
    simp only [StaticValue.read, StaticValue.type, String.toList_ofList, Options.formatFor,
      Date.read, Date.parse_text, mapFault, Except.map]
  · refine StaticValue.parse_scalarText rfl t.isBareLiteral_text rfl ?_
    simp only [StaticValue.read, StaticValue.type, String.toList_ofList, Options.formatFor,
      TimeOfDay.read, TimeOfDay.readStandard_text, mapFault, Except.map]
  · refine StaticValue.parse_scalarText rfl d.isBareLiteral_text rfl ?_
    simp only [StaticValue.read, StaticValue.type, String.toList_ofList, Decimal.read_text,
      mapFault, Except.map]

end PolicyText
