import PolicyText.Proofs.Build.Append
import PolicyText.Proofs.Build.Located
import PolicyText.Proofs.Scan.Shifted

/-!
# Reading does not depend on where a text begins

Fillers in front of a text move it, and do nothing else: the readers pass over them and then read
what they read of the text alone, at places that lie further on by the number of the fillers.

While arguments are collected, positions are used for the two errors about a command that cannot
stand where it does.  All else that can be wrong is said without one (`Unplaced`), and a step that
knows no positions can stand anywhere (`Unplaced.bind_shift`).  So collecting shifts as scanning
does (`collect_shift`), and with it the reading of an expression.

The limit for the length is the one thing that counts from the beginning, and has to be absent.
-/

namespace PolicyText

/-! ## Shifted errors -/

/-- Of two errors the second is the first one, found a number of characters further on: it belongs
to the same class and concerns the same keyword; it is the same error if no position is told, and
otherwise tells a position that is larger by the number, and its message differs there and nowhere
else. -/
structure ParseError.IsShifted (n : Nat) (e shifted : ParseError) : Prop where
  classOf : shifted.classOf = e.classOf
  keyword : shifted.keyword? = e.keyword?
  position : shifted.position? = e.position?.map (n + ·)
  same : e.position? = none → shifted = e
  message : ∀ position ∈ e.position?, ∃ front back,
    e.message = front ++ toString position ++ back ∧
      shifted.message = front ++ toString (n + position) ++ back

/-- A message tells the position between two parts that do not depend on it. -/
lemma ParseError.message_shift {e : ParseError} {position : Nat} (h : e.position? = some position)
    (n : Nat) : ∃ front back, e.message = front ++ toString position ++ back ∧
      (e.shift n).message = front ++ toString (n + position) ++ back := by
  have hEnd (front : String) (p : Nat) : front ++ toString p = front ++ toString p ++ "" :=
    String.append_empty.symm
  rw [message.eq_def, message.eq_def]
  cases e with
  | inputTooShort | unterminatedLiteral | missingTerminator | trailingInput | unknownCommand
  | emptyOptionKey | depthExceeded =>
    cases h
    exact ⟨_, "", hEnd _ _, hEnd _ _⟩
  | notStarted | notCompleted | missingGroupOpen | nestedInReference =>
    cases h
    dsimp only [shift]
    exact ⟨_, _, rfl, rfl⟩
  | ambiguousCommand | referenceArity =>
    cases h
    dsimp only [shift]
    exact ⟨_, _, String.append_assoc, String.append_assoc⟩
  | unexpectedChild =>
    cases h
    dsimp only [shift]
    simp only [← String.append_assoc]
    exact ⟨_, "", hEnd _ _, hEnd _ _⟩
  | _ => cases h

lemma ParseError.isShifted_shift (n : Nat) (e : ParseError) : e.IsShifted n (e.shift n) where
  classOf := by cases e <;> rfl
  keyword := by cases e <;> rfl
  position := by cases e <;> rfl
  same := fun h => shift_of_position?_eq_none h n
  message := fun _ h => message_shift h n

lemma Unplaced.shiftOutcome_eq {α : Type} {outcome : Except ParseError α} (h : Unplaced outcome)
    (n : Nat) : shiftOutcome n id outcome = outcome := by
  cases outcome with
  | ok a => rfl
  | error e => rw [shiftOutcome_error, ParseError.shift_of_position?_eq_none (h e rfl)]

lemma Unplaced.bind_shift {α β γ : Type} {first : Except ParseError α} (h : Unplaced first)
    {n : Nat} {change : β → γ} {next : α → Except ParseError β} {shifted : α → Except ParseError γ}
    (hNext : ∀ a, shifted a = shiftOutcome n change (next a)) :
    first >>= shifted = shiftOutcome n change (first >>= next) := by
  have hSteps := @shiftOutcome_bind _ _ _ _ n id change first next shifted hNext
  rwa [h.shiftOutcome_eq] at hSteps

/-! ## Collecting -/

variable (n : Nat) (limits : Limits)

lemma Limits.enter_shift (depth position : Nat) :
    limits.enter depth (n + position) = shiftOutcome n id (limits.enter depth position) := by
  unfold Limits.enter
  split
  · split <;> rfl
  · rfl

/-- Arguments are collected alike further on. -/
lemma collect_shift (depth : Nat) (parent : Command) (arguments : Arguments) :
    collect limits depth parent (arguments.shift n)
      = shiftOutcome n id (collect limits depth parent arguments) := by
  induction arguments generalizing depth parent with
  | closed => rfl
  | fault error => rfl
  | content text rest ih =>
    rw [Arguments.shift, collect_content, collect_content, ih]
    exact shiftOutcome_bind fun _ => rfl
  | options raw rest ih =>
    rw [Arguments.shift, collect_options, collect_options, ih]
    exact (unplaced_ofRaw raw).bind_shift fun _ => shiftOutcome_bind fun _ => rfl
  | reference entries rest ih =>
    rw [Arguments.shift, collect_reference, collect_reference, ih]
    exact (unplaced_resolveReference parent entries).bind_shift fun _ =>
      shiftOutcome_bind fun _ => rfl
  | command position child inner rest ihInner ih =>
    rw [Arguments.shift, collect_command, collect_command, ihInner, ih, Limits.enter_shift]
    by_cases hAdmits : parent.admits child
    · simp only [if_pos hAdmits]
      exact shiftOutcome_bind fun _ => shiftOutcome_bind fun args =>
        (unplaced_complete child args).bind_shift fun _ => shiftOutcome_bind fun _ => rfl
    · simp only [if_neg hAdmits]
      rfl

/-! ## Expressions -/

lemma readCommand_shift (command : Command) (c opened : Cursor) :
    readCommand limits command (c.shift n) (opened.shift n)
      = shiftOutcome n (Prod.map id (Cursor.shift n)) (readCommand limits command c opened) := by
  simp only [readCommand, Cursor.position_shift, Cursor.advance_shift, readArguments_shift,
    Prod.map, collect_shift, Limits.enter_shift]
  exact shiftOutcome_bind fun _ => shiftOutcome_bind fun args =>
    (unplaced_checkCount command args).bind_shift fun _ =>
      (unplaced_build command args).bind_shift fun _ => shiftOutcome_bind fun _ => rfl

lemma readExpression_shift (category : Category) (c : Cursor) :
    readExpression limits category (c.shift n)
      = shiftOutcome n (Prod.map id (Cursor.shift n)) (readExpression limits category c) := by
  rw [readExpression, readExpression, scanKeyword_shift]
  refine shiftOutcome_bind fun found => ?_
  obtain ⟨command, opened⟩ := found
  simp only [Prod.map, id]
  by_cases hAccepts : category.accepts command.kind = true
  · simp only [if_pos hAccepts]
    exact readCommand_shift n limits command c opened
  · simp only [if_neg hAccepts]
    rfl

lemma Cursor.expectEnd_shift (c : Cursor) :
    (c.shift n).expectEnd = shiftOutcome n id c.expectEnd := by
  unfold Cursor.expectEnd
  rw [rest_shift]
  split <;> rfl

/-! ## Whole texts -/

lemma Cursor.first_append {pad : List Char} (hPad : ∀ d ∈ pad, isFiller d = true)
    (text : List Char) :
    (Cursor.start (pad ++ text)).skipFiller = (Cursor.start text).skipFiller.shift pad.length := by
  rw [start, skipFiller, skipWhile_append_of_all 0 text hPad, Nat.zero_add, ← skipFiller_shift]
  rfl

variable {limits} {pad text : List Char}

lemma parseNode_shift (hLength : limits.maxInputLength = none)
    (hPad : ∀ d ∈ pad, isFiller d = true) (category : Category) :
    parseNode limits category (pad ++ text)
      = shiftOutcome pad.length id (parseNode limits category text) := by
  rw [parseNode_eq, parseNode_eq, Limits.checkLength_of_none hLength,
    Limits.checkLength_of_none hLength, Cursor.first_append hPad, readExpression_shift]
  refine shiftOutcome_bind fun found => ?_
  obtain ⟨node, last⟩ := found
  simp only [Prod.map, Cursor.expectEnd_shift]
  exact shiftOutcome_bind fun _ => rfl

lemma parse_options_shift {pad : String} (hLength : limits.maxInputLength = none)
    (hPad : ∀ d ∈ pad.toList, isFiller d = true) (text : String) :
    Options.parse limits (pad ++ text)
      = shiftOutcome pad.length id (Options.parse limits text) := by
  simp only [Options.parse, String.toList_append, ← String.length_toList,
    Limits.checkLength_of_none hLength, Cursor.first_append hPad, scanKeyword_shift, Except.ok_bind]
  refine shiftOutcome_bind fun found => ?_
  obtain ⟨command, opened⟩ := found
  simp only [Prod.map, id]
  by_cases hOptions : command = .options
  · simp only [if_pos hOptions, scanOptions_shift]
    refine shiftOutcome_bind fun found => ?_
    obtain ⟨raw, last⟩ := found
    simp only [Prod.map, Cursor.expectEnd_shift]
    exact shiftOutcome_bind fun _ => ((unplaced_ofRaw raw).shiftOutcome_eq _).symm
  · simp only [if_neg hOptions]
    rfl

/-- **Parsing does not depend on where a text begins.**  Let there be no limit for the length, and
let fillers be put before a text, whatever they are and however many.  Then each of the readers,
that of option lists included, reads the same object as from the text alone, and reads something
exactly if it does so there.  Otherwise it fails with the same error: if a position is told, it is
larger by the number of the fillers and the message differs in this position only, and if none is
told, it is the error itself. -/
theorem parse_shifted (limits : Limits) (pad text : String)
    (hLength : limits.maxInputLength = none) (hPad : ∀ d ∈ pad.toList, isFiller d = true) :
    (∀ category : Category,
      (∀ x, category.parse limits (pad ++ text) = .ok x ↔ category.parse limits text = .ok x) ∧
        ∀ e, category.parse limits text = .error e →
          category.parse limits (pad ++ text) = .error (e.shift pad.length) ∧
            e.IsShifted pad.length (e.shift pad.length)) ∧
      (∀ o, Options.parse limits (pad ++ text) = .ok o ↔ Options.parse limits text = .ok o) ∧
        ∀ e, Options.parse limits text = .error e →
          Options.parse limits (pad ++ text) = .error (e.shift pad.length) ∧
            e.IsShifted pad.length (e.shift pad.length) := by
  have hOptions := parse_options_shift hLength hPad text
  refine ⟨fun category => ⟨fun x => ?_, fun e h => ⟨?_, e.isShifted_shift _⟩⟩,
    fun o => ?_, fun e h => ⟨?_, e.isShifted_shift _⟩⟩
  · rw [Category.parse_eq_ok, Category.parse_eq_ok, String.toList_append,
      parseNode_shift hLength hPad, shiftOutcome_id_eq_ok]
  · rw [Category.parse_eq_error] at h ⊢
    rw [String.toList_append, parseNode_shift hLength hPad, h, String.length_toList]
    rfl
  · rw [hOptions, shiftOutcome_id_eq_ok]
  · rw [hOptions, h]
    rfl

/-- Four fillers before a negation, before a command that is not known, before a negation with too
many conditions, and before an option list without a key. -/
theorem parse_shifted_texts :
    (∃ x, Category.condition.parse {} "*not(#true())" = .ok x ∧
      Category.condition.parse {} (" ;é\n" ++ "*not(#true())") = .ok x) ∧
      Category.condition.parse {} (" ;é\n" ++ "*not(*nor(#true()))")
        = .error (.unknownCommand "*nor" 9) ∧
      Category.condition.parse {} (" ;é\n" ++ "*not(#true(), #true())")
        = .error (.tooManyArguments "*not" 1 2) ∧
      Options.parse {} (" ;é\n" ++ "#opts( =a)") = .error (.emptyOptionKey 11) := by
  have hPad : ∀ d ∈ " ;é\n".toList, isFiller d = true := by decide
  obtain ⟨x, hx⟩ := Except.exists_eq_ok
    (by decide +kernel : (Category.condition.parse {} "*not(#true())").isOk = true)
  have hUnknown := Except.eq_error_of_failsWith (by decide +kernel :
    (Category.condition.parse {} "*not(*nor(#true()))").failsWith (.unknownCommand "*nor" 5)
      = true)
  have hTooMany := Except.eq_error_of_failsWith (by decide +kernel :
    (Category.condition.parse {} "*not(#true(), #true())").failsWith
      (.tooManyArguments "*not" 1 2) = true)
  have hKey := Except.eq_error_of_failsWith (by decide +kernel :
    (Options.parse {} "#opts( =a)").failsWith (.emptyOptionKey 7) = true)
  refine ⟨⟨x, hx, ?_⟩, ?_, ?_, ?_⟩
  · exact (((parse_shifted {} " ;é\n" "*not(#true())" rfl hPad).1 .condition).1 x).2 hx
  · exact (((parse_shifted {} " ;é\n" _ rfl hPad).1 .condition).2 _ hUnknown).1
  · exact (((parse_shifted {} " ;é\n" _ rfl hPad).1 .condition).2 _ hTooMany).1
  · exact ((parse_shifted {} " ;é\n" _ rfl hPad).2.2 _ hKey).1

end PolicyText
