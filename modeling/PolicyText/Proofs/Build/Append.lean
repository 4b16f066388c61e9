import PolicyText.Proofs.Build.Collect
import PolicyText.Proofs.Build.Readers
import PolicyText.Proofs.Build.Expression
import PolicyText.Proofs.Scan.Larger

/-!
# Appending to a text

When something is appended to a text that can be read, the result stays as long as only fillers are
appended, and otherwise the first other character is one too many.  When something is appended to a
text that cannot be read for a settled reason, it cannot be read for the same reason, told with the
same words and the same position (`parse_append`).

What has been collected from the arguments of a text is collected from those of a larger one
(`Arguments.Continues.collect_kept`), for commands are built in the order of the text, and whatever
is settled lies before all that the larger text adds.
-/

namespace PolicyText

variable {before : Nat} {after : List Char} {limits : Limits}

lemma Limits.enter_kept (limits : Limits) (before depth position : Nat) :
    Kept before (limits.enter depth position) (limits.enter depth (before + position)) := by
  unfold Limits.enter
  split
  · split
    · rintro rfl -
      rw [Nat.zero_add]
    · rfl
  · rfl

/-- What is collected from arguments is collected from those of a larger text. -/
lemma Arguments.Continues.collect_kept {args larger : Arguments} (h : args.Continues before larger)
    (limits : Limits) (depth : Nat) (parent : Command) :
    Kept before (collect limits depth parent args) (collect limits depth parent larger) := by
  induction h generalizing depth parent with
  | closed => exact .refl _ _
  | fault hSame =>
    intro hZero hSettled
    rw [hSame hZero hSettled]
    rfl
  | interrupted text hUnsettled larger => exact .of_unsettled hUnsettled _
  | content text hRest ih =>
    rw [collect_content, collect_content]
    exact (ih depth parent).bind fun _ => .refl _ _
  | options raw hRest ih =>
    rw [collect_options, collect_options]
    exact (Kept.refl _ _).bind fun _ => (ih depth parent).bind fun _ => .refl _ _
  | reference entries hRest ih =>
    rw [collect_reference, collect_reference]
    exact (Kept.refl _ _).bind fun _ => (ih depth parent).bind fun _ => .refl _ _
  | command position child hInner hRest ihInner ih =>
    rw [collect_command, collect_command]
    split
    · exact (limits.enter_kept _ _ _).bind fun _ => (ihInner _ _).bind fun _ =>
        (Kept.refl _ _).bind fun _ => (ih depth parent).bind fun _ => .refl _ _
    · rintro rfl -
      rw [Nat.zero_add]

lemma readCommand_kept (limits : Limits) {command : Command} {c opened : Cursor}
    (h : scanKeyword c = .ok (command, opened)) :
    Kept before
      ((readCommand limits command c opened).map fun found =>
        (found.1, found.2.continued before after))
      (readCommand limits command (c.within before after) (opened.within before after)) := by
  obtain ⟨hArgs, hLast⟩ := (readsArguments command.keyword c.position (opened.advance 1)).continues
    before after (before + c.position)
  rw [← advance_within_of_scanKeyword h] at hArgs hLast
  simp only [readCommand, Except.bind_map]
  refine (limits.enter_kept _ _ _).bind fun _ => (hArgs.collect_kept _ _ _).bind fun _ =>
    (Kept.refl _ _).bind fun _ => (Kept.refl _ _).bind fun node => ?_
  exact hLast.bind_map fun last => .refl _ _

lemma readExpression_kept (limits : Limits) (category : Category) (c : Cursor) :
    Kept before
      ((readExpression limits category c).map fun found =>
        (found.1, found.2.continued before after))
      (readExpression limits category (c.within before after)) := by
  cases hKeyword : scanKeyword c with
  | error e =>
    rw [readExpression, hKeyword]
    exact .of_unsettled (isSettled_of_scanKeyword hKeyword) _
  | ok found =>
    obtain ⟨command, opened⟩ := found
    have hLarger := scanKeyword_within hKeyword before after
    rw [readExpression, readExpression, hKeyword, hLarger]
    simp only [Except.ok_bind]
    split
    · exact readCommand_kept limits hKeyword
    · exact .refl _ _

/-! ## The place behind an expression -/

lemma ReadsArguments.skipFiller_eq {keyword : String} {start : Nat} {c : Cursor} {args : Arguments}
    {last : Except ParseError Cursor} (h : ReadsArguments keyword start c args last) :
    ∀ d, last = .ok d → d.skipFiller = d := by
  induction h with
  | ended | stuck | unclosed => rintro d ⟨⟩
  | closing =>
    rintro d ⟨⟩
    exact Cursor.skipWhile_skipWhile isFiller _
  | passed hClass hRest ih => exact ih
  | content hClass hContent hRest ih => exact ih
  | options hClass hKeyword hOptions hRest ih => exact ih
  | reference hClass hKeyword hReference hRest ih => exact ih
  | command hClass hOptions hReference hKeyword hInner hRest ihInner ih => exact ih

lemma place_of_readExpression {category : Category} {c last : Cursor} {node : Node}
    (h : readExpression limits category c = .ok (node, last)) :
    c.Leads last ∧ last.skipFiller = last := by
  obtain ⟨command, opened, hKeyword, -, -, args, -, -, -, hLast⟩ := readExpression_eq_ok.1 h
  have hRead := readsArguments command.keyword c.position (opened.advance 1)
  obtain ⟨hOpened, -, hAdvance⟩ := leads_of_scanKeyword hKeyword
  exact ⟨(hOpened.trans hAdvance).trans (hRead.leads last hLast), hRead.skipFiller_eq last hLast⟩

lemma position_of_readExpression {category : Category} {text : List Char} {last : Cursor}
    {node : Node}
    (h : readExpression limits category (Cursor.start text).skipFiller = .ok (node, last))
    (hEnd : last.rest = []) : last.position = text.length := by
  have hLeads := (Cursor.leads_skipFiller _).trans (place_of_readExpression h).1
  simpa [hEnd, Cursor.start] using hLeads.position_add

/-! ## Whole texts -/

lemma scanKeyword_of_nil {c : Cursor} (h : c.rest = []) :
    scanKeyword c = .error (.inputTooShort c.position) := by
  rw [scanKeyword, h]
  rfl

lemma readExpression_append (limits : Limits) (category : Category) (text more : List Char) :
    Kept 0
      ((readExpression limits category (Cursor.start text).skipFiller).map fun found =>
        (found.1, found.2.continued 0 more))
      (readExpression limits category (Cursor.start (text ++ more)).skipFiller) := by
  by_cases hFirst : (Cursor.start text).skipFiller.rest = []
  · rw [readExpression, scanKeyword_of_nil hFirst]
    exact .of_unsettled rfl _
  · have hStart : (Cursor.start (text ++ more)).skipFiller
        = (Cursor.start text).skipFiller.within 0 more := Cursor.skipWhile_within hFirst 0 more
    rw [hStart]
    exact readExpression_kept limits category _

variable {category : Category}

lemma Limits.checkLength_of_none (hLength : limits.maxInputLength = none) (text : List Char) :
    limits.checkLength text = .ok () :=
  checkLength_eq_ok (by rw [hLength]; nofun)

/-- Behind a text that is read, more can be read than was there only if it is fillers. -/
lemma parseNode_append_of_ok {text more : List Char} {node : Node}
    (hLength : limits.maxInputLength = none) (h : parseNode limits category text = .ok node) :
    ((∀ d ∈ more, isFiller d = true) → parseNode limits category (text ++ more) = .ok node) ∧
      ∀ pad d rest, more = pad ++ d :: rest → (∀ c ∈ pad, isFiller c = true) →
        isFiller d = false →
        parseNode limits category (text ++ more)
          = .error (.trailingInput (text.length + pad.length)) := by
  obtain ⟨-, last, hRead, hEnd⟩ := parseNode_eq_ok.1 h
  have hLarger := readExpression_append limits category text more
  rw [hRead] at hLarger
  have hCheck := Limits.checkLength_of_none hLength (text ++ more)
  have hPosition := position_of_readExpression hRead hEnd
  have hPlace : last.continued 0 more
      = ⟨text.length + (more.takeWhile isFiller).length, more.dropWhile isFiller⟩ := by
    rw [← hPosition, ← Nat.zero_add last.position]
    exact Cursor.skipWhile_within_of_nil hEnd isFiller 0 more
  refine ⟨fun hMore => ?_, ?_⟩
  · refine parseNode_eq_ok.2 ⟨hCheck, _, hLarger, ?_⟩
    rw [hPlace]
    exact List.dropWhile_eq_nil_iff.2 hMore
  · rintro pad d rest rfl hPad hd
    rw [Text.takeWhile_append_cons hPad hd, Text.dropWhile_append_cons hPad hd] at hPlace
    refine parseNode_eq_error.2 (Or.inr ⟨hCheck, Or.inr ⟨node, _, hLarger, ?_, ?_⟩⟩)
    · rw [hPlace]
      exact List.cons_ne_nil d rest
    · rw [hPlace]

/-- A settled error about a text is the error about the text if it goes on. -/
lemma parseNode_append_of_error {text : List Char} {e : ParseError}
    (hLength : limits.maxInputLength = none) (h : parseNode limits category text = .error e)
    (hSettled : e.isSettled = true) (more : List Char) :
    parseNode limits category (text ++ more) = .error e := by
  have hLarger := readExpression_append limits category text more
  have hCheck := Limits.checkLength_of_none hLength (text ++ more)
  obtain hLong | ⟨-, hRead | ⟨node, last, hRead, hRest, rfl⟩⟩ := parseNode_eq_error.1 h
  · rw [Limits.checkLength_of_none hLength] at hLong
    cases hLong
  · rw [hRead] at hLarger
    exact parseNode_eq_error.2 (Or.inr ⟨hCheck, Or.inl (hLarger rfl hSettled)⟩)
  · rw [hRead] at hLarger
    have hSkipped : last.skipWhile isFiller = last := (place_of_readExpression hRead).2
    have hPlace : last.continued 0 more = last.within 0 more := by
      have hLeft : (last.skipWhile isFiller).rest ≠ [] := by rwa [hSkipped]
      have hWithin := Cursor.skipWhile_within hLeft 0 more
      rwa [hSkipped] at hWithin
    refine parseNode_eq_error.2 (Or.inr ⟨hCheck, Or.inr ⟨node, _, hLarger, ?_, ?_⟩⟩)
    · rw [hPlace]
      exact List.append_ne_nil_of_left_ne_nil hRest more
    · rw [hPlace, Cursor.position_within_zero]

/-- **Results are stable under appended text.**  Let there be no limit for the length.  If something
is read from a text, the same is read if fillers are appended to the text; if other characters are
appended, the first of them is reported as trailing input.  A settled error about a text is also the
error about the text with anything appended to it, and it is told in the same words. -/
theorem parse_append (category : Category) (limits : Limits) (text more : String)
    (hLength : limits.maxInputLength = none) :
    (∀ x, category.parse limits text = .ok x →
      ((∀ d ∈ more.toList, isFiller d = true) →
          category.parse limits (text ++ more) = .ok x) ∧
        ∀ pad d rest, more.toList = pad ++ d :: rest → (∀ c ∈ pad, isFiller c = true) →
          isFiller d = false →
          category.parse limits (text ++ more)
            = .error (.trailingInput (text.length + pad.length))) ∧
      ∀ e : ParseError, e.isSettled = true → category.parse limits text = .error e →
        category.parse limits (text ++ more) = .error e := by
  simp only [Category.parse_eq_ok, Category.parse_eq_error, String.toList_append,
    ← String.length_toList]
  exact ⟨fun x h => parseNode_append_of_ok hLength h,
    fun e hSettled h => parseNode_append_of_error hLength h hSettled more.toList⟩

/-- Behind a negation there can be fillers, but no letter.  A negation with two conditions has one
too many, whatever follows it. -/
theorem parse_append_negation :
    (∃ x, Category.condition.parse {} "*not(#true())" = .ok x ∧
      Category.condition.parse {} ("*not(#true())" ++ " ;") = .ok x ∧
      Category.condition.parse {} ("*not(#true())" ++ " ;x") = .error (.trailingInput 15)) ∧
      Category.condition.parse {} "*not(#true(), #true())"
        = .error (.tooManyArguments "*not" 1 2) ∧
      Category.condition.parse {} ("*not(#true(), #true())" ++ ")")
        = .error (.tooManyArguments "*not" 1 2) := by
  obtain ⟨x, hx⟩ := Except.exists_eq_ok
    (by decide +kernel : (Category.condition.parse {} "*not(#true())").isOk = true)
  have hError := Except.eq_error_of_failsWith (by decide +kernel :
    (Category.condition.parse {} "*not(#true(), #true())").failsWith
      (.tooManyArguments "*not" 1 2) = true)
  have hFillers := ((parse_append .condition {} "*not(#true())" " ;" rfl).1 x hx).1 (by decide)
  have hLetter := ((parse_append .condition {} "*not(#true())" " ;x" rfl).1 x hx).2
    [' ', ';'] 'x' [] rfl (by decide) rfl
  have hTooMany := (parse_append .condition {} "*not(#true(), #true())" ")" rfl).2 _ rfl hError
  exact ⟨⟨x, hx, hFillers, hLetter⟩, hError, hTooMany⟩

end PolicyText
