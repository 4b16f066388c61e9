import PolicyText.Proofs.Build.Located
import PolicyText.Proofs.Scan.Unclosed

/-!
# Commands that are reported as not completed

Whichever reader reports that a command was not completed, there is an unclosed command with the
keyword that is reported (`parse_notCompleted`).  The report comes from the scanners: all that is
added while arguments are collected are other errors, and of the faults that the arguments hold at
any depth only the one at which the scanner stopped can be met, since there is no other
(`ReadsArguments.eq_of_hasFault`).

The position that is reported is that of the keyword, except for option lists and references, which
are reported by their parenthesis: `#opts(` is not completed at position 5, where no keyword stands
(`parse_notCompleted_parenthesis`).
-/

namespace PolicyText

/-! ## Faults of arguments -/

/-- Arguments end at a fault, or the arguments of a command among them do. -/
def Arguments.HasFault (e : ParseError) : Arguments → Prop
  | .closed => False
  | .fault error => error = e
  | .content _ rest | .options _ rest | .reference _ rest => rest.HasFault e
  | .command _ _ inner rest => inner.HasFault e ∨ rest.HasFault e

/-- The only fault that arguments have is the one at which the scanner stopped. -/
lemma ReadsArguments.eq_of_hasFault {keyword : String} {start : Nat} {c : Cursor}
    {args : Arguments} {last : Except ParseError Cursor} {e : ParseError}
    (h : ReadsArguments keyword start c args last) (hFault : args.HasFault e) :
    last = .error e := by
  induction h with
  | ended => exact congrArg Except.error hFault
  | closing => cases hFault
  | passed _ _ ih => exact ih hFault
  | stuck => exact congrArg Except.error hFault
  | content _ _ _ ih => exact ih hFault
  | options _ _ _ _ ih => exact ih hFault
  | reference _ _ _ _ ih => exact ih hFault
  | unclosed _ _ _ _ _ ih =>
    obtain hInner | hHere := hFault
    · exact ih hInner
    · exact congrArg Except.error hHere
  | command _ _ _ _ _ _ ihInner ih =>
    obtain hInner | hRest := hFault
    · -- Arguments that are closed have no fault.
      cases ihInner hInner
    · exact ih hRest

section Readers

variable {limits : Limits} {keyword : String} {p : Nat}

lemma Unplaced.ne_notCompleted {α : Type} {outcome : Except ParseError α} (h : Unplaced outcome) :
    outcome ≠ .error (.notCompleted keyword p) := by
  intro hError
  cases h _ hError

lemma Limits.enter_ne_notCompleted {depth position : Nat} :
    limits.enter depth position ≠ .error (.notCompleted keyword p) := by
  intro h
  unfold enter at h
  split at h
  · split at h <;> cases h
  · cases h

/-- A command that is reported while arguments are collected is a fault of the arguments. -/
lemma hasFault_of_collect {depth : Nat} {parent : Command} {arguments : Arguments}
    (h : collect limits depth parent arguments = .error (.notCompleted keyword p)) :
    arguments.HasFault (.notCompleted keyword p) := by
  induction arguments generalizing depth parent with
  | closed => cases h
  | fault error => exact Except.error.inj h
  | content read rest ih =>
    rw [collect_content] at h
    obtain h | ⟨others, -, h⟩ := Except.bind_eq_error.1 h
    · exact ih h
    · cases h
  | options raw rest ih =>
    rw [collect_options] at h
    obtain h | ⟨o, -, h⟩ := Except.bind_eq_error.1 h
    · exact absurd h (unplaced_ofRaw raw).ne_notCompleted
    obtain h | ⟨others, -, h⟩ := Except.bind_eq_error.1 h
    · exact ih h
    · cases h
  | reference entries rest ih =>
    rw [collect_reference] at h
    obtain h | ⟨r, -, h⟩ := Except.bind_eq_error.1 h
    · exact absurd h (unplaced_resolveReference parent entries).ne_notCompleted
    obtain h | ⟨others, -, h⟩ := Except.bind_eq_error.1 h
    · exact ih h
    · cases h
  | command position child inner rest ihInner ih =>
    rw [collect_command] at h
    split at h
    · obtain h | ⟨⟨⟩, -, h⟩ := Except.bind_eq_error.1 h
      · exact absurd h Limits.enter_ne_notCompleted
      obtain h | ⟨innerArgs, -, h⟩ := Except.bind_eq_error.1 h
      · exact Or.inl (ihInner h)
      obtain h | ⟨add, -, h⟩ := Except.bind_eq_error.1 h
      · exact absurd h (unplaced_complete child innerArgs).ne_notCompleted
      obtain h | ⟨others, -, h⟩ := Except.bind_eq_error.1 h
      · exact Or.inr (ih h)
      · cases h
    · cases h

variable {text : List Char}

/-- A command that is reported while an expression is read is unclosed. -/
lemma readExpression_notCompleted {category : Category} {c : Cursor} (hPlace : c.In text)
    (h : readExpression limits category c = .error (.notCompleted keyword p)) :
    IsUnclosedAt text keyword p := by
  obtain h | ⟨⟨command, opened⟩, hKeyword, h⟩ := Except.bind_eq_error.1 h
  · exact absurd h scanKeyword_ne_notCompleted
  have hRead := readsArguments command.keyword c.position (opened.advance 1)
  dsimp only at h
  split at h
  · obtain ⟨-, hReference, hOptions⟩ := Category.ne_of_accepts ‹_›
    have hReaches := Command.Reaches.of_scanKeyword hPlace hKeyword hOptions hReference
    obtain h | ⟨⟨⟩, -, h⟩ := Except.bind_eq_error.1 h
    · exact absurd h Limits.enter_ne_notCompleted
    obtain h | ⟨args, -, h⟩ := Except.bind_eq_error.1 h
    · have hLast := hRead.eq_of_hasFault (hasFault_of_collect h)
      exact hRead.reports hLast rfl hReaches _ _ rfl
    obtain h | ⟨⟨⟩, -, h⟩ := Except.bind_eq_error.1 h
    · exact absurd h (unplaced_checkCount command args).ne_notCompleted
    obtain h | ⟨node, -, h⟩ := Except.bind_eq_error.1 h
    · exact absurd h (unplaced_build command args).ne_notCompleted
    obtain h | ⟨last, -, h⟩ := Except.bind_eq_error.1 h
    · exact hRead.reports h rfl hReaches _ _ rfl
    · cases h
  · cases h

/-- A command that is reported while an option list is read is that option list, and it is
unclosed. -/
lemma Options.isUnclosedAt_of_parse {text : String}
    (h : Options.parse limits text = .error (.notCompleted keyword p)) :
    IsUnclosedAt text.toList keyword p := by
  have hPlace := Cursor.first_in text.toList
  obtain h | ⟨⟨⟩, -, h⟩ := Except.bind_eq_error.1 h
  · exact absurd h (unplaced_checkLength limits _).ne_notCompleted
  obtain h | ⟨⟨command, opened⟩, hKeyword, h⟩ := Except.bind_eq_error.1 h
  · exact absurd h scanKeyword_ne_notCompleted
  dsimp only at h
  split at h
  · rename_i hCommand
    subst hCommand
    obtain h | ⟨⟨raw, last⟩, hOptions, h⟩ := Except.bind_eq_error.1 h
    · obtain ⟨hSame, hRunsOut⟩ := runsOut_of_scanOptions h
      exact isUnclosedAt_of_runsOut hPlace hKeyword (Or.inl rfl) hSame hRunsOut
    obtain h | ⟨⟨⟩, -, h⟩ := Except.bind_eq_error.1 h
    · unfold Cursor.expectEnd at h
      split at h <;> cases h
    · exact absurd h (unplaced_ofRaw raw).ne_notCompleted
  · cases h

end Readers

/-! ## Whole texts -/

/-- **A command that is reported as not completed is not closed.**  Whatever the limits and the
reader, if the error is that a command was not completed, the text has a command with the keyword
that is reported: the keyword stands there, behind fillers follows its opening parenthesis, and on
the way from there over separators, contents, options and closed commands the text comes to its end
before a parenthesis closes the command.  The position that is reported is that of the keyword; for
an option list and a reference it is that of the parenthesis. -/
theorem parse_notCompleted (limits : Limits) (text : String) (keyword : String) (p : Nat) :
    (∀ category : Category, category.parse limits text = .error (.notCompleted keyword p) →
        IsUnclosedAt text.toList keyword p) ∧
      (Options.parse limits text = .error (.notCompleted keyword p) →
        IsUnclosedAt text.toList keyword p) := by
  refine ⟨fun category h => ?_, Options.isUnclosedAt_of_parse⟩
  obtain h | ⟨-, h | ⟨node, last, -, -, hError⟩⟩ :=
    parseNode_eq_error.1 (Category.parse_eq_error.1 h)
  · exact absurd h (unplaced_checkLength limits _).ne_notCompleted
  · exact readExpression_notCompleted (Cursor.first_in text.toList) h
  · cases hError

/-- A nested command behind one that is closed, option lists that end behind a parenthesis that
belongs to a value and behind an equals sign, and a reference of which the only closing parenthesis
stands in a wrapper. -/
theorem parse_notCompleted_nested :
    IsUnclosedAt "*not(*any (#true(), #false( ;".toList "#false" 20 ∧
      IsUnclosedAt "*not(#opts (id=\x22)\x22".toList "#opts" 11 ∧
      IsUnclosedAt "#opts(isJson, id= ".toList "#opts" 5 ∧
      IsUnclosedAt "*not(#ref(\x60)\x60".toList "#ref" 9 := by
  refine ⟨?_, ?_, ?_, ?_⟩
  · exact (parse_notCompleted {} "*not(*any (#true(), #false( ;" _ _).1 .condition
      (Except.eq_error_of_failsWith (by decide +kernel))
  · exact (parse_notCompleted {} "*not(#opts (id=\x22)\x22" _ _).1 .condition
      (Except.eq_error_of_failsWith (by decide +kernel))
  · exact (parse_notCompleted {} "#opts(isJson, id= " _ _).2
      (Except.eq_error_of_failsWith (by decide +kernel))
  · exact (parse_notCompleted {} "*not(#ref(\x60)\x60" _ _).1 .condition
      (Except.eq_error_of_failsWith (by decide +kernel))

/-- The position at which an option list is reported is not that of its keyword. -/
theorem parse_notCompleted_parenthesis :
    Options.parse {} "#opts(" = .error (.notCompleted "#opts" 5) ∧
      ¬ "#opts".toList <+: "#opts(".toList.drop 5 :=
  ⟨Except.eq_error_of_failsWith (by decide +kernel), by decide⟩

end PolicyText
