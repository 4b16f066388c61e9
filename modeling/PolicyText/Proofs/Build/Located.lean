import PolicyText.Proofs.Build.Collect
import PolicyText.Proofs.Build.Readers
import PolicyText.Proofs.Scan.Located

/-!
# Errors tell the truth about positions

Only the scanners and the loop that collects arguments know positions.  Whatever looks at single
values, at options or at the arguments of a command as a whole reports errors without one; `Unplaced`
says this of a computation, it is kept by sequences of steps (`Unplaced.bind`), and every builder is
such a sequence (`unplaced_build`).

So of the errors that are reported while arguments are collected, those that have a position are the
fault at which the arguments end and the two errors about a command that cannot stand where it does.
A command is recognised at its position, and therefore these are located as the others are
(`collect_located`).  The readers add the input that is left behind an expression, and then all
errors of all readers are located (`parse_error_located`).
-/

namespace PolicyText

/-! ## Errors without a position -/

/-- A computation does not know positions: its errors have none. -/
def Unplaced {α : Type} (outcome : Except ParseError α) : Prop :=
  ∀ e, outcome = .error e → e.position? = none

namespace Unplaced

variable {α β : Type}

lemma ok (a : α) : Unplaced (.ok a) := by
  rintro e ⟨⟩

lemma error {e : ParseError} (h : e.position? = none) : Unplaced (.error e : Except ParseError α) := by
  rintro _ ⟨⟩
  exact h

lemma bind {first : Except ParseError α} {next : α → Except ParseError β} (hFirst : Unplaced first)
    (hNext : ∀ a, Unplaced (next a)) : Unplaced (first >>= next) := by
  intro e h
  obtain hError | ⟨a, -, hError⟩ := Except.bind_eq_error.1 h
  · exact hFirst e hError
  · exact hNext a e hError

lemma map {outcome : Except ParseError α} {change : α → β} (h : Unplaced outcome) :
    Unplaced (outcome.map change) :=
  fun e hError => h e (Except.map_eq_error.1 hError)

lemma mapM {f : α → Except ParseError β} (h : ∀ a, Unplaced (f a)) (items : List α) :
    Unplaced (items.mapM f) := by
  induction items with
  | nil => exact ok []
  | cons item rest ih =>
    rw [List.mapM_cons]
    exact (h item).bind fun _ => ih.bind fun _ => ok _

end Unplaced

/-! ## Values and options -/

lemma unplaced_check (form : OptionForm) (key value : String) :
    Unplaced (form.check key value) := by
  have hWord {α : Type} [Literal α] : Unplaced (OptionForm.checkWord α key value) := by
    unfold OptionForm.checkWord
    split
    · exact .ok ()
    · exact .error rfl
  cases form with
  | text | labels => exact .ok ()
  | valueType | valueSource | strategy => exact hWord
  | _ =>
    simp only [OptionForm.check]
    split
    · exact .ok ()
    · exact .error rfl

lemma unplaced_ofRaw (raw : RawOptions) : Unplaced (Options.ofRaw raw) := by
  have hEntries : Unplaced (Options.checkEntries raw) := by
    induction raw with
    | nil => exact .ok ()
    | cons entry rest ih =>
      obtain ⟨key, value⟩ := entry
      unfold Options.checkEntries
      split
      · exact ih
      · split
        · rename_i hCheck
          exact .error (unplaced_check _ key value _ hCheck)
        · exact ih
  unfold Options.ofRaw
  split
  · rename_i hError
    exact .error (hEntries _ hError)
  · exact .ok _

/-- A reference without meaning is refused without a position. -/
lemma unplaced_resolveReference (parent : Command) (entries : List String) :
    Unplaced (parent.resolveReference entries) := by
  unfold Command.resolveReference
  split
  · rename_i hTarget
    unfold entityRefOf at hTarget
    split at hTarget
    · cases hTarget
    · cases hTarget
    · split at hTarget
      · cases hTarget
      · rename_i hVersion
        cases hTarget
        unfold readVersion at hVersion
        split at hVersion
        · cases hVersion
        · cases hVersion
          exact .error rfl
  · split
    · exact .ok _
    · exact .error rfl

/-! ## Arguments as a whole -/

section Arguments

variable (command : Command) (args : Collected)

lemma unplaced_checkCount : Unplaced (command.checkCount args) := by
  unfold Command.checkCount
  split
  · exact .error rfl
  · split
    · split
      · exact .error rfl
      · exact .ok ()
    · exact .ok ()

lemma unplaced_rejectContents : Unplaced (args.rejectContents command) := by
  unfold Collected.rejectContents
  split
  · exact .ok ()
  · exact .error rfl

lemma unplaced_rejectChildren : Unplaced (args.rejectChildren command) := by
  unfold Collected.rejectChildren
  split
  · exact .ok ()
  · exact .error rfl

lemma unplaced_rejectConstraint : Unplaced (args.rejectConstraint command) := by
  unfold Collected.rejectConstraint
  split
  · exact .ok ()
  · exact .error rfl

lemma unplaced_singleContent : Unplaced (args.singleContent command) := by
  unfold Collected.singleContent
  split
  · exact .ok _
  · exact .error rfl

lemma unplaced_singleChild : Unplaced (args.singleChild command) := by
  unfold Collected.singleChild
  split
  · exact .ok _
  · exact .error rfl

lemma unplaced_require {α : Type} (denial : String) (found : Option α) :
    Unplaced (command.require denial found) := by
  cases found with
  | some a => exact .ok a
  | none => exact .error rfl

/-- Whether a child is of the wrong kind is said without a position. -/
lemma unplaced_slot (node : Node) :
    Unplaced (node.variableSlot command) ∧ Unplaced (node.resolverSlot command) ∧
      Unplaced (node.conditionSlot command) ∧ Unplaced (node.actionSlot command) ∧
      Unplaced (node.policySlot command) := by
  refine ⟨?_, ?_, ?_, ?_, ?_⟩
  · unfold Node.variableSlot
    split
    · exact .ok _
    · exact .ok _
    · exact .error rfl
  · unfold Node.resolverSlot
    split
    · exact .ok _
    · exact .ok _
    · exact .error rfl
  · unfold Node.conditionSlot
    split
    · exact .ok _
    · exact .ok _
    · exact .error rfl
  · unfold Node.actionSlot
    split
    · exact .ok _
    · exact .ok _
    · exact .error rfl
  · unfold Node.policySlot
    split
    · exact .ok _
    · exact .ok _
    · exact .error rfl

lemma unplaced_variableSlots :
    Unplaced (args.children.mapM (Node.variableSlot command)) :=
  .mapM (fun node => (unplaced_slot command node).1) _

lemma unplaced_checkMinimum (logic : Logic) : Unplaced (checkMinimum command logic args) := by
  unfold checkMinimum
  split
  · split
    · exact .error rfl
    · split
      · exact .error rfl
      · exact .ok ()
  · exact .ok ()

lemma unplaced_actionKey : Unplaced (actionKey command args) := by
  unfold actionKey
  split
  · exact .error rfl
  · exact .ok _
  · exact .error rfl

lemma unplaced_policyParts (nodes : List Node) : Unplaced (policyParts command nodes) := by
  induction nodes with
  | nil => exact .ok _
  | cons node rest ih =>
    unfold policyParts
    split
    · exact ih.bind fun _ => .ok _
    · exact ih.bind fun _ => .ok _
    · exact ih.bind fun _ => .ok _
    · exact .error rfl

lemma unplaced_setParts (nodes : List Node) : Unplaced (setParts command nodes) := by
  induction nodes with
  | nil => exact .ok _
  | cons node rest ih =>
    unfold setParts
    split
    · exact ih.bind fun _ => .ok _
    · exact ih.bind fun _ => .ok _
    · exact ih.bind fun _ => .ok _
    · exact ih.bind fun _ => .ok _
    · exact .error rfl

end Arguments

/-! ## Builders -/

section Builders

variable (command : Command) (args : Collected)

lemma unplaced_buildStaticVariable : Unplaced (buildStaticVariable command args) := by
  refine (unplaced_rejectChildren command args).bind fun _ =>
    (unplaced_rejectConstraint command args).bind fun _ =>
    (unplaced_singleContent command args).bind fun raw =>
    (unplaced_require command _ _).bind fun type => ?_
  dsimp only
  split
  · exact .error rfl
  · exact .ok _

lemma unplaced_buildResolver : Unplaced (buildResolver command args) :=
  (unplaced_rejectChildren command args).bind fun _ =>
    (unplaced_rejectConstraint command args).bind fun _ =>
    (unplaced_singleContent command args).bind fun _ =>
    (unplaced_require command _ _).bind fun _ => .ok _

lemma unplaced_buildDynamicVariable : Unplaced (buildDynamicVariable command args) :=
  (unplaced_rejectContents command args).bind fun _ =>
    (unplaced_rejectConstraint command args).bind fun _ =>
    (Unplaced.mapM (fun node => (unplaced_slot command node).2.1) _).bind fun _ => .ok _

lemma unplaced_buildAtomic : Unplaced (buildAtomic command args) := by
  refine (unplaced_rejectContents command args).bind fun _ =>
    (unplaced_rejectConstraint command args).bind fun _ =>
    (unplaced_require command _ _).bind fun operation => ?_
  dsimp only
  split
  · exact .error rfl
  · exact (unplaced_variableSlots command args).bind fun _ => .ok _

lemma unplaced_buildComposite : Unplaced (buildComposite command args) :=
  (unplaced_rejectContents command args).bind fun _ =>
    (unplaced_rejectConstraint command args).bind fun _ =>
    (unplaced_require command _ _).bind fun logic =>
    (unplaced_checkMinimum command args logic).bind fun _ =>
    (Unplaced.mapM (fun node => (unplaced_slot command node).2.2.1) _).bind fun _ => .ok _

lemma unplaced_buildConstant : Unplaced (buildConstant command args) :=
  (unplaced_rejectContents command args).bind fun _ =>
    (unplaced_rejectConstraint command args).bind fun _ =>
    (unplaced_require command _ _).bind fun _ => .ok _

lemma unplaced_buildConstraint : Unplaced (buildConstraint args) :=
  (unplaced_rejectContents .constraint args).bind fun _ =>
    (unplaced_rejectConstraint .constraint args).bind fun _ =>
    (unplaced_singleChild .constraint args).bind fun node =>
    (unplaced_slot .constraint node).2.2.1

lemma unplaced_buildAction : Unplaced (buildAction command args) := by
  refine (unplaced_rejectConstraint command args).bind fun _ =>
    (unplaced_actionKey command args).bind fun key =>
    (unplaced_require command _ _).bind fun type => ?_
  split
  · exact .error rfl
  · refine (unplaced_variableSlots command args).bind fun operands => ?_
    split
    · exact .error rfl
    · exact .ok _

lemma unplaced_buildActionLink : Unplaced (buildActionLink command args) :=
  (unplaced_rejectContents command args).bind fun _ =>
    (unplaced_singleChild command args).bind fun node =>
    (unplaced_slot command node).2.2.2.1.bind fun _ => .ok _

lemma unplaced_buildBasicPolicy : Unplaced (buildBasicPolicy command args) := by
  refine (unplaced_rejectContents command args).bind fun _ =>
    (unplaced_require command _ _).bind fun effect =>
    (unplaced_policyParts command args.children).bind fun parts => ?_
  dsimp only
  split
  · exact .ok _
  · exact .error rfl

lemma unplaced_buildPolicySet : Unplaced (buildPolicySet command args) := by
  refine (unplaced_rejectContents command args).bind fun _ =>
    (unplaced_require command _ _).bind fun logic =>
    (unplaced_setParts command args.children).bind fun parts => ?_
  dsimp only
  split
  · exact .error rfl
  · exact .ok _

lemma unplaced_buildDefaultPolicy : Unplaced (buildDefaultPolicy command args) :=
  (unplaced_rejectContents command args).bind fun _ =>
    (unplaced_rejectConstraint command args).bind fun _ =>
    (unplaced_require command _ _).bind fun _ => .ok _

lemma unplaced_buildMember : Unplaced (buildMember command args) :=
  (unplaced_rejectContents command args).bind fun _ =>
    (unplaced_singleChild command args).bind fun node =>
    (unplaced_slot command node).2.2.2.2.bind fun _ => .ok _

lemma unplaced_build : Unplaced (command.build args) := by
  unfold Command.build
  split
  · exact (unplaced_buildStaticVariable command args).map
  · exact (unplaced_buildDynamicVariable command args).map
  · exact (unplaced_buildResolver command args).map
  · exact (unplaced_buildAtomic command args).map
  · exact (unplaced_buildComposite command args).map
  · exact (unplaced_buildConstant command args).map
  · exact (unplaced_buildBasicPolicy command args).map
  · exact (unplaced_buildPolicySet command args).map
  · exact (unplaced_buildDefaultPolicy command args).map
  · exact (unplaced_buildAction command args).map
  · exact (unplaced_buildActionLink command args).map
  · exact (unplaced_buildMember command args).map
  · exact .error rfl
  · exact .error rfl
  · exact .error rfl

lemma unplaced_complete : Unplaced (command.complete args) := by
  refine (unplaced_checkCount command args).bind fun _ => ?_
  unfold Command.attach
  split
  · exact (unplaced_buildConstraint args).map
  · exact (unplaced_build command args).map

end Builders

/-! ## Collecting -/

section Collecting

variable {limits : Limits} {text : List Char} {e : ParseError}

lemma Unplaced.located {α : Type} {outcome : Except ParseError α} (hUnplaced : Unplaced outcome)
    (h : outcome = .error e) : e.Located text :=
  .of_position?_eq_none (hUnplaced e h)

lemma located_of_enter {depth : Nat} {c opened : Cursor} {command : Command} (hPlace : c.In text)
    (hKeyword : scanKeyword c = .ok (command, opened))
    (h : limits.enter depth c.position = .error e) : e.Located text := by
  unfold Limits.enter at h
  split at h
  · split at h
    · cases h
      apply ParseError.Located.of_place hPlace rfl
      refine ⟨(command, opened), ?_⟩
      rw [hPlace.drop_eq]
      exact hKeyword
    · cases h
  · cases h

lemma located_unexpectedChild {parent child : Command} {c opened : Cursor} (hPlace : c.In text)
    (hKeyword : scanKeyword c = .ok (child, opened)) :
    (parent.unexpectedChild child c.position).Located text := by
  apply ParseError.Located.of_place hPlace rfl
  obtain ⟨pad, rest, hPad, hRest, -⟩ := keyword_of_scanKeyword hKeyword
  refine ⟨pad, rest, hPad, ?_⟩
  rw [hPlace.drop_eq]
  exact hRest

/-- What is reported while arguments are collected is located where the arguments are. -/
lemma collect_located {depth : Nat} {parent : Command} {arguments : Arguments}
    (hArguments : arguments.Located text) (h : collect limits depth parent arguments = .error e) :
    e.Located text := by
  induction arguments generalizing depth parent with
  | closed => cases h
  | fault error =>
    cases h
    exact hArguments
  | content read rest ih =>
    rw [collect_content] at h
    obtain h | ⟨others, -, h⟩ := Except.bind_eq_error.1 h
    · exact ih hArguments h
    · cases h
  | options raw rest ih =>
    rw [collect_options] at h
    obtain h | ⟨o, -, h⟩ := Except.bind_eq_error.1 h
    · exact (unplaced_ofRaw raw).located h
    obtain h | ⟨others, -, h⟩ := Except.bind_eq_error.1 h
    · exact ih hArguments h
    · cases h
  | reference entries rest ih =>
    rw [collect_reference] at h
    obtain h | ⟨r, -, h⟩ := Except.bind_eq_error.1 h
    · exact (unplaced_resolveReference parent entries).located h
    obtain h | ⟨others, -, h⟩ := Except.bind_eq_error.1 h
    · exact ih hArguments h
    · cases h
  | command position child inner rest ihInner ih =>
    obtain ⟨⟨c, opened, hPlace, rfl, hKeyword⟩, hInner, hRest⟩ := hArguments
    rw [collect_command] at h
    split at h
    · obtain h | ⟨⟨⟩, -, h⟩ := Except.bind_eq_error.1 h
      · exact located_of_enter hPlace hKeyword h
      obtain h | ⟨innerArgs, -, h⟩ := Except.bind_eq_error.1 h
      · exact ihInner hInner h
      obtain h | ⟨add, -, h⟩ := Except.bind_eq_error.1 h
      · exact (unplaced_complete child innerArgs).located h
      obtain h | ⟨others, -, h⟩ := Except.bind_eq_error.1 h
      · exact ih hRest h
      · cases h
    · cases h
      exact located_unexpectedChild hPlace hKeyword

end Collecting

/-! ## Whole texts -/

section Texts

variable {limits : Limits} {text : List Char} {e : ParseError}

/-- Behind an expression or an option list fillers have been passed over, so that what is left
begins with a character that is none. -/
def Cursor.Settled (c : Cursor) : Prop :=
  ∀ d ∈ c.rest.head?, isFiller d = false

lemma Cursor.settled_skipFiller (c : Cursor) : c.skipFiller.Settled := by
  intro d hd
  have hHead := List.head?_dropWhile_not isFiller c.rest
  rw [show (c.rest.dropWhile isFiller).head? = some d from hd] at hHead
  simpa using hHead

lemma ReadsArguments.settled {keyword : String} {start : Nat} {c : Cursor} {args : Arguments}
    {last : Except ParseError Cursor} (h : ReadsArguments keyword start c args last) :
    ∀ d, last = .ok d → d.Settled := by
  induction h with
  | ended | stuck | unclosed => rintro d ⟨⟩
  | closing =>
    rintro d ⟨⟩
    exact Cursor.settled_skipFiller _
  | passed _ _ ih | content _ _ _ ih | options _ _ _ _ ih | reference _ _ _ _ ih => exact ih
  | command _ _ _ _ _ _ _ ih => exact ih

lemma settled_of_scanOptions {keyword : String} {c last : Cursor} {raw : RawOptions}
    (h : scanOptions keyword c = .ok (raw, last)) : last.Settled := by
  have hEntries {opened : Nat} {before after : RawOptions} {d : Cursor}
      (h : scanOptionEntries keyword opened before d = .ok (after, last)) : last.Settled := by
    fun_induction scanOptionEntries keyword opened before d with
    | case1 | case3 => cases h
    | case2 =>
      cases h
      exact Cursor.settled_skipFiller _
    | case4 _ _ _ _ _ _ _ _ _ _ ih => exact ih h
  unfold scanOptions at h
  split at h
  · exact hEntries h
  · cases h

lemma located_trailingInput {c : Cursor} (hPlace : c.In text) (hSettled : c.Settled)
    (hRest : c.rest ≠ []) : (ParseError.trailingInput c.position).Located text := by
  apply ParseError.Located.of_place hPlace rfl
  obtain ⟨d, tail, hTail⟩ := List.exists_cons_of_ne_nil hRest
  exact ⟨d, hPlace.getElem?_eq hTail, hSettled d (by rw [hTail]; rfl)⟩

lemma unplaced_checkLength (limits : Limits) (text : List Char) :
    Unplaced (limits.checkLength text) := by
  intro e h
  obtain ⟨most, -, -, rfl⟩ := Limits.checkLength_eq_error.1 h
  rfl

/-- An expression that cannot be read is wrong where it is said to be. -/
lemma readExpression_located {category : Category} {c : Cursor} (hPlace : c.In text)
    (h : readExpression limits category c = .error e) : e.Located text := by
  obtain h | ⟨⟨command, opened⟩, hKeyword, h⟩ := Except.bind_eq_error.1 h
  · exact located_of_scanKeyword hPlace h
  obtain ⟨hOpened, -, hAdvance⟩ := leads_of_scanKeyword hKeyword
  have hRead := readsArguments command.keyword c.position (opened.advance 1)
  have hLocated := hRead.located ((hPlace.leads hOpened).leads hAdvance) hPlace.position_le
  dsimp only at h
  split at h
  · obtain h | ⟨⟨⟩, -, h⟩ := Except.bind_eq_error.1 h
    · exact located_of_enter hPlace hKeyword h
    obtain h | ⟨args, -, h⟩ := Except.bind_eq_error.1 h
    · exact collect_located hLocated.1 h
    obtain h | ⟨⟨⟩, -, h⟩ := Except.bind_eq_error.1 h
    · exact (unplaced_checkCount command args).located h
    obtain h | ⟨node, -, h⟩ := Except.bind_eq_error.1 h
    · exact (unplaced_build command args).located h
    obtain h | ⟨last, -, h⟩ := Except.bind_eq_error.1 h
    · exact hLocated.2 e h
    · cases h
  · cases h
    exact .of_position?_eq_none rfl

lemma readExpression_in {category : Category} {c last : Cursor} {node : Node} (hPlace : c.In text)
    (h : readExpression limits category c = .ok (node, last)) : last.In text ∧ last.Settled := by
  obtain ⟨command, opened, hKeyword, -, -, args, -, -, -, hLast⟩ := readExpression_eq_ok.1 h
  obtain ⟨hOpened, -, hAdvance⟩ := leads_of_scanKeyword hKeyword
  have hRead := readsArguments command.keyword c.position (opened.advance 1)
  have hInside := (hPlace.leads hOpened).leads hAdvance
  exact ⟨hInside.leads (hRead.leads last hLast), hRead.settled last hLast⟩

lemma Cursor.first_in (text : List Char) : (Cursor.start text).skipFiller.In text :=
  Cursor.leads_skipFiller _

lemma parseNode_located {category : Category} (h : parseNode limits category text = .error e) :
    e.Located text := by
  obtain h | ⟨-, h | ⟨node, last, hRead, hRest, rfl⟩⟩ := parseNode_eq_error.1 h
  · exact (unplaced_checkLength limits text).located h
  · exact readExpression_located (Cursor.first_in text) h
  · obtain ⟨hPlace, hSettled⟩ := readExpression_in (Cursor.first_in text) hRead
    exact located_trailingInput hPlace hSettled hRest

/-- An option list that is refused is wrong where it is said to be. -/
lemma Options.parse_located {text : String} (h : Options.parse limits text = .error e) :
    e.Located text.toList := by
  have hPlace := Cursor.first_in text.toList
  obtain h | ⟨⟨⟩, -, h⟩ := Except.bind_eq_error.1 h
  · exact (unplaced_checkLength limits _).located h
  obtain h | ⟨⟨command, opened⟩, hKeyword, h⟩ := Except.bind_eq_error.1 h
  · exact located_of_scanKeyword hPlace h
  have hOpened := hPlace.leads (leads_of_scanKeyword hKeyword).1
  dsimp only at h
  split at h
  · obtain h | ⟨⟨raw, last⟩, hOptions, h⟩ := Except.bind_eq_error.1 h
    · exact located_of_scanOptions hOpened h
    obtain h | ⟨⟨⟩, -, h⟩ := Except.bind_eq_error.1 h
    · unfold Cursor.expectEnd at h
      split at h
      · cases h
      · rename_i hRest
        cases h
        exact located_trailingInput (hOpened.leads (leads_of_scanOptions hOptions))
          (settled_of_scanOptions hOptions) fun hNil => hRest (List.isEmpty_iff.2 hNil)
    · exact (unplaced_ofRaw raw).located h
  · cases h
    exact .of_position?_eq_none rfl

end Texts

/-- **Positions in errors tell the truth about the input.**  Whatever the limits, an error with which
an expression of any category or an option list is refused is located in the text: what it says
about its position holds of the text there (`ParseError.IsTrueOf`), and no position lies behind the
end of the text. -/
theorem parse_error_located (limits : Limits) (text : String) (e : ParseError) :
    (∀ category : Category, category.parse limits text = .error e → e.Located text.toList) ∧
      (Options.parse limits text = .error e → e.Located text.toList) :=
  ⟨fun _ h => parseNode_located (Category.parse_eq_error.1 h), Options.parse_located⟩

/-- Texts that are refused with an error that has a position, one for every such error that is
reported. -/
theorem parse_error_located_texts :
    (ParseError.inputTooShort 1).Located " #".toList ∧
      (ParseError.unterminatedLiteral "quoted" 5).Located "#str(\x22a".toList ∧
      (ParseError.missingTerminator 5).Located "#str(a".toList ∧
      (ParseError.notCompleted "#true" 0).Located "#true(".toList ∧
      (ParseError.trailingInput 7).Located "#true()x".toList ∧
      (ParseError.unknownCommand "*nor" 5).Located "*not(*nor(#true()))".toList ∧
      (ParseError.missingGroupOpen "*not" 0).Located "*not !".toList ∧
      (ParseError.unexpectedChild "*not" (Command.childrenText (.composite .not)) "#str"
        .staticVariable 5).Located "*not(#str(a))".toList ∧
      (ParseError.emptyOptionKey 7).Located "#opts( =a)".toList ∧
      (ParseError.referenceArity 3 9).Located "*not(#ref(a, b, c))".toList ∧
      (ParseError.nestedInReference 10).Located "*not(#ref(#true()))".toList ∧
      (ParseError.depthExceeded 1 5).Located "*not(#true())".toList := by
  refine ⟨?_, ?_, ?_, ?_, ?_, ?_, ?_, ?_, ?_, ?_, ?_, ?_⟩
  · exact (parse_error_located {} " #" _).1 .condition
      (Except.eq_error_of_failsWith (by decide +kernel))
  · exact (parse_error_located {} "#str(\x22a" _).1 .variable
      (Except.eq_error_of_failsWith (by decide +kernel))
  · exact (parse_error_located {} "#str(a" _).1 .variable
      (Except.eq_error_of_failsWith (by decide +kernel))
  · exact (parse_error_located {} "#true(" _).1 .condition
      (Except.eq_error_of_failsWith (by decide +kernel))
  · exact (parse_error_located {} "#true()x" _).1 .condition
      (Except.eq_error_of_failsWith (by decide +kernel))
  · exact (parse_error_located {} "*not(*nor(#true()))" _).1 .condition
      (Except.eq_error_of_failsWith (by decide +kernel))
  · exact (parse_error_located {} "*not !" _).1 .condition
      (Except.eq_error_of_failsWith (by decide +kernel))
  · exact (parse_error_located {} "*not(#str(a))" _).1 .condition
      (Except.eq_error_of_failsWith (by decide +kernel))
  · exact (parse_error_located {} "#opts( =a)" _).2
      (Except.eq_error_of_failsWith (by decide +kernel))
  · exact (parse_error_located {} "*not(#ref(a, b, c))" _).1 .condition
      (Except.eq_error_of_failsWith (by decide +kernel))
  · exact (parse_error_located {} "*not(#ref(#true()))" _).1 .condition
      (Except.eq_error_of_failsWith (by decide +kernel))
  · exact (parse_error_located { maxDepth := some 1 } "*not(#true())" _).1 .condition
      (Except.eq_error_of_failsWith (by decide +kernel))

end PolicyText
