import PolicyText.Proofs.Build.Collect
import PolicyText.Proofs.Build.Expression
import PolicyText.Proofs.Build.Readers
import PolicyText.Proofs.Build.Refusal
import PolicyText.Proofs.Scan.Occurrences

/-!
# Which errors can be reached

No text leads to an error other than those of `ParseError.CanArise`, and a text that is read has
references and constraints only where the grammar has a place for them (`parse_reachable`).

What the scanner does not report is reported while arguments are collected, and there the induction
carries two facts together: the children that have been collected fit (`collect_fit`), so that the
builder which gets them can refuse them only for a fault that concerns its command
(`collect_error`).
-/

namespace PolicyText

/-! ## Collecting -/

/-- Options that cannot be read have an invalid value or an invalid version. -/
lemma Options.ofRaw_error {raw : RawOptions} {e : ParseError} (h : Options.ofRaw raw = .error e) :
    e.CanArise := by
  have hWord {α : Type} [Literal α] {key value : String}
      (h : OptionForm.checkWord α key value = .error e) : e.CanArise := by
    unfold OptionForm.checkWord at h
    split at h <;> cases h
    trivial
  have hForm {form : OptionForm} {key value : String}
      (h : form.check key value = .error e) : e.CanArise := by
    cases form with
    | text | labels => cases h
    | valueType | valueSource | strategy => exact hWord h
    | _ =>
      simp only [OptionForm.check] at h
      split at h <;> cases h
      trivial
  have hEntries : Options.checkEntries raw = .error e := by
    unfold Options.ofRaw at h
    split at h <;> cases h
    assumption
  clear h
  induction raw with
  | nil => cases hEntries
  | cons entry rest ih =>
    obtain ⟨key, value⟩ := entry
    rw [Options.checkEntries] at hEntries
    split at hEntries
    · exact ih hEntries
    · split at hEntries
      · rename_i hCheck
        cases hEntries
        exact hForm hCheck
      · exact ih hEntries

lemma Command.resolveReference_error {parent : Command} {entries : List String} {e : ParseError}
    (h : parent.resolveReference entries = .error e) : e.CanArise := by
  unfold resolveReference at h
  split at h
  · rename_i hTarget
    cases h
    unfold entityRefOf at hTarget
    split at hTarget
    · cases hTarget
    · cases hTarget
    · split at hTarget
      · cases hTarget
      · rename_i hVersion
        cases hTarget
        unfold readVersion at hVersion
        split at hVersion <;> cases hVersion
        trivial
  · split at h <;> cases h
    trivial

lemma Limits.enter_error {limits : Limits} {depth position : Nat} {e : ParseError}
    (h : limits.enter depth position = .error e) : e.CanArise := by
  unfold Limits.enter at h
  split at h
  · split at h <;> cases h
    trivial
  · cases h

lemma Command.checkCount_error {command : Command} {args : Collected} {e : ParseError}
    (h : command.checkCount args = .error e) : e.CanArise := by
  unfold checkCount at h
  split at h
  · cases h
    trivial
  · split at h
    · split at h <;> cases h
      trivial
    · cases h

lemma Command.referenceKind?_of_resolveReference {parent : Command} {entries : List String}
    {r : Reference} (h : parent.resolveReference entries = .ok r) :
    parent.kind.referenceKind? = some r.kind := by
  unfold resolveReference at h
  split at h
  · cases h
  · split at h <;> cases h
    assumption

lemma Node.fits_of_build {parent child : Command} {args : Collected} {node : Node}
    (hAccepts : parent.accepts child.kind = true) (hReference : child ≠ .reference)
    (h : child.build args = .ok node) : node.Fits parent := by
  have hKind := Command.kind_of_build h
  rw [← hKind] at hAccepts
  cases node with
  | reference r =>
    cases child with
    | reference => exact absurd rfl hReference
    | _ => cases hKind
  | _ => exact hAccepts

lemma Collected.Fit.add {parent child : Command} {args innerArgs : Collected}
    {add : Collected → Collected} (hArgs : args.Fit parent) (hAdmits : parent.admits child)
    (hReference : child ≠ .reference) (h : child.complete innerArgs = .ok add) :
    (add args).Fit parent := by
  obtain ⟨⟨⟩, -, hAttach⟩ := Except.bind_eq_ok.1 h
  obtain ⟨slot, -, -, rfl⟩ | ⟨node, hConstraint, hBuild, rfl⟩ := Command.attach_eq_ok hAttach
  · exact hArgs
  · have hAccepts := hAdmits.resolve_left hConstraint
    exact List.forall_mem_cons.2 ⟨Node.fits_of_build hAccepts hReference hBuild, hArgs⟩

/-- The children that are collected are let through. -/
lemma collect_fit {limits : Limits} {depth : Nat} {parent : Command} {arguments : Arguments}
    {args : Collected} (hSound : arguments.Sound)
    (h : collect limits depth parent arguments = .ok args) : args.Fit parent := by
  induction arguments generalizing depth args with
  | closed =>
    cases h
    exact List.forall_mem_nil _
  | fault error => cases h
  | content text rest ih =>
    rw [collect_content] at h
    obtain ⟨others, hRest, h⟩ := Except.bind_eq_ok.1 h
    cases h
    have hOthers := ih hSound hRest
    exact hOthers
  | options raw rest ih =>
    rw [collect_options] at h
    obtain ⟨o, -, h⟩ := Except.bind_eq_ok.1 h
    obtain ⟨others, hRest, h⟩ := Except.bind_eq_ok.1 h
    cases h
    have hOthers := ih hSound hRest
    exact hOthers
  | reference entries rest ih =>
    rw [collect_reference] at h
    obtain ⟨r, hReference, h⟩ := Except.bind_eq_ok.1 h
    obtain ⟨others, hRest, h⟩ := Except.bind_eq_ok.1 h
    cases h
    exact List.forall_mem_cons.2
      ⟨Command.referenceKind?_of_resolveReference hReference, ih hSound hRest⟩
  | command position child inner rest _ ih =>
    obtain ⟨-, hReference, -, hRestSound⟩ := hSound
    obtain ⟨hAdmits, -, innerArgs, add, others, -, hComplete, hRest, rfl⟩ :=
      collect_command_eq_ok.1 h
    exact (ih hRestSound hRest).add hAdmits hReference hComplete

lemma Command.complete_error {command : Command} {args : Collected} {e : ParseError}
    (hFit : args.Fit command) (hOptions : command ≠ .options) (hReference : command ≠ .reference)
    (h : command.complete args = .error e) : e.CanArise := by
  rcases Except.bind_eq_error.1 h with hCount | ⟨⟨⟩, hCount, hAttach⟩
  · exact Command.checkCount_error hCount
  unfold attach at hAttach
  split at hAttach <;> rename_i hConstraint <;> have hBuild := Except.map_eq_error.1 hAttach
  · subst hConstraint
    exact buildConstraint_error hFit hCount hBuild
  · exact Command.build_error hFit hCount hConstraint hReference hOptions hBuild

/-- What is reported while arguments are collected can arise. -/
lemma collect_error {limits : Limits} {depth : Nat} {parent : Command} {arguments : Arguments}
    {e : ParseError} (hSound : arguments.Sound)
    (h : collect limits depth parent arguments = .error e) : e.CanArise := by
  induction arguments generalizing depth parent with
  | closed => cases h
  | fault error =>
    cases h
    exact hSound
  | content text rest ih =>
    rw [collect_content] at h
    rcases Except.bind_eq_error.1 h with h | ⟨others, -, h⟩
    · exact ih hSound h
    · cases h
  | options raw rest ih =>
    rw [collect_options] at h
    rcases Except.bind_eq_error.1 h with h | ⟨o, -, h⟩
    · exact Options.ofRaw_error h
    rcases Except.bind_eq_error.1 h with h | ⟨others, -, h⟩
    · exact ih hSound h
    · cases h
  | reference entries rest ih =>
    rw [collect_reference] at h
    rcases Except.bind_eq_error.1 h with h | ⟨r, -, h⟩
    · exact Command.resolveReference_error h
    rcases Except.bind_eq_error.1 h with h | ⟨others, -, h⟩
    · exact ih hSound h
    · cases h
  | command position child inner rest ihInner ih =>
    obtain ⟨hOptions, hReference, hInnerSound, hRestSound⟩ := hSound
    rw [collect_command] at h
    split at h
    · rcases Except.bind_eq_error.1 h with h | ⟨⟨⟩, -, h⟩
      · exact Limits.enter_error h
      rcases Except.bind_eq_error.1 h with h | ⟨innerArgs, hInner, h⟩
      · exact ihInner hInnerSound h
      rcases Except.bind_eq_error.1 h with h | ⟨add, -, h⟩
      · exact Command.complete_error (collect_fit hInnerSound hInner) hOptions hReference h
      rcases Except.bind_eq_error.1 h with h | ⟨others, -, h⟩
      · exact ih hRestSound h
      · cases h
    · cases h
      trivial

/-! ## References and constraints -/

namespace Arguments

/-- Whether a reference stands directly among arguments. -/
def hasReference : Arguments → Bool
  | .closed | .fault _ => false
  | .reference _ _ => true
  | .content _ rest | .options _ rest | .command _ _ _ rest => rest.hasReference

/-- Whether a constraint stands directly among arguments. -/
def hasConstraint : Arguments → Bool
  | .closed | .fault _ => false
  | .content _ rest | .options _ rest | .reference _ rest => rest.hasConstraint
  | .command _ child _ rest => child == .constraint || rest.hasConstraint

end Arguments

lemma Command.add_of_complete {command : Command} {innerArgs : Collected}
    {add : Collected → Collected} (h : command.complete innerArgs = .ok add) (args : Collected) :
    (args.children ≠ [] → (add args).children ≠ []) ∧
      (command = .constraint ∨ args.constraint ≠ none → (add args).constraint ≠ none) := by
  obtain ⟨⟨⟩, -, hAttach⟩ := Except.bind_eq_ok.1 h
  obtain ⟨slot, -, -, rfl⟩ | ⟨node, hConstraint, -, rfl⟩ := Command.attach_eq_ok hAttach
  · exact ⟨id, fun _ => Option.some_ne_none _⟩
  · exact ⟨fun _ => List.cons_ne_nil _ _, fun h => h.resolve_left hConstraint⟩

/-- A reference among arguments becomes a child, and a constraint their constraint. -/
lemma collect_has {limits : Limits} {depth : Nat} {parent : Command} {arguments : Arguments}
    {args : Collected} (h : collect limits depth parent arguments = .ok args) :
    (arguments.hasReference = true → args.children ≠ []) ∧
      (arguments.hasConstraint = true → args.constraint ≠ none) := by
  induction arguments generalizing depth args with
  | closed => exact ⟨by rintro ⟨⟩, by rintro ⟨⟩⟩
  | fault error => cases h
  | content text rest ih =>
    rw [collect_content] at h
    obtain ⟨others, hRest, h⟩ := Except.bind_eq_ok.1 h
    cases h
    have hOthers := ih hRest
    exact hOthers
  | options raw rest ih =>
    rw [collect_options] at h
    obtain ⟨o, -, h⟩ := Except.bind_eq_ok.1 h
    obtain ⟨others, hRest, h⟩ := Except.bind_eq_ok.1 h
    cases h
    have hOthers := ih hRest
    exact hOthers
  | reference entries rest ih =>
    rw [collect_reference] at h
    obtain ⟨r, -, h⟩ := Except.bind_eq_ok.1 h
    obtain ⟨others, hRest, h⟩ := Except.bind_eq_ok.1 h
    cases h
    exact ⟨fun _ => List.cons_ne_nil _ _, (ih hRest).2⟩
  | command position child inner rest _ ih =>
    obtain ⟨-, -, innerArgs, add, others, -, hComplete, hRest, rfl⟩ := collect_command_eq_ok.1 h
    obtain ⟨hChildren, hConstraint⟩ := Command.add_of_complete hComplete others
    obtain ⟨hReference, hOther⟩ := ih hRest
    refine ⟨fun h => hChildren (hReference h), fun h => hConstraint ?_⟩
    rw [Arguments.hasConstraint, Bool.or_eq_true, beq_iff_eq] at h
    exact h.imp_right hOther

/-- A command as it stands in a text has been read: its arguments have been collected, and from them
it has been built. -/
def Occurrence.IsRead (limits : Limits) (found : Occurrence) : Prop :=
  ∃ args, collect limits found.depth found.command found.arguments = .ok args ∧
    found.command.checkCount args = .ok () ∧
    ((∃ slot, found.command = .constraint ∧ buildConstraint args = .ok slot) ∨
      ∃ node, found.command.build args = .ok node)

/-- Where arguments are collected, every command inside of them is read. -/
lemma collect_isRead {limits : Limits} {depth : Nat} {parent : Command} {arguments : Arguments}
    {args : Collected} (h : collect limits depth parent arguments = .ok args) :
    ∀ found ∈ arguments.occurrences (depth + 1), found.IsRead limits := by
  induction arguments generalizing depth parent args with
  | closed => exact List.forall_mem_nil _
  | fault error => exact List.forall_mem_nil _
  | content text rest ih =>
    rw [collect_content] at h
    obtain ⟨others, hRest, -⟩ := Except.bind_eq_ok.1 h
    exact ih hRest
  | options raw rest ih =>
    rw [collect_options] at h
    obtain ⟨o, -, h⟩ := Except.bind_eq_ok.1 h
    obtain ⟨others, hRest, -⟩ := Except.bind_eq_ok.1 h
    exact ih hRest
  | reference entries rest ih =>
    rw [collect_reference] at h
    obtain ⟨r, -, h⟩ := Except.bind_eq_ok.1 h
    obtain ⟨others, hRest, -⟩ := Except.bind_eq_ok.1 h
    exact ih hRest
  | command position child inner rest ihInner ih =>
    obtain ⟨-, -, innerArgs, add, others, hInner, hComplete, hRest, -⟩ :=
      collect_command_eq_ok.1 h
    obtain ⟨⟨⟩, hCount, hAttach⟩ := Except.bind_eq_ok.1 hComplete
    refine List.forall_mem_cons.2 ⟨⟨innerArgs, hInner, hCount, ?_⟩,
      List.forall_mem_append.2 ⟨ihInner hInner, ih hRest⟩⟩
    refine (Command.attach_eq_ok hAttach).imp ?_ ?_
    · exact fun ⟨slot, hConstraint, hBuild, _⟩ => ⟨slot, hConstraint, hBuild⟩
    · exact fun ⟨node, _, hBuild, _⟩ => ⟨node, hBuild⟩

/-- A command that has been read has references and a constraint only where it has a place for
them. -/
lemma Occurrence.IsRead.places {limits : Limits} {found : Occurrence} (h : found.IsRead limits) :
    (found.arguments.hasReference = true → found.command.accepts .reference = true) ∧
      (found.arguments.hasConstraint = true → found.command.takesConstraint = true) := by
  obtain ⟨args, hCollect, hCount, hBuilt⟩ := h
  obtain ⟨hChildren, hConstraint⟩ := collect_has hCollect
  obtain ⟨slot, hCommand, hBuild⟩ | ⟨node, hBuild⟩ := hBuilt
  · rw [hCommand]
    exact ⟨fun _ => rfl, fun h => absurd (constraint_of_buildConstraint hBuild) (hConstraint h)⟩
  · refine ⟨fun h => ?_, fun h => ?_⟩
    · exact (Command.children_of_build hCount hBuild).resolve_left (hChildren h)
    · exact (Command.constraint_of_build hBuild).resolve_left (hConstraint h)

/-! ## Whole texts -/

/-- An expression that cannot be read has an error that can arise. -/
lemma readExpression_error {limits : Limits} {category : Category} {c : Cursor} {e : ParseError}
    (h : readExpression limits category c = .error e) : e.CanArise := by
  rcases Except.bind_eq_error.1 h with h | ⟨⟨command, opened⟩, -, h⟩
  · exact scanKeyword_error h
  have hRead := readsArguments command.keyword c.position (opened.advance 1)
  simp only at h
  split at h
  · obtain ⟨hConstraint, hReference, hOptions⟩ := Category.ne_of_accepts ‹_›
    rcases Except.bind_eq_error.1 h with h | ⟨⟨⟩, -, h⟩
    · exact Limits.enter_error h
    rcases Except.bind_eq_error.1 h with h | ⟨args, hCollect, h⟩
    · exact collect_error hRead.sound.1 h
    rcases Except.bind_eq_error.1 h with h | ⟨⟨⟩, hCount, h⟩
    · exact Command.checkCount_error h
    rcases Except.bind_eq_error.1 h with h | ⟨node, -, h⟩
    · exact Command.build_error (collect_fit hRead.sound.1 hCollect) hCount hConstraint hReference
        hOptions h
    rcases Except.bind_eq_error.1 h with h | ⟨last, -, h⟩
    · exact hRead.sound.2 e h
    · cases h
  · cases h
    trivial

lemma Category.parse_error {category : Category} {limits : Limits} {text : String}
    {e : ParseError} (h : category.parse limits text = .error e) :
    e.CanArise ∨ ∃ most length, e = .inputTooLong most length := by
  obtain hLength | ⟨-, hRead | ⟨node, last, -, -, rfl⟩⟩ :=
    parseNode_eq_error.1 (Category.parse_eq_error.1 h)
  · obtain ⟨most, -, -, hError⟩ := Limits.checkLength_eq_error.1 hLength
    exact Or.inr ⟨most, _, hError⟩
  · exact Or.inl (readExpression_error hRead)
  · exact Or.inl trivial

/-- The reader of option lists fails with an error that can arise, or because the text is too long.
-/
lemma Options.parse_error {limits : Limits} {text : String} {e : ParseError}
    (h : Options.parse limits text = .error e) :
    e.CanArise ∨ ∃ most length, e = .inputTooLong most length := by
  rcases Except.bind_eq_error.1 h with h | ⟨⟨⟩, -, h⟩
  · obtain ⟨most, -, -, hError⟩ := Limits.checkLength_eq_error.1 h
    exact Or.inr ⟨most, _, hError⟩
  refine Or.inl ?_
  rcases Except.bind_eq_error.1 h with h | ⟨⟨command, opened⟩, hKeyword, h⟩
  · exact scanKeyword_error h
  simp only at h
  split at h
  · rcases Except.bind_eq_error.1 h with h | ⟨⟨raw, last⟩, -, h⟩
    · exact scanOptions_error (length_of_scanKeyword hKeyword).2 h
    rcases Except.bind_eq_error.1 h with h | ⟨⟨⟩, -, h⟩
    · unfold Cursor.expectEnd at h
      split at h <;> cases h
      trivial
    · exact Options.ofRaw_error h
  · cases h
    trivial

lemma Category.parse_isRead {category : Category} {limits : Limits} {text : String}
    {x : category.Entity} (h : category.parse limits text = .ok x) :
    ∀ found ∈ occurrences text, found.IsRead limits := by
  obtain ⟨-, last, hRead, -⟩ := parseNode_eq_ok.1 (Category.parse_eq_ok.1 h)
  obtain ⟨command, opened, hKeyword, -, -, args, hCollect, hCount, hBuild, -⟩ :=
    readExpression_eq_ok.1 hRead
  rw [occurrences_eq hKeyword]
  exact List.forall_mem_cons.2
    ⟨⟨args, hCollect, hCount, Or.inr ⟨_, hBuild⟩⟩, collect_isRead hCollect⟩

/-- **The tables of the grammar and the builders agree.**  No reader, under any limits, ever reports
that a keyword is ambiguous or that a command was not started.  What is reported about the arguments
of a command as a whole is one of the faults of `ShapeFault.Concerns`: contents where entities are
wanted, a constraint where none is taken, an action without key or with a second content, a policy
without exactly one condition, a set without policy, a choice of some conditions that does not say
how many.  So no entity turns out to be of another category than was asked for, no child turns out
to be of the wrong kind, and no builder meets a command or a number of arguments that it does not
know.

In a text that is read, references stand directly inside of those commands only for which the
grammar lists them, and constraints only inside of those that take one. -/
theorem parse_reachable (category : Category) (limits : Limits) (text : String) :
    (∀ e, category.parse limits text = .error e ∨ Options.parse limits text = .error e →
        (∀ candidate keywords position, e ≠ .ambiguousCommand candidate keywords position) ∧
        (∀ keyword position, e ≠ .notStarted keyword position) ∧
        ∀ keyword fault, e = .shape keyword fault →
          ∃ command : Command, command.keyword = keyword ∧ fault.Concerns command) ∧
      ∀ x, category.parse limits text = .ok x → ∀ found ∈ occurrences text,
        (found.arguments.hasReference = true → found.command.accepts .reference = true) ∧
        (found.arguments.hasConstraint = true → found.command.takesConstraint = true) := by
  refine ⟨fun e h => ?_, fun x h found hFound => (Category.parse_isRead h found hFound).places⟩
  have hError : e.CanArise ∨ ∃ most length, e = .inputTooLong most length :=
    h.elim Category.parse_error Options.parse_error
  rcases hError with hError | ⟨most, length, rfl⟩
  · refine ⟨?_, ?_, ?_⟩
    · rintro candidate keywords position rfl
      exact hError
    · rintro keyword position rfl
      exact hError
    · rintro keyword fault rfl
      exact hError
  · exact ⟨fun _ _ _ => nofun, fun _ _ => nofun, fun _ _ => nofun⟩

/-- A policy with contents is refused for them.  In one that is read there are a reference and a
constraint, and it has a place for both. -/
theorem parse_reachable_permit :
    (Category.policy.parse {} "*permit(a)"
        = .error (.shape "*permit" (.unexpectedContent "a")) ∧
      ∃ command : Command, command.keyword = "*permit" ∧
        ShapeFault.Concerns command (.unexpectedContent "a")) ∧
      (∃ x, Category.policy.parse {} "*permit(#ref(c), *constraint(#true()))" = .ok x) ∧
      ∃ found ∈ occurrences "*permit(#ref(c), *constraint(#true()))",
        (found.arguments.hasReference = true ∧ found.arguments.hasConstraint = true) ∧
          found.command.accepts .reference = true ∧ found.command.takesConstraint = true := by
  have hError := Except.eq_error_of_failsWith (by decide +kernel :
    (Category.policy.parse {} "*permit(a)").failsWith
      (.shape "*permit" (.unexpectedContent "a")) = true)
  obtain ⟨x, hx⟩ := Except.exists_eq_ok (by decide +kernel :
    (Category.policy.parse {} "*permit(#ref(c), *constraint(#true()))").isOk = true)
  obtain ⟨found, hFound, hHas⟩ := List.any_eq_true.1 (by decide +kernel :
    ((occurrences "*permit(#ref(c), *constraint(#true()))").any fun found =>
      found.arguments.hasReference && found.arguments.hasConstraint) = true)
  obtain ⟨hReference, hConstraint⟩ := (Bool.and_eq_true _ _).mp hHas
  obtain ⟨hAccepts, hTakes⟩ := (parse_reachable _ _ _).2 x hx found hFound
  exact ⟨⟨hError, ((parse_reachable _ _ _).1 _ (Or.inl hError)).2.2 _ _ rfl⟩, ⟨x, hx⟩, found,
    hFound, ⟨hReference, hConstraint⟩, hAccepts hReference, hTakes hConstraint⟩

end PolicyText
