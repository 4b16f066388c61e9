import PolicyText.Build.Collected
import PolicyText.Proofs.Scan.Keyword
import PolicyText.Proofs.Scan.Reads

/-!
# Errors that can arise

Some of the errors are there for the sake of completeness and are never reported.
`ParseError.CanArise` are those that a text can lead to.  About the arguments of a command as a
whole these are the faults of `ShapeFault.Concerns`, each with the commands that can have it.

The scanner cannot know what is meant and reports only what it cannot scan.  Nothing of this is
ambiguous, and nothing is scanned as an option list or as a reference that has not been started
(`ReadsArguments.sound`).
-/

namespace PolicyText

/-! ## Faults of arguments -/

/-- Whether the arguments of a command are entities. -/
def Command.takesEntities : Command → Bool
  | .dynamicVariable | .atomic _ | .composite _ | .basicPolicy _ | .policySet _ | .actionLink
  | .member | .constraint => true
  | .staticVariable _ | .resolver _ | .constant _ | .defaultPolicy _ | .action _ | .reference
  | .options => false

/-- Whether a constraint can stand in a command. -/
def Command.takesConstraint : Command → Bool
  | .basicPolicy _ | .policySet _ | .actionLink | .member => true
  | .staticVariable _ | .resolver _ | .dynamicVariable | .atomic _ | .composite _ | .constant _
  | .defaultPolicy _ | .action _ | .constraint | .reference | .options => false

/-- The faults that the arguments of a command can have. -/
inductive ShapeFault.Concerns : Command → ShapeFault → Prop where
  | unexpectedContent {command : Command} (text : String)
    (hCommand : command.takesEntities = true) : Concerns command (.unexpectedContent text)
  | unsupportedConstraint {command : Command} (hCommand : command.takesConstraint = false) :
    Concerns command .unsupportedConstraint
  | missingKey (type : ActionType) : Concerns (.action type) .missingKey
  | extraContent (type : ActionType) (text : String) :
    Concerns (.action type) (.extraContent text)
  | conditionCount (effect : TargetEffect) {count : Nat} (hCount : count ≠ 1) :
    Concerns (.basicPolicy effect) (.conditionCount count)
  | noPolicy (logic : CombinationLogic) : Concerns (.policySet logic) .noPolicy
  | missingOptions : Concerns (.composite .nOf) .missingOptions
  | missingMinimum : Concerns (.composite .nOf) .missingMinimum

/-- An error that can be reported about a text of which the length is accepted.  That a keyword is
ambiguous, or that a command is not started, is never reported, nor are other faults of arguments
than those that concern the command. -/
def ParseError.CanArise : ParseError → Prop
  | .ambiguousCommand .. | .notStarted .. | .inputTooLong .. => False
  | .shape keyword fault =>
    ∃ command : Command, command.keyword = keyword ∧ fault.Concerns command
  | _ => True

lemma ShapeFault.Concerns.canArise {command : Command} {fault : ShapeFault}
    (h : fault.Concerns command) : (command.shapeError fault).CanArise :=
  ⟨command, rfl, h⟩

/-! ## Scanning -/

lemma scanContent_error {stop : Char} {c : Cursor} {e : ParseError}
    (h : scanContent stop c = .error e) : e.CanArise := by
  unfold scanContent at h
  split at h
  · unfold scanWrapped at h
    split at h <;> cases h
    trivial
  · split at h <;> cases h
    trivial

/-- A keyword is never ambiguous: its candidate matches one command at most. -/
lemma scanKeyword_error {c : Cursor} {e : ParseError} (h : scanKeyword c = .error e) :
    e.CanArise := by
  unfold scanKeyword at h
  split at h
  · cases h
    trivial
  rw [Command.matching_eq (not_mem_keywordCandidate c.rest)] at h
  cases hFound : Command.ofKeyword? (keywordCandidate c.rest) with
  | none =>
    rw [hFound] at h
    cases h
    trivial
  | some command =>
    simp only [hFound, Option.toList_some] at h
    split at h <;> cases h
    trivial

/-- An entry of an option list is not complete, has no key or has no value. -/
lemma scanOption_error {keyword : String} {opened : Nat} {c : Cursor} {e : ParseError}
    (h : scanOption keyword opened c = .error e) : e.CanArise := by
  simp only [scanOption] at h
  split at h
  · cases h
    trivial
  split at h
  · cases h
    trivial
  split at h
  · rename_i hRest
    cases h
    unfold scanOptionRest at hRest
    split at hRest
    · unfold scanOptionValue at hRest
      split at hRest
      · cases hRest
        trivial
      split at hRest
      · cases hRest
        trivial
      · exact scanContent_error hRest
    · split at hRest <;> cases hRest
      trivial
  · split at h <;> cases h
    trivial

lemma scanOptionEntries_error {keyword : String} {opened : Nat} {raw : RawOptions} {c : Cursor}
    {e : ParseError} (h : scanOptionEntries keyword opened raw c = .error e) : e.CanArise := by
  fun_induction scanOptionEntries keyword opened raw c with
  | case1 =>
    cases h
    trivial
  | case2 => cases h
  | case3 raw c d tail hRest hClosing error hOption =>
    cases h
    exact scanOption_error hOption
  | case4 raw c d tail hRest hClosing key value next hOption ih => exact ih h

lemma scanOptions_error {keyword : String} {c : Cursor} {e : ParseError}
    (hOpening : ∃ tail, c.rest = '(' :: tail) (h : scanOptions keyword c = .error e) :
    e.CanArise := by
  obtain ⟨tail, hTail⟩ := hOpening
  rw [scanOptions, if_pos (by rw [hTail]; rfl)] at h
  exact scanOptionEntries_error h

lemma scanEntries_error {keyword : String} {opened : Nat} {c : Cursor} {e : ParseError}
    (h : scanEntries keyword opened c = .error e) : e.CanArise := by
  fun_induction scanEntries keyword opened c with
  | case1 =>
    cases h
    trivial
  | case2 => cases h
  | case3 _ _ _ _ _ ih | case4 _ _ _ _ _ ih | case5 _ _ _ _ _ ih => exact ih h
  | case6 =>
    cases h
    trivial
  | case7 c d tail hRest hClass error hContent =>
    cases h
    exact scanContent_error hContent
  | case8 c d tail hRest hClass text next hContent error hEntries ih =>
    cases h
    exact ih hEntries
  | case9 => cases h

lemma scanReference_error {keyword : String} {c : Cursor} {e : ParseError}
    (hOpening : ∃ tail, c.rest = '(' :: tail) (h : scanReference keyword c = .error e) :
    e.CanArise := by
  obtain ⟨tail, hTail⟩ := hOpening
  rw [scanReference, if_pos (by rw [hTail]; rfl)] at h
  split at h
  · rename_i hEntries
    cases h
    exact scanEntries_error hEntries
  · split at h <;> cases h
    trivial

lemma StuckAt.canArise {c : Cursor} {e : ParseError} (h : StuckAt c e) : e.CanArise := by
  cases h with
  | content hContent => exact scanContent_error hContent
  | keyword hKeyword => exact scanKeyword_error hKeyword
  | options hKeyword hOptions =>
    exact scanOptions_error (length_of_scanKeyword hKeyword).2 hOptions
  | reference hKeyword hReference =>
    exact scanReference_error (length_of_scanKeyword hKeyword).2 hReference

/-- Arguments as a scanner finds them: the fault at which they end can arise, and neither option
lists nor references are taken for commands. -/
def Arguments.Sound : Arguments → Prop
  | .closed => True
  | .fault e => e.CanArise
  | .content _ rest | .options _ rest | .reference _ rest => rest.Sound
  | .command _ child inner rest =>
    child ≠ .options ∧ child ≠ .reference ∧ inner.Sound ∧ rest.Sound

lemma ReadsArguments.sound {keyword : String} {start : Nat} {c : Cursor} {args : Arguments}
    {last : Except ParseError Cursor} (h : ReadsArguments keyword start c args last) :
    args.Sound ∧ ∀ e, last = .error e → e.CanArise := by
  induction h with
  | ended => exact ⟨trivial, by rintro e ⟨⟩; trivial⟩
  | closing => exact ⟨trivial, by rintro e ⟨⟩⟩
  | passed hClass hRest ih => exact ih
  | stuck hStuck => exact ⟨hStuck.canArise, by rintro e ⟨⟩; exact hStuck.canArise⟩
  | content hClass hContent hRest ih => exact ih
  | options hClass hKeyword hOptions hRest ih => exact ih
  | reference hClass hKeyword hReference hRest ih => exact ih
  | unclosed hClass hOptions hReference hKeyword hInner ih =>
    have hError := ih.2 _ rfl
    exact ⟨⟨hOptions, hReference, ih.1, hError⟩, by rintro e ⟨⟩; exact hError⟩
  | command hClass hOptions hReference hKeyword hInner hRest ihInner ih =>
    exact ⟨⟨hOptions, hReference, ihInner.1, ih.1⟩, ih.2⟩

end PolicyText
