import PolicyText.Proofs.Scan.Ahead
import PolicyText.Proofs.Scan.Reads

/-!
# What stands where an error is found

An error that has a position says something about the text at this position: that a literal begins
there which is not closed, that a keyword stands there without its parenthesis, and so on.
`ParseError.IsTrueOf` is what is said, error by error, and an error is located in a text
(`ParseError.Located`) if it is true and its position is not outside of the text.

A scanner reports the position of a place at which it was called or which it has reached.  These
places belong to the text (`Cursor.In`), since no scanner leaves it, and so it is enough to look at
what is left of the text there.  From the scanners it is carried over to the arguments of commands:
the fault at which they end is located, and at the position of every command among them a command
is recognised (`ReadsArguments.located`).
-/

namespace PolicyText

/-! ## Places of a text -/

namespace Cursor

/-- A place belongs to a text. -/
def In (text : List Char) (c : Cursor) : Prop :=
  (Cursor.start text).Leads c

variable {text : List Char} {c d : Cursor}

lemma In.leads (hPlace : c.In text) (hLeads : c.Leads d) : d.In text :=
  Leads.trans hPlace hLeads

lemma In.position_add (hPlace : c.In text) : c.position + c.rest.length = text.length := by
  have hLength := Leads.position_add hPlace
  simpa [start] using hLength

lemma In.position_le (hPlace : c.In text) : c.position ≤ text.length := by
  have hLength := hPlace.position_add
  omega

lemma In.drop_eq (hPlace : c.In text) : text.drop c.position = c.rest := by
  obtain ⟨run, hRun, hPosition⟩ := hPlace
  have hText : text = run ++ c.rest := hRun
  rw [hPosition, show (Cursor.start text).position = 0 from rfl, Nat.zero_add, hText,
    List.drop_left]

lemma In.drop_add_eq (hPlace : c.In text) (n : Nat) :
    text.drop (c.position + n) = c.rest.drop n := by
  rw [← List.drop_drop, hPlace.drop_eq]

lemma In.getElem?_eq (hPlace : c.In text) {first : Char} {tail : List Char}
    (hRest : c.rest = first :: tail) : text[c.position]? = some first := by
  rw [← List.head?_drop, hPlace.drop_eq, hRest]
  rfl

end Cursor

/-! ## What errors say -/

namespace ParseError

/-- What an error says about the text at its position.  Errors without a position say nothing about
any place. -/
def IsTrueOf (text : List Char) : ParseError → Prop
  | .inputTooShort p => text.length < p + 3
  | .unterminatedLiteral wrapper p =>
    ∃ w, Wrapper.of? (text.drop p) = some w ∧ wrapper = w.description ∧
      ¬ w.mark <:+: text.drop (p + w.mark.length)
  | .missingTerminator p => p < text.length ∧ ∀ c ∈ text.drop p, c ≠ ',' ∧ c ≠ ')'
  | .trailingInput p => ∃ c, text[p]? = some c ∧ isFiller c = false
  | .unknownCommand candidate p | .ambiguousCommand candidate _ p =>
    candidate.toList <+: text.drop p
  | .missingGroupOpen keyword p =>
    keyword.toList <+: text.drop p ∧
      ((text.drop (p + keyword.length)).dropWhile isFiller).head? ≠ some '('
  | .unexpectedChild _ _ keyword _ p =>
    ∃ pad rest, (∀ c ∈ pad, isFiller c = true) ∧
      text.drop p = keyword.toList ++ (pad ++ '(' :: rest)
  | .emptyOptionKey p => text[p]? = some '='
  | .nestedInReference p => text[p]? = some '#' ∨ text[p]? = some '*'
  | .referenceArity _ p => text[p]? = some '('
  | .depthExceeded _ p => ∃ found, scanKeyword ⟨p, text.drop p⟩ = .ok found
  | .notStarted .. | .notCompleted .. | .unexpectedRoot .. | .notEnoughArguments ..
  | .tooManyArguments .. | .unsupportedReference _ | .emptyOptionValue _ | .invalidOptionValue ..
  | .invalidVersion _ | .invalidLiteral .. | .shape .. | .inputTooLong .. => True

/-- An error is located in a text: what it says about its position is true, and the position is not
outside of the text. -/
structure Located (text : List Char) (e : ParseError) : Prop where
  isTrue : e.IsTrueOf text
  position_le : ∀ p ∈ e.position?, p ≤ text.length

variable {text : List Char} {c : Cursor} {e : ParseError}

lemma Located.of_place (hPlace : c.In text) (hPosition : e.position? = some c.position)
    (hTrue : e.IsTrueOf text) : e.Located text := by
  refine ⟨hTrue, fun p hp => ?_⟩
  rw [hPosition] at hp
  cases hp
  exact hPlace.position_le

lemma Located.of_position?_eq_none (h : e.position? = none) : e.Located text := by
  constructor
  · cases e with
    | unexpectedRoot | notEnoughArguments | tooManyArguments | unsupportedReference
    | emptyOptionValue | invalidOptionValue | invalidVersion | invalidLiteral | shape
    | inputTooLong => trivial
    | _ => cases h
  · rw [h]
    rintro p ⟨⟩

lemma located_notCompleted {keyword : String} {p : Nat} (hPosition : p ≤ text.length) :
    (ParseError.notCompleted keyword p).Located text := by
  refine ⟨trivial, ?_⟩
  rintro _ ⟨⟩
  exact hPosition

end ParseError

/-! ## Scanners -/

section Scanners

variable {text : List Char} {c : Cursor} {e : ParseError}

lemma splitAtMark?_eq_none {mark body : List Char} (hMark : mark ≠ [])
    (h : splitAtMark? mark body = none) : ¬ mark <:+: body := by
  induction body with
  | nil =>
    intro hInfix
    exact hMark (List.infix_nil.1 hInfix)
  | cons first rest ih =>
    unfold splitAtMark? at h
    split at h
    · cases h
    · rename_i hPrefix
      have hRest := ih (Option.map_eq_none_iff.1 h)
      intro hInfix
      obtain hHere | hInside := List.infix_cons_iff.1 hInfix
      · exact hPrefix (List.isPrefixOf_iff_prefix.2 hHere)
      · exact hRest hInside

/-- A token of content that cannot be scanned begins at the position that is reported. -/
lemma located_of_scanContent (hPlace : c.In text) (hRest : c.rest ≠ [])
    (h : scanContent ',' c = .error e) : e.Located text := by
  unfold scanContent at h
  split at h
  · rename_i w hWrapper
    unfold scanWrapped at h
    split at h
    · rename_i hBody
      cases h
      apply ParseError.Located.of_place hPlace rfl
      refine ⟨w, by rw [hPlace.drop_eq]; exact hWrapper, rfl, ?_⟩
      rw [hPlace.drop_add_eq]
      unfold wrappedBody? at hBody
      split at hBody
      · exact splitAtMark?_eq_none (by cases w <;> decide) ‹_›
      · cases hBody
    · cases h
  · split at h
    · rename_i hEmpty
      cases h
      apply ParseError.Located.of_place hPlace rfl
      have hPositive := List.length_pos_iff.2 hRest
      have hLength := hPlace.position_add
      refine ⟨by omega, fun d hd => ?_⟩
      rw [hPlace.drop_eq] at hd
      have hNoStop := List.dropWhile_eq_nil_iff.1 (List.isEmpty_iff.1 hEmpty) d hd
      simpa [endsContent] using hNoStop
    · cases h

/-- Where no command is recognised, what is reported stands at the place. -/
lemma located_of_scanKeyword (hPlace : c.In text) (h : scanKeyword c = .error e) :
    e.Located text := by
  have hCandidate : (String.ofList (keywordCandidate c.rest)).toList <+: text.drop c.position := by
    rw [hPlace.drop_eq, String.toList_ofList]
    exact keywordCandidate_isPrefix c.rest
  unfold scanKeyword at h
  split at h
  · rename_i hShort
    cases h
    apply ParseError.Located.of_place hPlace rfl
    have hLength := hPlace.position_add
    rw [List.length_take, Command.shortestKeyword] at hShort
    show text.length < c.position + 3
    omega
  · split at h
    · cases h
      exact .of_place hPlace rfl hCandidate
    · rename_i command hMatching
      split at h
      · cases h
      · rename_i hOpening
        cases h
        apply ParseError.Located.of_place hPlace rfl
        have hKeyword := Command.keyword_of_mem_matching (not_mem_keywordCandidate c.rest)
          (hMatching ▸ List.mem_singleton_self command)
        refine ⟨?_, ?_⟩
        · rw [hPlace.drop_eq, hKeyword]
          exact keywordCandidate_isPrefix c.rest
        · rw [hPlace.drop_add_eq]
          exact hOpening
    · cases h
      exact .of_place hPlace rfl hCandidate

variable {keyword : String} {opened : Nat}

/-- A value that cannot be scanned is not closed, or the option list is not. -/
lemma located_of_scanOptionRest {key : String} (hPlace : c.In text)
    (hOpened : opened ≤ text.length) (h : scanOptionRest keyword opened key c = .error e) :
    e.Located text := by
  unfold scanOptionRest at h
  split at h
  · rename_i hHead
    obtain ⟨tail, hTail⟩ := List.head?_eq_some_iff.1 hHead
    have hValue : ((c.advance 1).skipWhile Text.isBlank).In text :=
      (hPlace.leads (Cursor.leads_advance (by simp [hTail]))).leads (Cursor.leads_skipWhile _ _)
    unfold scanOptionValue at h
    split at h
    · cases h
      exact ParseError.located_notCompleted hOpened
    · rename_i hRest
      split at h
      · cases h
        exact .of_position?_eq_none rfl
      · exact located_of_scanContent hValue (by rw [hRest]; exact List.cons_ne_nil _ _) h
  · split at h
    · cases h
    · cases h
      exact .of_position?_eq_none rfl

/-- Where an entry can begin, an empty key is one that has nothing before its equals sign. -/
lemma located_of_scanOption {first : Char} {tail : List Char} (hPlace : c.In text)
    (hOpened : opened ≤ text.length) (hRest : c.rest = first :: tail)
    (hSeparates : separatesOptions first = false) (hClosing : first ≠ ')')
    (h : scanOption keyword opened c = .error e) : e.Located text := by
  simp only [scanOption] at h
  split at h
  · cases h
    exact ParseError.located_notCompleted hOpened
  split at h
  · rename_i hEmpty
    cases h
    apply ParseError.Located.of_place hPlace rfl
    simp only [separatesOptions, Bool.or_eq_false_iff, beq_eq_false_iff_ne] at hSeparates
    obtain ⟨hComma, hBlank⟩ := hSeparates
    obtain rfl : first = '=' := by
      by_contra hNot
      have hKeep : (!endsKey first) = true := by simp [endsKey, hNot, hComma, hClosing]
      have hKey := @List.takeWhile_cons_of_pos _ (fun d => !endsKey d) first tail hKeep
      rw [hRest, hKey] at hEmpty
      exact Text.trim_cons_ne_nil hBlank (List.isEmpty_iff.1 hEmpty)
    exact hPlace.getElem?_eq hRest
  split at h
  · rename_i hError
    cases h
    exact located_of_scanOptionRest (hPlace.leads (Cursor.leads_skipWhile _ _)) hOpened hError
  · split at h
    · cases h
      exact .of_position?_eq_none rfl
    · cases h

lemma located_of_scanOptionEntries {raw : RawOptions} (hPlace : c.In text)
    (hOpened : opened ≤ text.length) (h : scanOptionEntries keyword opened raw c = .error e) :
    e.Located text := by
  fun_induction scanOptionEntries keyword opened raw c with
  | case1 =>
    cases h
    exact ParseError.located_notCompleted hOpened
  | case2 => cases h
  | case3 raw c d tail hRest hClosing error hOption =>
    cases h
    have hSeparates : separatesOptions d = false := by
      have hHead := List.head?_dropWhile_not separatesOptions c.rest
      rw [show c.rest.dropWhile separatesOptions = d :: tail from hRest] at hHead
      simpa using hHead
    exact located_of_scanOption (hPlace.leads (Cursor.leads_skipWhile _ c)) hOpened hRest
      hSeparates hClosing hOption
  | case4 raw c d tail hRest hClosing key value next hOption ih =>
    have hSkip := hPlace.leads (Cursor.leads_skipWhile separatesOptions c)
    exact ih (hSkip.leads (leads_of_scanOption hOption)) h

lemma located_of_scanOptions (hPlace : c.In text) (h : scanOptions keyword c = .error e) :
    e.Located text := by
  unfold scanOptions at h
  split at h
  · rename_i hHead
    obtain ⟨tail, hTail⟩ := List.head?_eq_some_iff.1 hHead
    have hInside := hPlace.leads (Cursor.leads_advance (n := 1) (by simp [hTail]))
    exact located_of_scanOptionEntries hInside hPlace.position_le h
  · cases h
    exact .of_place hPlace rfl trivial

/-- Entries of a reference that cannot be scanned are not complete, or one of them is wrong where it
stands. -/
lemma located_of_scanEntries (hPlace : c.In text) (hOpened : opened ≤ text.length)
    (h : scanEntries keyword opened c = .error e) : e.Located text := by
  fun_induction scanEntries keyword opened c generalizing e with
  | case1 =>
    cases h
    exact ParseError.located_notCompleted hOpened
  | case2 => cases h
  | case3 c d tail hRest _ ih | case4 c d tail hRest _ ih | case5 c d tail hRest _ ih =>
    exact ih (hPlace.leads (Cursor.leads_advance (by simp [hRest]))) h
  | case6 c d tail hRest hClass =>
    cases h
    apply ParseError.Located.of_place hPlace rfl
    have hCharacter := hPlace.getElem?_eq hRest
    obtain rfl | rfl := eq_sigil_of_class hClass
    · exact Or.inl hCharacter
    · exact Or.inr hCharacter
  | case7 c d tail hRest hClass error hContent =>
    cases h
    exact located_of_scanContent hPlace (by rw [hRest]; exact List.cons_ne_nil _ _) hContent
  | case8 c d tail hRest hClass read next hContent error hEntries ih =>
    cases h
    exact ih (hPlace.leads (leads_of_scanContent hContent)) hEntries
  | case9 => cases h

lemma located_of_scanReference (hPlace : c.In text) (h : scanReference keyword c = .error e) :
    e.Located text := by
  unfold scanReference at h
  split at h
  · rename_i hHead
    obtain ⟨tail, hTail⟩ := List.head?_eq_some_iff.1 hHead
    have hInside := hPlace.leads (Cursor.leads_advance (n := 1) (by simp [hTail]))
    split at h
    · rename_i hEntries
      cases h
      exact located_of_scanEntries hInside hPlace.position_le hEntries
    · split at h
      · cases h
        exact .of_place hPlace rfl (hPlace.getElem?_eq hTail)
      · cases h
  · cases h
    exact .of_place hPlace rfl trivial

lemma StuckAt.located (hPlace : c.In text) (hRest : c.rest ≠ []) (h : StuckAt c e) :
    e.Located text := by
  cases h with
  | content hContent => exact located_of_scanContent hPlace hRest hContent
  | keyword hKeyword => exact located_of_scanKeyword hPlace hKeyword
  | options hKeyword hOptions =>
    exact located_of_scanOptions (hPlace.leads (leads_of_scanKeyword hKeyword).1) hOptions
  | reference hKeyword hReference =>
    exact located_of_scanReference (hPlace.leads (leads_of_scanKeyword hKeyword).1) hReference

end Scanners

/-! ## Arguments -/

/-- Arguments as they are found in a text: the fault at which they end is located, and every command
is recognised at its position. -/
def Arguments.Located (text : List Char) : Arguments → Prop
  | .closed => True
  | .fault e => e.Located text
  | .content _ rest | .options _ rest | .reference _ rest => rest.Located text
  | .command position child inner rest =>
    (∃ c opened, c.In text ∧ c.position = position ∧ scanKeyword c = .ok (child, opened)) ∧
      inner.Located text ∧ rest.Located text

/-- Arguments that are looked for at a place of a text, behind the keyword of their command, are
located in the text, and so is the fault at which they end. -/
lemma ReadsArguments.located {text : List Char} {keyword : String} {start : Nat} {c : Cursor}
    {args : Arguments} {last : Except ParseError Cursor}
    (h : ReadsArguments keyword start c args last) (hPlace : c.In text)
    (hStart : start ≤ text.length) :
    args.Located text ∧ ∀ e, last = .error e → e.Located text := by
  induction h with
  | ended =>
    exact ⟨ParseError.located_notCompleted hStart, by
      rintro e ⟨⟩
      exact ParseError.located_notCompleted hStart⟩
  | closing => exact ⟨trivial, by rintro e ⟨⟩⟩
  | passed hClass hRest ih => exact ih (hPlace.leads (Cursor.leads_tail _ _ _)) hStart
  | stuck hStuck =>
    have hFault := hStuck.located hPlace (List.cons_ne_nil _ _)
    exact ⟨hFault, by rintro e ⟨⟩; exact hFault⟩
  | content hClass hContent hRest ih =>
    exact ih (hPlace.leads (leads_of_scanContent hContent)) hStart
  | options hClass hKeyword hOptions hRest ih =>
    have hOpened := hPlace.leads (leads_of_scanKeyword hKeyword).1
    exact ih (hOpened.leads (leads_of_scanOptions hOptions)) hStart
  | reference hClass hKeyword hReference hRest ih =>
    have hOpened := hPlace.leads (leads_of_scanKeyword hKeyword).1
    exact ih (hOpened.leads (leads_of_scanReference hReference)) hStart
  | unclosed hClass hOptions hReference hKeyword hInner ih =>
    obtain ⟨hOpened, -, hAdvance⟩ := leads_of_scanKeyword hKeyword
    obtain ⟨hArgs, hError⟩ := ih ((hPlace.leads hOpened).leads hAdvance) hPlace.position_le
    have hFault := hError _ rfl
    exact ⟨⟨⟨_, _, hPlace, rfl, hKeyword⟩, hArgs, hFault⟩, by rintro e ⟨⟩; exact hFault⟩
  | command hClass hOptions hReference hKeyword hInner hRest ihInner ih =>
    obtain ⟨hOpened, -, hAdvance⟩ := leads_of_scanKeyword hKeyword
    have hInside := (hPlace.leads hOpened).leads hAdvance
    obtain ⟨hArgs, -⟩ := ihInner hInside hPlace.position_le
    obtain ⟨hOthers, hError⟩ := ih (hInside.leads (hInner.leads _ rfl)) hStart
    exact ⟨⟨⟨_, _, hPlace, rfl, hKeyword⟩, hArgs, hOthers⟩, hError⟩

end PolicyText
