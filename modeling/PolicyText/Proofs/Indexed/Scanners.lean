import PolicyText.Proofs.Indexed.Content
import PolicyText.Proofs.Scan.Reference

/-!
# Commands, option lists and references by indices

Keywords, option lists and references are read by indices as they are from cursors
(`scanKeywordAt_eq`, `scanOptionsAt_eq`, `scanReferenceAt_eq`).

The loops over entries check that each entry ends further on in the text, and go on only then; that
is what makes them end, and what has to be shown of the entries.  For an option it is that a key is
never empty, for a token of content that it begins with a character that is no stop.
-/

namespace PolicyText

/-! ## Reading -/

section Definitions

variable (text : List Char)

/-- Whether fewer characters are left at an index than the shortest keyword has. -/
def isShortAt (i : Nat) : Checked Bool :=
  if text.length ≤ i then pure true
  else do
    let left ← minus text.length i
    pure (left < Command.shortestKeyword)

/-- The candidate for a keyword at an index. -/
def keywordCandidateAt (i : Nat) : Checked (List Char) := do
  let window ← slice text i (min (i + Command.longestKeyword) text.length)
  let name ← slice window 0 (window.findIdx (· == '('))
  pure (Text.dropEndWhile isFiller name)

/-- Recognises the command at an index. -/
def scanKeywordAt (i : Nat) : Checked (Command × Nat) := do
  if ← isShortAt text i then throw (.inputTooShort i)
  else do
    let candidate ← keywordCandidateAt text i
    match Command.matching candidate with
    | [] => throw (.unknownCommand (String.ofList candidate) i)
    | [command] => do
      let opened ← skipWhileAt text isFiller (i + command.keyword.length)
      if ← startsWithAt text opened ['('] then pure (command, opened)
      else throw (.missingGroupOpen command.keyword i)
    | commands =>
      throw (.ambiguousCommand (String.ofList candidate)
        (", ".intercalate (commands.map Command.keyword)) i)

/-- Reads the value behind an equals sign. -/
def scanOptionValueAt (keyword : String) (opened : Nat) (key : String) (i : Nat) :
    Checked (String × Nat) := do
  let first ← skipWhileAt text Text.isBlank i
  match text[first]? with
  | none => throw (.notCompleted keyword opened)
  | some d =>
    if endsContent ',' d then throw (.emptyOptionValue key) else scanContentAt text ',' first

/-- Reads what follows a key. -/
def scanOptionRestAt (keyword : String) (opened : Nat) (key : String) (i : Nat) :
    Checked (String × Nat) := do
  let d ← charAt text i
  if d = '=' then scanOptionValueAt text keyword opened key (i + 1)
  else if flagOptions.contains key then pure ("true", i)
  else throw (.emptyOptionValue key)

/-- Reads an entry. -/
def scanOptionAt (keyword : String) (opened first : Nat) :
    Checked ((String × String) × Nat) := do
  let i ← skipWhileAt text (fun d => !endsKey d) first
  if text.length ≤ i then throw (.notCompleted keyword opened)
  else do
    let name ← slice text first i
    let key := String.ofList (Text.trim name)
    if (Text.trim name).isEmpty then throw (.emptyOptionKey first)
    else do
      let (value, next) ← scanOptionRestAt text keyword opened key i
      if value.isEmpty then throw (.emptyOptionValue key) else pure ((key, value), next)

/-- Reads entries up to the closing parenthesis.  Every entry has to end further on in the text. -/
def scanOptionEntriesAt (keyword : String) (opened : Nat) (raw : RawOptions) (i : Nat) :
    Checked (RawOptions × Nat) := do
  let first ← skipWhileAt text separatesOptions i
  match text[first]? with
  | none => throw (.notCompleted keyword opened)
  | some d =>
    if d = ')' then do
      let next ← skipWhileAt text isFiller (first + 1)
      pure (raw, next)
    else do
      let ((key, value), next) ← scanOptionAt text keyword opened first
      if _ : i < next ∧ next ≤ text.length then
        scanOptionEntriesAt keyword opened (raw.insert key value) next
      else .fault (.standstill i)
termination_by text.length - i

/-- Reads the entries of the option list whose parenthesis opens at an index. -/
def scanOptionsAt (keyword : String) (i : Nat) : Checked (RawOptions × Nat) :=
  if text[i]? = some '(' then scanOptionEntriesAt text keyword i [] (i + 1)
  else throw (.notStarted keyword i)

/-- Reads tokens of content up to the closing parenthesis.  Every token has to end further on in
the text. -/
def scanEntriesAt (keyword : String) (opened : Nat) (entries : List String) (i : Nat) :
    Checked (List String × Nat) :=
  match _ : text[i]? with
  | none => throw (.notCompleted keyword opened)
  | some d =>
    match CharClass.of d with
    | .closing => do
      let next ← skipWhileAt text isFiller (i + 1)
      pure (entries, next)
    | .delimiter | .filler | .opening => scanEntriesAt keyword opened entries (i + 1)
    | .sigil => throw (.nestedInReference i)
    | .content => do
      let (entry, next) ← scanContentAt text ',' i
      if _ : i < next ∧ next ≤ text.length then
        scanEntriesAt keyword opened (entries ++ [entry]) next
      else .fault (.standstill i)
termination_by text.length - i
decreasing_by
  all_goals have hLess := (List.getElem?_eq_some_iff.1 ‹_›).1; omega

/-- Reads the entries of the reference whose parenthesis opens at an index. -/
def scanReferenceAt (keyword : String) (i : Nat) : Checked (List String × Nat) :=
  if text[i]? = some '(' then do
    let (entries, next) ← scanEntriesAt text keyword i [] (i + 1)
    if entries.length = 0 ∨ 2 < entries.length then throw (.referenceArity entries.length i)
    else pure (entries, next)
  else throw (.notStarted keyword i)

end Definitions

/-! ## Commands -/

lemma isShortAt_eq (text : List Char) (i : Nat) :
    isShortAt text i = .of (.ok (decide
      (((text.drop i).take Command.shortestKeyword).length < Command.shortestKeyword))) := by
  rw [isShortAt, List.length_take, List.length_drop]
  split
  · rename_i hEnd
    rw [Nat.sub_eq_zero_of_le hEnd]
    rfl
  · rename_i hLess
    rw [minus, if_pos (by omega), Checked.pure_eq, Checked.of_ok_bind, Checked.pure_eq]
    have hShort : text.length - i < Command.shortestKeyword ↔
        min Command.shortestKeyword (text.length - i) < Command.shortestKeyword := by
      omega
    rw [decide_eq_decide.2 hShort]

lemma keywordCandidateAt_eq {text : List Char} {i : Nat} (h : i ≤ text.length) :
    keywordCandidateAt text i = .of (.ok (keywordCandidate (text.drop i))) := by
  have hWindow : (text.drop i).take (min (i + Command.longestKeyword) text.length - i)
      = (text.drop i).take Command.longestKeyword := by
    rw [List.take_eq_take_iff, List.length_drop]
    omega
  rw [keywordCandidateAt, slice_of_le (by omega) (Nat.min_le_right _ _), Checked.of_ok_bind,
    hWindow, slice_of_le (Nat.zero_le _) (List.findIdx_le_length), Checked.of_ok_bind,
    keywordCandidate, List.takeWhile_eq_take_findIdx_not, List.drop_zero, Nat.sub_zero]
  simp [Checked.pure_eq, bne]

/-- The command at an index is what is recognised at the place. -/
lemma scanKeywordAt_eq (text : List Char) (i : Nat) :
    scanKeywordAt text i = .of (atIndex (scanKeyword (.ofIndex text i))) := by
  rw [scanKeywordAt, isShortAt_eq, Checked.of_ok_bind, scanKeyword]
  simp only [Cursor.rest_ofIndex, Cursor.position_ofIndex, Cursor.advance_ofIndex]
  by_cases hShort :
      ((text.drop i).take Command.shortestKeyword).length < Command.shortestKeyword
  · rw [if_pos (decide_eq_true hShort), if_pos hShort]
    rfl
  rw [if_neg (by rwa [decide_eq_true_eq]), if_neg hShort]
  have hIndex : i ≤ text.length := by
    rw [Command.shortestKeyword, List.length_take, List.length_drop] at hShort
    omega
  rw [keywordCandidateAt_eq hIndex, Checked.of_ok_bind]
  rcases Command.matching (keywordCandidate (text.drop i)) with _ | ⟨command, _ | ⟨other, more⟩⟩
  · rfl
  · obtain ⟨opened, hSkip, hOpened⟩ :=
      exists_skipWhileAt text isFiller (i + command.keyword.length)
    dsimp only
    rw [hSkip, Checked.of_ok_bind, startsWithAt_singleton, Checked.of_ok_bind,
      Cursor.skipFiller, hOpened, Cursor.head?_rest_ofIndex]
    simp only [decide_eq_true_eq]
    split <;> rfl
  · rfl

lemma exists_opened_of_scanKeyword {text : List Char} {i : Nat} {command : Command}
    {opened : Cursor} (h : scanKeyword (.ofIndex text i) = .ok (command, opened)) :
    ∃ j, opened = .ofIndex text j ∧ (i < j ∧ j ≤ text.length) ∧ text[j]? = some '(' := by
  obtain ⟨hLess, tail, hTail⟩ := length_of_scanKeyword h
  obtain ⟨j, rfl, hProgress⟩ := (leads_of_scanKeyword h).1.exists_ofIndex hLess
  exact ⟨j, rfl, hProgress, by rw [← Cursor.head?_rest_ofIndex, hTail, List.head?_cons]⟩

lemma scanKeywordAt_bind {β : Type} {text : List Char} {i : Nat} {next : Command × Nat → Checked β}
    {step : Command × Cursor → Except ParseError β}
    (hNext : ∀ command j, text[j]? = some '(' →
      next (command, j) = .of (step (command, .ofIndex text j))) :
    scanKeywordAt text i >>= next = .of (scanKeyword (.ofIndex text i) >>= step) := by
  rw [scanKeywordAt_eq]
  cases hKeyword : scanKeyword (.ofIndex text i) with
  | error e => rfl
  | ok found =>
    obtain ⟨command, opened⟩ := found
    obtain ⟨j, rfl, -, hOpening⟩ := exists_opened_of_scanKeyword hKeyword
    exact hNext command j hOpening

/-! ## Option lists -/

lemma scanOptionValueAt_eq (text : List Char) (keyword : String) (opened : Nat) (key : String)
    (i : Nat) :
    scanOptionValueAt text keyword opened key i
      = .of (atIndex (scanOptionValue keyword opened key (.ofIndex text i))) := by
  obtain ⟨first, hSkip, hFirst⟩ := exists_skipWhileAt text Text.isBlank i
  rw [scanOptionValueAt, hSkip, Checked.of_ok_bind, scanOptionValue, hFirst,
    ← Cursor.head?_rest_ofIndex]
  cases (Cursor.ofIndex text first).rest with
  | nil => rfl
  | cons d tail =>
    dsimp only [List.head?_cons]
    split
    · rfl
    · exact scanContentAt_eq ',' text first

lemma scanOptionRestAt_eq {text : List Char} {i : Nat} (h : i < text.length) (keyword : String)
    (opened : Nat) (key : String) :
    scanOptionRestAt text keyword opened key i
      = .of (atIndex (scanOptionRest keyword opened key (.ofIndex text i))) := by
  obtain ⟨d, tail, hDrop⟩ := exists_drop_of_lt h
  rw [scanOptionRestAt, charAt_eq hDrop, Checked.of_ok_bind, scanOptionRest,
    Cursor.advance_ofIndex]
  simp only [Cursor.rest_ofIndex, hDrop, List.head?_cons, Option.some.injEq]
  split
  · exact scanOptionValueAt_eq text keyword opened key (i + 1)
  · split <;> rfl

/-- An entry is what is read from the place at the index. -/
lemma scanOptionAt_eq (text : List Char) (keyword : String) (opened first : Nat) :
    scanOptionAt text keyword opened first
      = .of (atIndex (scanOption keyword opened (.ofIndex text first))) := by
  obtain ⟨i, hSkip, hPlace⟩ := exists_skipWhileAt text (fun d => !endsKey d) first
  rw [scanOptionAt, hSkip, Checked.of_ok_bind]
  simp only [scanOption, hPlace, Cursor.rest_ofIndex, Cursor.position_ofIndex]
  by_cases hEnd : text.length ≤ i
  · rw [if_pos hEnd, if_pos (isEmpty_drop_iff.2 hEnd)]
    rfl
  have hLess := Nat.lt_of_not_le hEnd
  rw [if_neg hEnd, if_neg (mt isEmpty_drop_iff.1 hEnd), slice_of_skipWhile hPlace hLess,
    Checked.of_ok_bind]
  split
  · rfl
  rw [scanOptionRestAt_eq hLess]
  cases scanOptionRest keyword opened
    (String.ofList (Text.trim ((text.drop first).takeWhile fun d => !endsKey d)))
    (.ofIndex text i) with
  | error e => rfl
  | ok found =>
    obtain ⟨value, next⟩ := found
    rw [of_atIndex_ok_bind]
    dsimp only
    split <;> rfl

/-- Entries are what is read from the place at the index. -/
lemma scanOptionEntriesAt_eq (text : List Char) (keyword : String) (opened : Nat)
    (raw : RawOptions) (i : Nat) :
    scanOptionEntriesAt text keyword opened raw i
      = .of (atIndex (scanOptionEntries keyword opened raw (.ofIndex text i))) := by
  -- The induction is on what is left of the text; an entry leaves less, for its key is not empty.
  induction hSize : text.length - i using Nat.strong_induction_on generalizing raw i with
  | _ size ih =>
  obtain ⟨first, hSkip, hFirst⟩ := exists_skipWhileAt text separatesOptions i
  rw [scanOptionEntriesAt, hSkip, Checked.of_ok_bind, scanOptionEntries, hFirst,
    ← Cursor.head?_rest_ofIndex]
  cases (Cursor.ofIndex text first).rest with
  | nil => rfl
  | cons d tail =>
    dsimp only [List.head?_cons]
    split
    · obtain ⟨next, hSkip, hNext⟩ := exists_skipWhileAt text isFiller (first + 1)
      rw [hSkip, Checked.of_ok_bind, Cursor.advance_ofIndex, Cursor.skipFiller, hNext]
      rfl
    rw [scanOptionAt_eq]
    split
    · rename_i hOption
      rw [hOption]
      rfl
    · rename_i key value next hOption
      have hLeads := (Cursor.leads_skipWhile separatesOptions _).trans
        (hFirst ▸ leads_of_scanOption hOption)
      have hLess := Nat.lt_of_lt_of_le (length_of_scanOption hOption)
        (hFirst ▸ Cursor.length_rest_skipWhile_le separatesOptions (.ofIndex text i))
      obtain ⟨j, rfl, hProgress⟩ := hLeads.exists_ofIndex hLess
      rw [hOption, of_atIndex_ok_bind]
      exact (dif_pos hProgress).trans (ih (text.length - j) (by omega) _ j rfl)

lemma scanOptionsAt_eq (text : List Char) (keyword : String) (i : Nat) :
    scanOptionsAt text keyword i
      = .of (atIndex (scanOptions keyword (.ofIndex text i))) := by
  rw [scanOptionsAt, scanOptions, Cursor.head?_rest_ofIndex, Cursor.advance_ofIndex]
  split
  · exact scanOptionEntriesAt_eq text keyword i [] (i + 1)
  · rfl

/-! ## References -/

/-- Entries are what is read from the place at the index, behind those that have been read. -/
lemma scanEntriesAt_eq (text : List Char) (keyword : String) (opened : Nat) (entries : List String)
    (i : Nat) :
    scanEntriesAt text keyword opened entries i
      = .of ((atIndex (scanEntries keyword opened (.ofIndex text i))).map
          fun found => (entries ++ found.1, found.2)) := by
  -- The induction is on what is left of the text; whatever the loop passes over is not empty.
  induction hSize : text.length - i using Nat.strong_induction_on generalizing entries i with
  | _ size ih =>
  rw [scanEntriesAt]
  split
  · rename_i hEnd
    rw [Cursor.ofIndex_of_none hEnd, scanEntries]
    rfl
  rename_i d hChar
  have hPlace := Cursor.ofIndex_of_some hChar
  have hLess := (List.getElem?_eq_some_iff.1 hChar).1
  rw [hPlace, scanEntries_cons, ← hPlace]
  have hNext := ih _ (by omega) entries (i + 1) rfl
  cases hClass : CharClass.of d with
  | closing =>
    obtain ⟨next, hSkip, hNext⟩ := exists_skipWhileAt text isFiller (i + 1)
    have hPlace : Cursor.skipFiller ⟨i + 1, (Cursor.ofIndex text (i + 1)).rest⟩
        = Cursor.ofIndex text next := hNext
    dsimp only
    rw [hSkip, Checked.of_ok_bind, hPlace]
    simp only [atIndex, Except.map, List.append_nil, Checked.pure_eq, Cursor.position_ofIndex]
  | opening | delimiter | filler => exact hNext
  | sigil => rfl
  | content =>
    dsimp only
    rw [scanContentAt_eq]
    cases hContent : scanContent ',' (.ofIndex text i) with
    | error e => rfl
    | ok found =>
      obtain ⟨entry, next⟩ := found
      obtain ⟨j, rfl, hProgress⟩ := (leads_of_scanContent hContent).exists_ofIndex
        (length_of_scanContent (congrArg Cursor.rest hPlace) (endsContent_of_content hClass)
          hContent)
      rw [of_atIndex_ok_bind]
      refine (dif_pos hProgress).trans ?_
      dsimp only [Cursor.position_ofIndex]
      rw [ih (text.length - j) (by omega) _ j rfl]
      cases scanEntries keyword opened (.ofIndex text j) with
      | error e => rfl
      | ok found => simp [atIndex, Except.map]

lemma scanReferenceAt_eq (text : List Char) (keyword : String) (i : Nat) :
    scanReferenceAt text keyword i
      = .of (atIndex (scanReference keyword (.ofIndex text i))) := by
  rw [scanReferenceAt, scanReference, Cursor.head?_rest_ofIndex, Cursor.advance_ofIndex,
    Cursor.position_ofIndex]
  split
  · rw [scanEntriesAt_eq]
    cases scanEntries keyword i (.ofIndex text (i + 1)) with
    | error e => rfl
    | ok found =>
      obtain ⟨entries, next⟩ := found
      dsimp only [atIndex, Except.map]
      rw [Checked.of_ok_bind, List.nil_append]
      dsimp only
      split
      · rfl
      · rfl
  · rfl

end PolicyText
