import PolicyText.Proofs.Scan.Keyword

/-!
# Which command is recognised

`scanKeyword` looks at a window of twelve characters, cuts it at the first parenthesis and drops the
fillers at its end.  What it finds in this way can be said without the window: a command is
recognised exactly where its keyword, fillers and an opening parenthesis stand
(`Command.StandsAt`, `scanKeyword_eq_ok_iff`), and only one command can stand at a place.

The failures are told apart by the candidate that the window leaves.  Too little text is one of
them, a keyword without its parenthesis another (`Command.LacksParenthesis`), and everything else is
an unknown command.  `scanKeyword_decides` puts the cases together.
-/

namespace PolicyText

namespace Command

/-- A command stands at a position of a text: its keyword begins there, and behind the keyword come
fillers and, at a second position, an opening parenthesis. -/
def StandsAt (command : Command) (text : List Char) (position opened : Nat) : Prop :=
  ∃ pad rest, (∀ c ∈ pad, isFiller c = true) ∧
    text.drop position = command.keyword.toList ++ (pad ++ '(' :: rest) ∧
    opened = position + command.keyword.toList.length + pad.length

/-- A command lacks its parenthesis at a position of a text: the candidate there is its keyword, but
the fillers behind the keyword are not followed by an opening parenthesis. -/
def LacksParenthesis (command : Command) (text : List Char) (position : Nat) : Prop :=
  keywordCandidate (text.drop position) = command.keyword.toList ∧
    ((text.drop (position + command.keyword.toList.length)).dropWhile isFiller).head? ≠ some '('

lemma ofKeyword?_eq_some {command : Command} {word : List Char} :
    ofKeyword? word = some command ↔ word = command.keyword.toList := by
  constructor
  · exact fun h => (keyword_of_ofKeyword? h).symm
  · rintro rfl
    obtain ⟨-, -, hOpening, -, -⟩ := command.keyword_spec
    have hMatching := matching_eq hOpening
    rw [matching_keyword] at hMatching
    exact Option.toList_eq_singleton_iff.1 hMatching.symm

lemma ofKeyword?_eq_none {word : List Char} :
    ofKeyword? word = none ↔ ∀ command : Command, word ≠ command.keyword.toList := by
  constructor
  · intro h command hWord
    rw [ofKeyword?_eq_some.2 hWord] at h
    cases h
  · intro h
    cases hFound : ofKeyword? word with
    | none => rfl
    | some command => exact absurd (ofKeyword?_eq_some.1 hFound) (h command)

end Command

variable {text : List Char} {position : Nat} {command : Command}

/-! ## Success -/

lemma Command.StandsAt.scanKeyword_eq {opened : Nat} (h : command.StandsAt text position opened) :
    scanKeyword ⟨position, text.drop position⟩ = .ok (command, ⟨opened, text.drop opened⟩) := by
  obtain ⟨pad, rest, hPad, hText, rfl⟩ := h
  have hOpened :
      text.drop (position + command.keyword.toList.length + pad.length) = '(' :: rest := by
    rw [← List.drop_drop, ← List.drop_drop, hText, List.drop_left, List.drop_left]
  rw [hText, hOpened, scanKeyword_written command rest position hPad]

/-- A command is recognised exactly where it stands. -/
lemma scanKeyword_eq_ok_iff {place : Cursor} :
    scanKeyword ⟨position, text.drop position⟩ = .ok (command, place) ↔
      ∃ opened, command.StandsAt text position opened ∧ place = ⟨opened, text.drop opened⟩ := by
  constructor
  · intro h
    obtain ⟨pad, rest, hPad, hText, hPlace⟩ := keyword_of_scanKeyword h
    have hStands : command.StandsAt text position
        (position + command.keyword.toList.length + pad.length) := ⟨pad, rest, hPad, hText, rfl⟩
    rw [hStands.scanKeyword_eq] at h
    cases h
    exact ⟨_, hStands, rfl⟩
  · rintro ⟨opened, hStands, rfl⟩
    exact hStands.scanKeyword_eq

lemma Command.StandsAt.unique {other : Command} {opened behind : Nat}
    (h : command.StandsAt text position opened) (hOther : other.StandsAt text position behind) :
    command = other ∧ opened = behind := by
  have hSame := h.scanKeyword_eq.symm.trans hOther.scanKeyword_eq
  simp only [Except.ok.injEq, Prod.mk.injEq, Cursor.mk.injEq] at hSame
  exact ⟨hSame.1, hSame.2.1⟩

/-! ## Failure -/

lemma scanKeyword_ne_ambiguousCommand {c : Cursor} {word names : String} {p : Nat} :
    scanKeyword c ≠ .error (.ambiguousCommand word names p) := by
  rw [scanKeyword_eq]
  split
  · nofun
  split
  · nofun
  split <;> nofun

/-- A text is too short exactly if it is shorter than every keyword. -/
lemma scanKeyword_eq_inputTooShort_iff {c : Cursor} {p : Nat} :
    scanKeyword c = .error (.inputTooShort p) ↔ c.rest.length < 3 ∧ p = c.position := by
  rw [scanKeyword_eq]
  by_cases hShort : c.rest.length < Command.shortestKeyword
  · rw [if_pos hShort]
    constructor
    · rintro ⟨⟩
      exact ⟨hShort, rfl⟩
    · rintro ⟨-, rfl⟩
      rfl
  · rw [if_neg hShort]
    refine ⟨fun h => ?_, fun h => absurd h.1 hShort⟩
    split at h
    · cases h
    split at h <;> cases h

lemma skipFiller_advance_rest (position : Nat) (text : List Char) (n : Nat) :
    (((Cursor.mk position (text.drop position)).advance n).skipFiller).rest
      = (text.drop (position + n)).dropWhile isFiller := by
  rw [← List.drop_drop]
  rfl

/-- The parenthesis is missing exactly if some command lacks it. -/
lemma scanKeyword_eq_missingGroupOpen_iff {keyword : String} {p : Nat} :
    scanKeyword ⟨position, text.drop position⟩ = .error (.missingGroupOpen keyword p) ↔
      3 ≤ (text.drop position).length ∧ p = position ∧
        ∃ command : Command, command.keyword = keyword ∧
          command.LacksParenthesis text position := by
  rw [scanKeyword_eq]
  constructor
  · intro h
    split at h
    · cases h
    rename_i hLong
    split at h
    · cases h
    rename_i command hFound
    split at h
    · cases h
    rename_i hOpening
    cases h
    refine ⟨Nat.le_of_not_lt hLong, rfl, command, rfl, Command.ofKeyword?_eq_some.1 hFound, ?_⟩
    rw [skipFiller_advance_rest] at hOpening
    rwa [String.length_toList]
  · rintro ⟨hLong, rfl, command, rfl, hCandidate, hOpening⟩
    rw [String.length_toList, ← skipFiller_advance_rest] at hOpening
    have hShort : ¬ (text.drop p).length < Command.shortestKeyword := Nat.not_lt.2 hLong
    simp only [if_neg hShort, Command.ofKeyword?_eq_some.2 hCandidate, if_neg hOpening]

/-- A command is unknown exactly if the candidate, though long enough, is not a keyword. -/
lemma scanKeyword_eq_unknownCommand_iff {c : Cursor} {word : String} {p : Nat} :
    scanKeyword c = .error (.unknownCommand word p) ↔
      (word = String.ofList (keywordCandidate c.rest) ∧ p = c.position) ∧
        3 ≤ c.rest.length ∧
          ∀ command : Command, keywordCandidate c.rest ≠ command.keyword.toList := by
  rw [scanKeyword_eq]
  constructor
  · intro h
    split at h
    · cases h
    rename_i hLong
    split at h
    · rename_i hNone
      cases h
      exact ⟨⟨rfl, rfl⟩, Nat.le_of_not_lt hLong, Command.ofKeyword?_eq_none.1 hNone⟩
    · split at h <;> cases h
  · rintro ⟨⟨rfl, rfl⟩, hLong, hNone⟩
    have hShort : ¬ c.rest.length < Command.shortestKeyword := Nat.not_lt.2 hLong
    rw [if_neg hShort, Command.ofKeyword?_eq_none.2 hNone]

/-- Where the candidate is the keyword of a command, the command stands there or lacks its
parenthesis. -/
lemma Command.standsAt_or_lacksParenthesis
    (h : keywordCandidate (text.drop position) = command.keyword.toList) :
    (∃ opened, command.StandsAt text position opened) ∨
      command.LacksParenthesis text position := by
  by_cases hOpening :
      ((text.drop (position + command.keyword.toList.length)).dropWhile isFiller).head? = some '('
  · left
    obtain ⟨rest, hRest⟩ := List.head?_eq_some_iff.1 hOpening
    obtain ⟨tail, hTail⟩ := h ▸ keywordCandidate_isPrefix (text.drop position)
    rw [← List.drop_drop, ← hTail, List.drop_left] at hRest
    refine ⟨_, tail.takeWhile isFiller, rest, fun d hd => ?_, ?_, rfl⟩
    · exact @List.mem_takeWhile_imp _ isFiller tail d hd
    · rw [← hRest, List.takeWhile_append_dropWhile, hTail]
  · exact Or.inr ⟨h, hOpening⟩

lemma Command.StandsAt.keywordCandidate_eq {opened : Nat}
    (h : command.StandsAt text position opened) :
    keywordCandidate (text.drop position) = command.keyword.toList := by
  obtain ⟨pad, rest, hPad, hText, -⟩ := h
  rw [hText, keywordCandidate_written command hPad]

/-! ## All cases -/

/-- **Commands are recognised exactly and without ambiguity.**  At any position of any text, inside
of it or not, a command is recognised exactly if its keyword, fillers and an opening parenthesis
stand there, and the place that is found is that of the parenthesis; no two commands stand at one
position, and no keyword is ever ambiguous.  Where none is recognised, less than three characters
are left; or the candidate for a keyword is one but lacks its parenthesis; or, in all other cases,
the command is unknown. -/
theorem scanKeyword_decides (text : List Char) (position : Nat) :
    (∀ command place, scanKeyword ⟨position, text.drop position⟩ = .ok (command, place) ↔
        ∃ opened, command.StandsAt text position opened ∧ place = ⟨opened, text.drop opened⟩) ∧
      (∀ (command other : Command) (opened behind : Nat), command.StandsAt text position opened →
        other.StandsAt text position behind → command = other ∧ opened = behind) ∧
      (∀ word names p, scanKeyword ⟨position, text.drop position⟩
        ≠ .error (.ambiguousCommand word names p)) ∧
      (∀ p, scanKeyword ⟨position, text.drop position⟩ = .error (.inputTooShort p) ↔
        (text.drop position).length < 3 ∧ p = position) ∧
      (∀ keyword p,
        scanKeyword ⟨position, text.drop position⟩ = .error (.missingGroupOpen keyword p) ↔
          3 ≤ (text.drop position).length ∧ p = position ∧
            ∃ command : Command, command.keyword = keyword ∧
              command.LacksParenthesis text position) ∧
      ∀ word p, scanKeyword ⟨position, text.drop position⟩ = .error (.unknownCommand word p) ↔
        (word = String.ofList (keywordCandidate (text.drop position)) ∧ p = position) ∧
          3 ≤ (text.drop position).length ∧
          (¬ ∃ (command : Command) (opened : Nat), command.StandsAt text position opened) ∧
          ¬ ∃ command : Command, command.LacksParenthesis text position := by
  refine ⟨fun command place => scanKeyword_eq_ok_iff,
    fun command other opened behind hStands hOther => hStands.unique hOther,
    fun word names p => scanKeyword_ne_ambiguousCommand,
    fun p => scanKeyword_eq_inputTooShort_iff,
    fun keyword p => scanKeyword_eq_missingGroupOpen_iff, fun word p => ?_⟩
  rw [scanKeyword_eq_unknownCommand_iff, ← not_or]
  refine and_congr_right fun _ => and_congr_right fun _ => ?_
  constructor
  · rintro hNone (⟨command, opened, hStands⟩ | ⟨command, hLacks⟩)
    · exact hNone command hStands.keywordCandidate_eq
    · exact hNone command hLacks.1
  · intro hNone command hCandidate
    obtain ⟨opened, hStands⟩ | hLacks := Command.standsAt_or_lacksParenthesis hCandidate
    · exact hNone (Or.inl ⟨command, opened, hStands⟩)
    · exact hNone (Or.inr ⟨command, hLacks⟩)

/-- More fillers stand behind a keyword than the window has room for, and the keyword begins like
that of another command; a keyword stands alone. -/
theorem scanKeyword_decides_spaced :
    ((Command.atomic .isNotNull).StandsAt "a,*notNull  ;           (x)".toList 2 24 ∧
        scanKeyword ⟨2, "a,*notNull  ;           (x)".toList.drop 2⟩
          = .ok (.atomic .isNotNull, ⟨24, "(x)".toList⟩) ∧
        ∀ (other : Command) (opened : Nat),
          other.StandsAt "a,*notNull  ;           (x)".toList 2 opened →
            other = .atomic .isNotNull ∧ opened = 24) ∧
      (Command.composite .not).LacksParenthesis "*not ;".toList 0 ∧
      scanKeyword ⟨0, "*not ;".toList.drop 0⟩ = .error (.missingGroupOpen "*not" 0) := by
  have hStands : (Command.atomic .isNotNull).StandsAt "a,*notNull  ;           (x)".toList 2 24 :=
    ⟨"  ;           ".toList, "x)".toList, by decide, by decide, by decide⟩
  have hLacks : (Command.composite .not).LacksParenthesis "*not ;".toList 0 := by
    constructor <;> decide
  obtain ⟨hFound, hUnique, -⟩ := scanKeyword_decides "a,*notNull  ;           (x)".toList 2
  obtain ⟨-, -, -, -, hMissing, -⟩ := scanKeyword_decides "*not ;".toList 0
  refine ⟨⟨hStands, (hFound _ _).2 ⟨24, hStands, by decide⟩, fun other opened hOther => ?_⟩, hLacks,
    (hMissing _ _).2 ⟨by decide, rfl, _, rfl, hLacks⟩⟩
  exact hUnique other (.atomic .isNotNull) opened 24 hOther hStands

end PolicyText
