import PolicyText.Proofs.Scan.Filler
import PolicyText.Scan.Keyword

/-!
# Keywords as they are written

A keyword is followed by fillers and an opening parenthesis.  Its twelve-character window can end
inside the fillers, but never inside the keyword, which is why every written command is recognised
however much room it leaves (`scanKeyword_written`).

What this needs of the table of commands is collected in `Command.keyword_spec` and checked for all
commands at once.  That no keyword is ambiguous follows: a candidate has no parenthesis, so that it
matches only the command of which it is the whole keyword (`Command.matching_eq`).

Conversely, where a command is recognised nothing else can stand: the keyword, fillers and the
parenthesis (`keyword_of_scanKeyword`).
-/

namespace PolicyText

namespace Command

lemma keyword_spec (command : Command) :
    shortestKeyword ≤ command.keyword.toList.length ∧
      command.keyword.toList.length ≤ longestKeyword ∧
      '(' ∉ command.keyword.toList ∧
      Text.dropEndWhile isFiller command.keyword.toList = command.keyword.toList ∧
      command.keyword.toList.head?.map CharClass.of = some .sigil := by
  have h : ∀ command ∈ all,
      shortestKeyword ≤ command.keyword.toList.length ∧
        command.keyword.toList.length ≤ longestKeyword ∧
        '(' ∉ command.keyword.toList ∧
        Text.dropEndWhile isFiller command.keyword.toList = command.keyword.toList ∧
        command.keyword.toList.head?.map CharClass.of = some .sigil := by
    decide +kernel
  exact h command (mem_all command)

lemma matching_keyword (command : Command) : matching command.keyword.toList = [command] := by
  have h : ∀ command ∈ all, matching command.keyword.toList = [command] := by
    decide +kernel
  exact h command (mem_all command)

lemma keyword_of_mem_matching {command : Command} {word : List Char} (hWord : '(' ∉ word)
    (h : command ∈ matching word) : command.keyword.toList = word := by
  obtain ⟨-, hMatch⟩ := List.mem_filter.1 h
  obtain ⟨-, hProbe⟩ := (Bool.and_eq_true _ _).mp hMatch
  rcases List.prefix_concat_iff.1 (List.isPrefixOf_iff_prefix.1 hProbe) with hWhole | hInside
  · exact List.append_cancel_right hWhole
  · exact absurd (hInside.subset (List.mem_append_right _ (.head []))) hWord

lemma keyword_of_ofKeyword? {command : Command} {word : List Char}
    (h : ofKeyword? word = some command) : command.keyword.toList = word := by
  simpa using List.find?_some h

lemma matching_eq {word : List Char} (hWord : '(' ∉ word) :
    matching word = (ofKeyword? word).toList := by
  cases hFound : ofKeyword? word with
  | none =>
    refine List.eq_nil_iff_forall_not_mem.2 fun command hMem => ?_
    have hNot := List.find?_eq_none.1 hFound command (mem_all command)
    exact hNot (beq_iff_eq.2 (keyword_of_mem_matching hWord hMem))
  | some command =>
    rw [← keyword_of_ofKeyword? hFound, matching_keyword]
    rfl

lemma exists_sigil (command : Command) :
    ∃ c tail, command.keyword.toList = c :: tail ∧ CharClass.of c = .sigil := by
  obtain ⟨-, -, -, -, hHead⟩ := command.keyword_spec
  obtain ⟨c, hc, hClass⟩ := Option.map_eq_some_iff.1 hHead
  obtain ⟨tail, hTail⟩ := List.head?_eq_some_iff.1 hc
  exact ⟨c, tail, hTail, hClass⟩

end Command

/-- The candidate for a keyword is the keyword that stands there. -/
lemma keywordCandidate_written (command : Command) {pad rest : List Char}
    (hPad : ∀ c ∈ pad, isFiller c = true) :
    keywordCandidate (command.keyword.toList ++ (pad ++ '(' :: rest))
      = command.keyword.toList := by
  obtain ⟨-, hLongest, hOpening, hTrimmed, -⟩ := command.keyword_spec
  have hNotOpening : ∀ c ∈ command.keyword.toList, (c != '(') = true := by
    intro c hc
    simp only [bne_iff_ne, ne_eq]
    rintro rfl
    exact hOpening hc
  -- Whatever the window shows behind the keyword is fillers up to the parenthesis.
  have hWindow : ∀ n, ∀ c ∈ ((pad ++ '(' :: rest).take n).takeWhile (· != '('),
      isFiller c = true := by
    intro n c hc
    have hTake : (pad ++ '(' :: rest).takeWhile (· != '(') = pad := by
      refine Text.takeWhile_append_cons (fun d hd => ?_) rfl
      simp only [bne_iff_ne, ne_eq]
      rintro rfl
      have hOpeningFiller := hPad '(' hd
      cases hOpeningFiller
    rw [← List.take_takeWhile, hTake] at hc
    exact hPad c (List.mem_of_mem_take hc)
  rw [keywordCandidate, List.take_append, List.take_of_length_le hLongest,
    List.takeWhile_append_of_pos hNotOpening,
    Text.dropEndWhile_append_of_all _ (hWindow _), hTrimmed]

/-- A command is recognised however many fillers stand before its parenthesis. -/
lemma scanKeyword_written (command : Command) {pad : List Char} (rest : List Char)
    (position : Nat) (hPad : ∀ c ∈ pad, isFiller c = true) :
    scanKeyword ⟨position, command.keyword.toList ++ (pad ++ '(' :: rest)⟩
      = .ok (command, ⟨position + command.keyword.toList.length + pad.length, '(' :: rest⟩) := by
  obtain ⟨hShortest, -, -, -, -⟩ := command.keyword_spec
  have hLong : ¬ ((command.keyword.toList ++ (pad ++ '(' :: rest)).take
      Command.shortestKeyword).length < Command.shortestKeyword := by
    simp only [List.length_take, List.length_append]
    omega
  have hOpened : ((Cursor.mk position (command.keyword.toList ++ (pad ++ '(' :: rest))).advance
        command.keyword.length).skipFiller
      = ⟨position + command.keyword.toList.length + pad.length, '(' :: rest⟩ := by
    rw [← String.length_toList, Cursor.advance_mk_append, Cursor.skipFiller,
      Cursor.skipWhile_append_cons _ hPad rfl]
  rw [scanKeyword, if_neg hLong]
  simp only [keywordCandidate_written command hPad, Command.matching_keyword, hOpened,
    List.head?_cons, if_true]

lemma not_mem_keywordCandidate (text : List Char) : '(' ∉ keywordCandidate text := by
  intro hOpening
  have hMem := (Text.dropEndWhile_isPrefix isFiller _).subset hOpening
  exact absurd (List.mem_takeWhile_imp hMem) (by decide)

lemma keywordCandidate_isPrefix (text : List Char) : keywordCandidate text <+: text :=
  ((Text.dropEndWhile_isPrefix isFiller _).trans (List.takeWhile_prefix _)).trans
    (List.take_prefix Command.longestKeyword text)

/-- The candidate decides which command is recognised, and the table of commands whether there is
one; that there are several never happens. -/
lemma scanKeyword_eq (c : Cursor) :
    scanKeyword c =
      if c.rest.length < Command.shortestKeyword then .error (.inputTooShort c.position)
      else
        match Command.ofKeyword? (keywordCandidate c.rest) with
        | none => .error (.unknownCommand (String.ofList (keywordCandidate c.rest)) c.position)
        | some command =>
          if ((c.advance command.keyword.length).skipFiller).rest.head? = some '(' then
            .ok (command, (c.advance command.keyword.length).skipFiller)
          else .error (.missingGroupOpen command.keyword c.position) := by
  have hShort : ((c.rest.take Command.shortestKeyword).length < Command.shortestKeyword) ↔
      c.rest.length < Command.shortestKeyword := by
    rw [List.length_take]
    omega
  simp only [scanKeyword, hShort, Command.matching_eq (not_mem_keywordCandidate c.rest)]
  cases Command.ofKeyword? (keywordCandidate c.rest) <;> rfl

/-- A command that is recognised is the one of its candidate, and it is followed by its opening
parenthesis. -/
lemma scanKeyword_eq_ok {c opened : Cursor} {command : Command}
    (h : scanKeyword c = .ok (command, opened)) :
    Command.ofKeyword? (keywordCandidate c.rest) = some command ∧
      opened = (c.advance command.keyword.length).skipFiller ∧
      opened.rest.head? = some '(' := by
  rw [scanKeyword_eq] at h
  split at h
  · cases h
  split at h
  · cases h
  rename_i found hFound
  split at h <;> cases h
  exact ⟨hFound, rfl, ‹_›⟩

/-- Where a command is recognised stand its keyword, fillers and an opening parenthesis. -/
lemma keyword_of_scanKeyword {c opened : Cursor} {command : Command}
    (h : scanKeyword c = .ok (command, opened)) :
    ∃ pad rest, (∀ d ∈ pad, isFiller d = true) ∧
      c.rest = command.keyword.toList ++ (pad ++ '(' :: rest) ∧
      opened = ⟨c.position + command.keyword.toList.length + pad.length, '(' :: rest⟩ := by
  obtain ⟨hFound, rfl, hHead⟩ := scanKeyword_eq_ok h
  obtain ⟨tail, hTail⟩ := keywordCandidate_isPrefix c.rest
  rw [← Command.keyword_of_ofKeyword? hFound] at hTail
  obtain ⟨rest, hRest⟩ := List.head?_eq_some_iff.1 hHead
  have hAdvance : c.advance command.keyword.length
      = ⟨c.position + command.keyword.toList.length, tail⟩ := by
    rw [← String.length_toList, Cursor.advance, ← hTail, List.drop_left]
  rw [hAdvance] at hRest ⊢
  have hSplit : tail = tail.takeWhile isFiller ++ '(' :: rest := by
    rw [← hRest]
    exact List.takeWhile_append_dropWhile.symm
  refine ⟨tail.takeWhile isFiller, rest, fun d hd => ?_, by rw [← hSplit, hTail], ?_⟩
  · exact @List.mem_takeWhile_imp _ isFiller tail d hd
  · rw [← hRest]
    rfl

lemma exists_cons_of_scanKeyword {c opened : Cursor} {command : Command}
    (h : scanKeyword c = .ok (command, opened)) :
    ∃ position first tail, c = ⟨position, first :: tail⟩ ∧ CharClass.of first = .sigil := by
  obtain ⟨pad, tail, -, hRest, -⟩ := keyword_of_scanKeyword h
  obtain ⟨sigil, more, hSigil, hClass⟩ := command.exists_sigil
  rw [hSigil] at hRest
  exact ⟨c.position, sigil, more ++ (pad ++ '(' :: tail), congrArg (Cursor.mk c.position) hRest,
    hClass⟩

end PolicyText
