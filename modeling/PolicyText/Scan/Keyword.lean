import PolicyText.Grammar.Command
import PolicyText.Scan.Content

/-!
# Recognising commands

A command begins with its keyword, which fillers may separate from the opening parenthesis.  The
candidate for the keyword is what stands before the first parenthesis among the next twelve
characters, without the fillers at its end, and it has to be a keyword as a whole: `*not` is not
found in `*notNull`.

`scanKeyword` finds the command and the place of its parenthesis, and makes progress
(`length_of_scanKeyword`).
-/

namespace PolicyText

/-- The candidate for a keyword at the head of a text. -/
def keywordCandidate (text : List Char) : List Char :=
  Text.dropEndWhile isFiller ((text.take Command.longestKeyword).takeWhile (· != '('))

/-- Recognises the command at a place; the place that is returned is that of its opening
parenthesis. -/
def scanKeyword (c : Cursor) : Except ParseError (Command × Cursor) :=
  if (c.rest.take Command.shortestKeyword).length < Command.shortestKeyword then
    .error (.inputTooShort c.position)
  else
    match Command.matching (keywordCandidate c.rest) with
    | [] => .error (.unknownCommand (String.ofList (keywordCandidate c.rest)) c.position)
    | [command] =>
      if ((c.advance command.keyword.length).skipFiller).rest.head? = some '(' then
        .ok (command, (c.advance command.keyword.length).skipFiller)
      else .error (.missingGroupOpen command.keyword c.position)
    | commands =>
      .error
        (.ambiguousCommand (String.ofList (keywordCandidate c.rest))
          (", ".intercalate (commands.map Command.keyword)) c.position)

theorem Command.keyword_length_pos (command : Command) : 0 < command.keyword.length := by
  have h : ∀ command ∈ Command.all, 0 < command.keyword.length := by decide
  exact h command (Command.mem_all command)

theorem length_of_scanKeyword {c opened : Cursor} {command : Command}
    (h : scanKeyword c = .ok (command, opened)) :
    opened.rest.length < c.rest.length ∧ ∃ tail, opened.rest = '(' :: tail := by
  unfold scanKeyword at h
  split at h
  · cases h
  · rename_i hLength
    split at h
    · cases h
    · split at h
      · cases h
        have hPos := Command.keyword_length_pos command
        have hSkip := Cursor.length_rest_skipFiller_le (c.advance command.keyword.length)
        simp only [Cursor.length_rest_advance] at hSkip
        refine ⟨by simp only [Command.shortestKeyword, List.length_take] at hLength; omega, ?_⟩
        exact List.head?_eq_some_iff.1 ‹_›
      · cases h
    · cases h

end PolicyText
