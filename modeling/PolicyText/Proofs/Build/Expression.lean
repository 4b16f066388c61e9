import PolicyText.Parse
import PolicyText.Proofs.Outcome
import PolicyText.Proofs.Scan.Arguments

/-!
# An expression and the place behind it

The readers of whole texts look at the length of the text first and ask last whether anything
follows the expression.  What they do in between depends on the text from a place on, and is
`readExpression`: it gives the entity of the expression at the place and the place behind it.
`parseNode_eq` takes a reader apart in this way, so that texts which begin alike can be compared by
what is read at their beginning.
-/

namespace PolicyText

/-- Reads the command whose keyword stands at one place and whose parenthesis opens at another: its
entity and the place behind it. -/
def readCommand (limits : Limits) (command : Command) (c opened : Cursor) :
    Except ParseError (Node × Cursor) := do
  let read := readArguments command.keyword c.position (opened.advance 1)
  limits.enter 1 c.position
  let args ← collect limits 1 command read.1
  command.checkCount args
  let node ← command.build args
  let last ← read.2
  .ok (node, last)

/-- Reads the expression of a category at a place: its entity and the place behind it. -/
def readExpression (limits : Limits) (category : Category) (c : Cursor) :
    Except ParseError (Node × Cursor) := do
  let (command, opened) ← scanKeyword c
  if category.accepts command.kind then readCommand limits command c opened
  else .error (.unexpectedRoot category.description command.keyword command.kind)

lemma parseCommand_eq_readCommand (limits : Limits) (command : Command) (c : Cursor)
    {opened : Cursor} (hOpening : ∃ tail, opened.rest = '(' :: tail) :
    parseCommand limits command c opened = (do
      let (node, last) ← readCommand limits command c opened
      last.expectEnd
      .ok node) := by
  rw [parseCommand, readCommand, ← outcome_scanArgumentsFrom hOpening, ScannedArguments.outcome]
  cases (scanArgumentsFrom command.keyword c.position false opened).last <;>
    simp only [bind_assoc] <;> rfl

lemma parseNode_eq (limits : Limits) (category : Category) (text : List Char) :
    parseNode limits category text = (do
      limits.checkLength text
      let (node, last) ← readExpression limits category (Cursor.start text).skipFiller
      last.expectEnd
      .ok node) := by
  rw [parseNode, readExpression]
  congr 1
  funext _
  cases hKeyword : scanKeyword (Cursor.start text).skipFiller with
  | error e => simp only [hKeyword, bind, Except.bind]
  | ok found =>
    obtain ⟨command, opened⟩ := found
    simp only [hKeyword, Except.ok_bind]
    split
    · exact parseCommand_eq_readCommand _ _ _ (length_of_scanKeyword hKeyword).2
    · rfl

variable {limits : Limits} {category : Category}

lemma Category.ne_of_accepts {command : Command} (h : category.accepts command.kind = true) :
    command ≠ .constraint ∧ command ≠ .reference ∧ command ≠ .options := by
  refine ⟨?_, ?_, ?_⟩ <;> rintro rfl <;> cases category <;> cases h

/-! ## Lengths -/

lemma Limits.checkLength_eq_ok {text : List Char}
    (h : ∀ most ∈ limits.maxInputLength, text.length ≤ most) :
    limits.checkLength text = .ok () := by
  unfold checkLength
  split
  · rename_i most hMost
    rw [if_neg (Nat.not_lt.2 (h most hMost))]
  · rfl

/-- A text is refused for its length exactly if it is longer than the limit. -/
lemma Limits.checkLength_eq_error {text : List Char} {e : ParseError} :
    limits.checkLength text = .error e ↔ ∃ most, limits.maxInputLength = some most ∧
      most < text.length ∧ e = .inputTooLong most text.length := by
  constructor
  · intro h
    unfold checkLength at h
    split at h
    · split at h <;> cases h
      exact ⟨_, ‹_›, ‹_›, rfl⟩
    · cases h
  · rintro ⟨most, hMost, hLong, rfl⟩
    simp only [checkLength, hMost, if_pos hLong]

/-! ## Results and errors -/

lemma parseNode_eq_ok {text : List Char} {node : Node} :
    parseNode limits category text = .ok node ↔
      limits.checkLength text = .ok () ∧ ∃ last,
        readExpression limits category (Cursor.start text).skipFiller = .ok (node, last) ∧
          last.rest = [] := by
  rw [parseNode_eq]
  constructor
  · intro h
    obtain ⟨⟨⟩, hLength, h⟩ := Except.bind_eq_ok.1 h
    obtain ⟨⟨found, last⟩, hRead, h⟩ := Except.bind_eq_ok.1 h
    obtain ⟨⟨⟩, hEnd, h⟩ := Except.bind_eq_ok.1 h
    cases h
    refine ⟨hLength, last, hRead, ?_⟩
    unfold Cursor.expectEnd at hEnd
    split at hEnd
    · exact List.isEmpty_iff.1 ‹_›
    · cases hEnd
  · rintro ⟨hLength, last, hRead, hEnd⟩
    simp only [hLength, hRead, Cursor.expectEnd, hEnd, bind, Except.bind, List.isEmpty_nil, if_true]

/-- A text is refused because it is too long, because no expression can be read at its beginning, or
because something is left behind the expression. -/
lemma parseNode_eq_error {text : List Char} {e : ParseError} :
    parseNode limits category text = .error e ↔
      limits.checkLength text = .error e ∨
        (limits.checkLength text = .ok () ∧
          (readExpression limits category (Cursor.start text).skipFiller = .error e ∨
            ∃ node last, readExpression limits category (Cursor.start text).skipFiller
              = .ok (node, last) ∧ last.rest ≠ [] ∧ e = .trailingInput last.position)) := by
  rw [parseNode_eq]
  constructor
  · intro h
    rcases Except.bind_eq_error.1 h with h | ⟨⟨⟩, hLength, h⟩
    · exact Or.inl h
    refine Or.inr ⟨hLength, ?_⟩
    rcases Except.bind_eq_error.1 h with h | ⟨⟨node, last⟩, hRead, h⟩
    · exact Or.inl h
    rcases Except.bind_eq_error.1 h with h | ⟨⟨⟩, -, h⟩
    · unfold Cursor.expectEnd at h
      split at h
      · cases h
      · rename_i hEnd
        cases h
        exact Or.inr ⟨node, last, hRead, fun hRest => hEnd (List.isEmpty_iff.2 hRest), rfl⟩
    · cases h
  · rintro (hLength | ⟨hLength, hRead | ⟨node, last, hRead, hRest, rfl⟩⟩)
    · rw [hLength]
      rfl
    · rw [hLength, hRead]
      rfl
    · have hEnd : last.rest.isEmpty = false := List.isEmpty_eq_false_iff.2 hRest
      simp only [hLength, hRead, Cursor.expectEnd, hEnd, bind, Except.bind, Bool.false_eq_true,
        if_false]

/-- What is read at a place has been built of the command that stands there. -/
lemma readExpression_eq_ok {c last : Cursor} {node : Node} :
    readExpression limits category c = .ok (node, last) ↔
      ∃ command opened, scanKeyword c = .ok (command, opened) ∧
        category.accepts command.kind = true ∧ limits.enter 1 c.position = .ok () ∧
        ∃ args, collect limits 1 command
            (readArguments command.keyword c.position (opened.advance 1)).1 = .ok args ∧
          command.checkCount args = .ok () ∧ command.build args = .ok node ∧
          (readArguments command.keyword c.position (opened.advance 1)).2 = .ok last := by
  constructor
  · intro h
    obtain ⟨⟨command, opened⟩, hKeyword, h⟩ := Except.bind_eq_ok.1 h
    simp only at h
    split at h
    · rename_i hAccepts
      obtain ⟨⟨⟩, hEnter, h⟩ := Except.bind_eq_ok.1 h
      obtain ⟨args, hCollect, h⟩ := Except.bind_eq_ok.1 h
      obtain ⟨⟨⟩, hCount, h⟩ := Except.bind_eq_ok.1 h
      obtain ⟨found, hBuild, h⟩ := Except.bind_eq_ok.1 h
      obtain ⟨place, hLast, h⟩ := Except.bind_eq_ok.1 h
      cases h
      exact ⟨command, opened, hKeyword, hAccepts, hEnter, args, hCollect, hCount, hBuild, hLast⟩
    · cases h
  · rintro ⟨command, opened, hKeyword, hAccepts, hEnter, args, hCollect, hCount, hBuild, hLast⟩
    simp only [readExpression, hKeyword, bind, Except.bind, if_pos hAccepts, readCommand, hEnter,
      hCollect, hCount, hBuild, hLast]

end PolicyText
