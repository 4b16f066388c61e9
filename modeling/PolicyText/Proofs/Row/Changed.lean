import PolicyText.Proofs.Row.Meaning

/-!
# Changes of rows

A change can be made to the row of an expression, or to the row between the parentheses of one of
its items, at any depth, and it can be made repeatedly (`AtAnyDepth`).  If a single change keeps what
a row means to the command around it (`KeepsMeaning`), all of them together keep what the expression
is read as (`WrittenExpression.parseNode_changed`).

A command makes the same of two collections of arguments (`Command.MakesSame`) if it counts them and
builds its piece from them alike, so that nothing is noticed of the change further outside.
-/

namespace PolicyText

variable {limits : Limits} {depth : Nat} {parent child : Command}

/-- Whether a command makes of other arguments what it makes of given ones. -/
structure Command.MakesSame (command : Command) (args others : Collected) : Prop where
  count : command.checkCount others = command.checkCount args
  piece : ∀ piece, command.piece args = .ok piece → command.piece others = .ok piece

namespace Command.MakesSame

variable {command : Command} {args others third : Collected}

lemma refl (command : Command) (args : Collected) : command.MakesSame args args :=
  ⟨rfl, fun _ => id⟩

lemma trans (h : command.MakesSame args others) (hNext : command.MakesSame others third) :
    command.MakesSame args third :=
  ⟨hNext.count.trans h.count, fun piece hPiece => hNext.piece piece (h.piece piece hPiece)⟩

lemma build {node : Node} (h : command.MakesSame args others) (hConstraint : command ≠ .constraint)
    (hBuild : command.build args = .ok node) : command.build others = .ok node := by
  have hPiece := h.piece (.child node) (by rw [Command.piece, if_neg hConstraint, hBuild]; rfl)
  obtain ⟨slot, -, -, ⟨⟩⟩ | ⟨_, -, hOther, ⟨⟩⟩ := Command.piece_eq_ok hPiece
  exact hOther

end Command.MakesSame

/-- Changes to a row or to the rows between the parentheses of its items, at any depth.  What a step
is can depend on the command around the row. -/
inductive AtAnyDepth (step : Command → List WrittenItem → List WrittenItem → Prop) :
    Command → List WrittenItem → List WrittenItem → Prop where
  | step {parent : Command} {items others : List WrittenItem} (hStep : step parent items others) :
    AtAnyDepth step parent items others
  | inside {parent child : Command} {front back items others : List WrittenItem}
    {space : List Char} (hOptions : child ≠ .options) (hReference : child ≠ .reference)
    (hWhole : ∀ item ∈ items, item.IsWhole) (hInside : AtAnyDepth step child items others) :
    AtAnyDepth step parent (front ++ .command child space (rowText items) :: back)
      (front ++ .command child space (rowText others) :: back)
  | trans {parent : Command} {items others third : List WrittenItem}
    (hFirst : AtAnyDepth step parent items others) (hNext : AtAnyDepth step parent others third) :
    AtAnyDepth step parent items third

/-- What changes keep: items stay whole, and the command around them makes the same of them. -/
structure KeepsMeaning (limits : Limits)
    (step : Command → List WrittenItem → List WrittenItem → Prop) : Prop where
  isWhole : ∀ {parent items others}, step parent items others →
    (∀ item ∈ items, item.IsWhole) → ∀ item ∈ others, item.IsWhole
  gives : ∀ {parent items others depth pieces}, step parent items others →
    (∀ item ∈ items, item.IsWhole) → RowGives limits depth parent items pieces →
      ∃ moved, RowGives limits depth parent others moved ∧
        parent.MakesSame (.ofPieces pieces) (.ofPieces moved)

namespace AtAnyDepth

variable {step : Command → List WrittenItem → List WrittenItem → Prop}
  {items others : List WrittenItem}

lemma length_eq (hStep : ∀ {parent items others}, step parent items others →
      (rowText others).length = (rowText items).length) (h : AtAnyDepth step parent items others) :
    (rowText others).length = (rowText items).length := by
  induction h with
  | step h => exact hStep h
  | inside hOptions hReference hWhole hInside ih =>
    simp only [rowText_append, rowText_cons, List.length_append, WrittenItem.text,
      Command.length_enclosing, ih]
  | trans hFirst hNext ihFirst ihNext => exact ihNext.trans ihFirst

lemma isWhole (hStep : KeepsMeaning limits step) (h : AtAnyDepth step parent items others)
    (hWhole : ∀ item ∈ items, item.IsWhole) : ∀ item ∈ others, item.IsWhole := by
  induction h with
  | step h => exact hStep.isWhole h hWhole
  | @inside parent child front back items others space hOptions hReference hInner hInside ih =>
    simp only [List.mem_append, List.mem_cons] at hWhole ⊢
    rintro item (hFront | rfl | hBack)
    · exact hWhole item (.inl hFront)
    · have hOld : (WrittenItem.command child space (rowText items)).IsWhole :=
        hWhole _ (.inr (.inl rfl))
      exact ⟨hOld.1, Command.isClosedBy_row (ih hInner) hOptions hReference⟩
    · exact hWhole item (.inr (.inr hBack))
  | trans hFirst hNext ihFirst ihNext => exact ihNext (ihFirst hWhole)

end AtAnyDepth

/-- What every step keeps is kept at any depth: an item that is changed inside contributes the same
as before, so the row around it needs no change. -/
lemma KeepsMeaning.atAnyDepth {step : Command → List WrittenItem → List WrittenItem → Prop}
    (hStep : KeepsMeaning limits step) : KeepsMeaning limits (AtAnyDepth step) where
  isWhole h := h.isWhole hStep
  gives {parent items others depth pieces} h hWhole hRow := by
    induction h generalizing depth pieces with
    | step h => exact hStep.gives h hWhole hRow
    | @inside parent child front back items others space hOptions hReference hInner hInside ih =>
      refine ⟨pieces, hRow.replace fun piece hItem => ?_, .refl _ _⟩
      obtain ⟨hAdmits, hContributes⟩ := (gives_command hOptions hReference).1 hItem
      obtain ⟨hEnter, inner, hGives, hCount, hPiece⟩ :=
        (Command.contributes_row hInner).1 hContributes
      obtain ⟨moved, hMoved, hSame⟩ := ih hInner hGives
      exact (gives_command hOptions hReference).2 ⟨hAdmits,
        (Command.contributes_row (hInside.isWhole hStep hInner)).2
          ⟨hEnter, moved, hMoved, hSame.count.trans hCount, hSame.piece piece hPiece⟩⟩
    | trans hFirst hNext ihFirst ihNext =>
      obtain ⟨moved, hMoved, hSame⟩ := ihFirst hWhole hRow
      obtain ⟨last, hLast, hMore⟩ := ihNext (hFirst.isWhole hStep hWhole) hMoved
      exact ⟨last, hLast, hSame.trans hMore⟩

lemma WrittenExpression.parseNode_changed {category : Category} {e : WrittenExpression}
    {others : List WrittenItem} {node : Node}
    {change : Command → List WrittenItem → List WrittenItem → Prop}
    (hKeeps : KeepsMeaning limits change) (hWhole : e.IsWhole)
    (hChange : change e.command e.items others)
    (hLength : limits.checkLength (e.withItems others).text = limits.checkLength e.text)
    (h : parseNode limits category e.text = .ok node) :
    parseNode limits category (e.withItems others).text = .ok node := by
  have hOther : (e.withItems others).IsWhole :=
    ⟨hWhole.lead, hWhole.space, hWhole.trail, hKeeps.isWhole hChange hWhole.items⟩
  obtain ⟨hCheck, hAccepts, hEnter, pieces, hRow, hCount, hBuild⟩ := (parseNode_eq_ok hWhole).1 h
  obtain ⟨moved, hMoved, hSame⟩ := hKeeps.gives hChange hWhole.items hRow
  exact (parseNode_eq_ok hOther).2 ⟨hLength.trans hCheck, hAccepts, hEnter, moved, hMoved,
    hSame.count.trans hCount, hSame.build (Category.ne_of_accepts hAccepts).1 hBuild⟩

end PolicyText
