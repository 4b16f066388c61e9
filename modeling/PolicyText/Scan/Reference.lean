import PolicyText.Scan.Content

/-!
# References in the text

The parentheses of a reference, `#ref(id, version)`, hold one or two tokens of content and no other
command.  `scanReference` reads them and makes progress (`length_of_scanReference`).
-/

namespace PolicyText

/-- Reads tokens of content up to the closing parenthesis.  The keyword and the place of the opening
parenthesis are those of the reference. -/
def scanEntries (keyword : String) (opened : Nat) (c : Cursor) :
    Except ParseError (List String × Cursor) :=
  match _ : c.rest with
  | [] => .error (.notCompleted keyword opened)
  | d :: _ =>
    match _ : CharClass.of d with
    | .closing => .ok ([], (c.advance 1).skipFiller)
    | .delimiter | .filler | .opening => scanEntries keyword opened (c.advance 1)
    | .sigil => .error (.nestedInReference c.position)
    | .content =>
      match _ : scanContent ',' c with
      | .error error => .error error
      | .ok (text, next) =>
        match scanEntries keyword opened next with
        | .error error => .error error
        | .ok (entries, last) => .ok (text :: entries, last)
termination_by c.rest.length
decreasing_by
  all_goals first
    | exact length_of_scanContent ‹_› (endsContent_of_content ‹_›) ‹_›
    | simp [‹c.rest = _›]

/-- The entries and the closing parenthesis are behind the place at which they were looked for. -/
theorem length_of_scanEntries {keyword : String} {opened : Nat} {c last : Cursor}
    {entries : List String} (h : scanEntries keyword opened c = .ok (entries, last)) :
    last.rest.length < c.rest.length := by
  fun_induction scanEntries keyword opened c generalizing entries last with
  | case1 => cases h
  | case2 c d _ hRest =>
    cases h
    have := Cursor.length_rest_skipFiller_le (c.advance 1)
    simp only [Cursor.length_rest_advance] at this
    simp only [hRest, List.length_cons] at this ⊢
    omega
  | case3 c d _ hRest _ ih | case4 c d _ hRest _ ih | case5 c d _ hRest _ ih =>
    have := ih h
    simp only [Cursor.length_rest_advance] at this
    omega
  | case6 => cases h
  | case7 => cases h
  | case8 => cases h
  | case9 c d _ hRest hClass _ _ hContent _ _ hTail ih =>
    cases h
    have := length_of_scanContent hRest (endsContent_of_content hClass) hContent
    have := ih hTail
    omega

/-- Reads the entries of the reference whose parenthesis opens at a place. -/
def scanReference (keyword : String) (c : Cursor) : Except ParseError (List String × Cursor) :=
  if c.rest.head? = some '(' then
    match scanEntries keyword c.position (c.advance 1) with
    | .error error => .error error
    | .ok (entries, last) =>
      if entries.length = 0 ∨ 2 < entries.length then
        .error (.referenceArity entries.length c.position)
      else .ok (entries, last)
  else .error (.notStarted keyword c.position)

theorem length_of_scanReference {keyword : String} {c last : Cursor} {entries : List String}
    (h : scanReference keyword c = .ok (entries, last)) :
    last.rest.length < c.rest.length := by
  unfold scanReference at h
  split at h
  · split at h
    · cases h
    · rename_i hEntries
      have := length_of_scanEntries hEntries
      simp only [Cursor.length_rest_advance] at this
      split at h <;> cases h
      omega
  · cases h

end PolicyText
