import PolicyText.Proofs.Scan.Groups

/-!
# Parentheses of a text

The loop over arguments and the one over the entries of a reference pass over further opening
parentheses, a key or a value of an option list goes on over them, and so does content without a
wrapper.  What an opening parenthesis does is told by the part in which it stands (`OpeningAt`).

What one part has of parentheses is said once for a step (`ReadsPart.openingAt`,
`ReadsPart.count_opening`, `ReadsPart.count_closing`) and carried to whole readings by induction.
Only the closing ones need a text without wrappers: a wrapper can hold some that close nothing.
-/

namespace PolicyText

/-! ## Opening parentheses -/

/-- What an opening parenthesis does that stands in a part behind `u` and before `v`, while groups
are open: it opens the group of a command, directly behind the keyword and fillers, or it is passed
over between the items of a group, or it belongs to a content or to an entry. -/
inductive OpeningAt : List OpenGroup → TextPart → List Char → List Char → Prop where
  | group {stack : List OpenGroup} {command : Command} {pad : List Char}
    (hPad : ∀ d ∈ pad, isFiller d = true) :
    OpeningAt stack (.opening command pad) (command.keyword.toList ++ pad) []
  | surplus {group : OpenGroup} {stack : List OpenGroup} (hOptions : group.command ≠ .options) :
    OpeningAt (group :: stack) (.passed '(') [] []
  | content {group : OpenGroup} {stack : List OpenGroup} {u v : List Char}
    (hOptions : group.command ≠ .options) :
    OpeningAt (group :: stack) (.content (u ++ '(' :: v)) u v
  | entry {group : OpenGroup} {stack : List OpenGroup} {u v : List Char}
    (hOptions : group.command = .options) : OpeningAt (group :: stack) (.entry (u ++ '(' :: v)) u v

/-- An opening parenthesis that stands in parts behind `front` and before `back` does one of these
things in the part that has it, while those groups are open that the parts before leave open. -/
def OpeningAmong (stack : List OpenGroup) (c : Cursor) (parts : List TextPart)
    (front back : List Char) : Prop :=
  ∃ earlier part later groups place u v, parts = earlier ++ part :: later ∧
    ReadsParts stack c earlier groups place ∧ OpeningAt groups part u v ∧
    front = earlier.flatMap TextPart.text ++ u ∧ back = v ++ later.flatMap TextPart.text

lemma exists_of_append_eq {first rest front back : List Char} {d : Char}
    (h : first ++ rest = front ++ d :: back) :
    (∃ run, front = first ++ run ∧ rest = run ++ d :: back) ∨
      ∃ v, first = front ++ d :: v ∧ back = v ++ rest := by
  obtain ⟨run, hFront, hRest⟩ | ⟨run, hFirst, hBack⟩ := List.append_eq_append_iff.1 h
  · exact Or.inl ⟨run, hFront, hRest⟩
  obtain ⟨rfl, hRest⟩ | ⟨v, rfl, hRest⟩ := List.cons_eq_append_iff.1 hBack
  · exact Or.inl ⟨[], by rw [hFirst, List.append_nil, List.append_nil], hRest⟩
  · exact Or.inr ⟨v, hFirst, hRest⟩

lemma not_mem_of_fillers {pad : List Char} {d : Char} (hd : isFiller d = false)
    (hPad : ∀ d ∈ pad, isFiller d = true) : d ∉ pad := by
  intro hMem
  rw [hPad d hMem] at hd
  cases hd

lemma not_mem_takeWhile_isFiller {d : Char} (hd : isFiller d = false) (text : List Char) :
    d ∉ text.takeWhile isFiller :=
  not_mem_of_fillers hd fun e he => @List.mem_takeWhile_imp _ isFiller text e he

section Opening

variable {stack between : List OpenGroup} {c d : Cursor} {part : TextPart} {u v : List Char}

/-- Every opening parenthesis of a part does one of these things. -/
lemma ReadsPart.openingAt (h : ReadsPart stack c part between d)
    (hText : part.text = u ++ '(' :: v) : OpeningAt stack part u v := by
  cases h with
  | @opening _ _ command pad _ _ hPad =>
    obtain ⟨-, -, hKeyword, -⟩ := command.keyword_spec
    have hFront : '(' ∉ command.keyword.toList ++ pad := fun hMem =>
      (List.mem_append.1 hMem).elim hKeyword (not_mem_of_fillers rfl hPad)
    rw [TextPart.text, ← List.append_assoc,
      List.append_cons_inj_of_notMem hFront List.not_mem_nil] at hText
    obtain ⟨rfl, -, rfl⟩ := hText
    exact .group hPad
  | @closing _ _ _ tail =>
    have hMem : '(' ∈ ')' :: tail.takeWhile isFiller := by
      rw [show ')' :: tail.takeWhile isFiller = u ++ '(' :: v from hText]
      simp
    obtain hHere | hPad := List.mem_cons.1 hMem
    · cases hHere
    · exact absurd hPad (not_mem_takeWhile_isFiller rfl tail)
  | @passed group _ _ d _ hSkips =>
    obtain ⟨rfl, rfl, rfl⟩ := (@List.append_cons_inj_of_notMem _ [] u [] v d '('
      List.not_mem_nil List.not_mem_nil).1 hText
    refine .surplus fun hOptions => ?_
    cases hSkips.separates hOptions
  | content hOptions =>
    obtain rfl : _ = u ++ '(' :: v := hText
    exact .content hOptions
  | entry hOptions =>
    obtain rfl : _ = u ++ '(' :: v := hText
    exact .entry hOptions

/-- The opening parentheses of a part are one that opens a group, a surplus one, or text of an
item. -/
lemma ReadsPart.count_opening (h : ReadsPart stack c part between d) :
    part.text.count '(' =
      part.command?.toList.length + (if part.isSurplus then 1 else 0) + part.item.count '(' := by
  cases h with
  | @opening _ _ command pad _ _ hPad =>
    obtain ⟨-, -, hKeyword, -⟩ := command.keyword_spec
    have hPad : '(' ∉ pad := not_mem_of_fillers rfl hPad
    simp [List.count_eq_zero.2 hKeyword, List.count_eq_zero.2 hPad]
  | @closing _ _ _ tail =>
    have hPad : '(' ∉ tail.takeWhile isFiller := not_mem_takeWhile_isFiller rfl tail
    simp [List.count_eq_zero.2 hPad]
  | @passed _ _ _ d =>
    cases hd : d == '(' <;> simp [List.count_singleton, hd]
  | content => simp
  | entry => simp

end Opening

namespace ReadsParts

variable {stack between : List OpenGroup} {c d : Cursor} {parts : List TextPart}

lemma openingAmong {front back : List Char} (h : ReadsParts stack c parts between d)
    (hText : parts.flatMap TextPart.text = front ++ '(' :: back) :
    OpeningAmong stack c parts front back := by
  induction h generalizing front with
  | done => exact absurd hText (by simp)
  | @step stack _ _ c _ _ part parts hPart _ ih =>
    rw [List.flatMap_cons] at hText
    obtain ⟨run, rfl, hRun⟩ | ⟨v, hPartText, hBack⟩ := exists_of_append_eq hText
    · obtain ⟨earlier, found, later, groups, place, u, v, rfl, hRead, hOpening, rfl, rfl⟩ := ih hRun
      exact ⟨part :: earlier, found, later, groups, place, u, v, rfl, .step hPart hRead, hOpening,
        by rw [List.flatMap_cons, List.append_assoc], rfl⟩
    · exact ⟨[], part, parts, stack, c, front, v, rfl, .done _ _, hPart.openingAt hPartText, rfl,
        hBack⟩

lemma count_opening (h : ReadsParts stack c parts between d) :
    (parts.flatMap TextPart.text).count '(' =
      (parts.filterMap TextPart.command?).length + parts.countP TextPart.isSurplus +
        (parts.flatMap TextPart.item).count '(' := by
  induction h with
  | done => rfl
  | @step _ _ _ _ _ _ part parts hPart _ ih =>
    rw [List.flatMap_cons, List.count_append, hPart.count_opening, ih, List.flatMap_cons,
      List.count_append, length_command?_cons, List.countP_cons]
    omega

end ReadsParts

/-! ## Closing parentheses -/

/-- A text without wrappers. -/
def IsPlain (text : List Char) : Prop :=
  ∀ d ∈ text, d ≠ '\x60' ∧ d ≠ '\x22'

instance : DecidablePred IsPlain := fun text =>
  inferInstanceAs (Decidable (∀ d ∈ text, d ≠ '\x60' ∧ d ≠ '\x22'))

lemma IsPlain.of_append {run rest : List Char} (h : IsPlain (run ++ rest)) : IsPlain rest :=
  fun d hd => h d (List.mem_append_right run hd)

lemma IsPlain.of?_eq_none {text : List Char} (h : IsPlain text) : Wrapper.of? text = none := by
  cases hWrapper : Wrapper.of? text with
  | none => rfl
  | some w =>
    have hText := Wrapper.eq_mark_append_of_of? hWrapper
    have hMark : ∀ d ∈ w.mark, d ≠ '\x60' ∧ d ≠ '\x22' := fun d hd =>
      h d (hText ▸ List.mem_append_left _ hd)
    cases w with
    | backtick => exact absurd rfl (hMark '\x60' (by decide)).1
    | quote => exact absurd rfl (hMark '\x22' (by decide)).2
    | tripleQuote => exact absurd rfl (hMark '\x22' (by decide)).2

/-- No closing parenthesis stands between two places. -/
def Cursor.LeadsInside (c d : Cursor) : Prop :=
  ∃ run, c.rest = run ++ d.rest ∧ ')' ∉ run

section Closing

variable {c d e next : Cursor}

lemma IsPlain.leadsInside (h : IsPlain c.rest) (hLeads : c.LeadsInside d) : IsPlain d.rest := by
  obtain ⟨run, hRun, -⟩ := hLeads
  exact .of_append (hRun ▸ h)

lemma Cursor.LeadsInside.trans (hFirst : c.LeadsInside d) (hSecond : d.LeadsInside e) :
    c.LeadsInside e := by
  obtain ⟨run, hRest, hRun⟩ := hFirst
  obtain ⟨more, hMore, hRunMore⟩ := hSecond
  refine ⟨run ++ more, by rw [hRest, hMore, List.append_assoc], ?_⟩
  simp only [List.mem_append, hRun, hRunMore, or_self, not_false_eq_true]

lemma Cursor.leadsInside_skipWhile {p : Char → Bool} (hp : p ')' = false) (c : Cursor) :
    c.LeadsInside (c.skipWhile p) := by
  refine ⟨c.rest.takeWhile p, List.takeWhile_append_dropWhile.symm, fun hMem => ?_⟩
  rw [@List.mem_takeWhile_imp _ p c.rest ')' hMem] at hp
  cases hp

lemma leadsInside_of_scanContent {text : String} (hPlain : IsPlain c.rest)
    (h : scanContent ',' c = .ok (text, next)) : c.LeadsInside next := by
  unfold scanContent at h
  rw [hPlain.of?_eq_none] at h
  dsimp only at h
  split at h
  · cases h
  · cases h
    exact Cursor.leadsInside_skipWhile rfl c

/-- So does the value of an option. -/
lemma leadsInside_of_scanOptionRest {keyword key value : String} {opened : Nat}
    (hPlain : IsPlain c.rest) (h : scanOptionRest keyword opened key c = .ok (value, next)) :
    c.LeadsInside next := by
  unfold scanOptionRest at h
  split at h
  · rename_i hHead
    obtain ⟨tail, hTail⟩ := List.head?_eq_some_iff.1 hHead
    have hAdvance : c.LeadsInside (c.advance 1) :=
      ⟨['='], by rw [hTail, Cursor.advance, hTail]; rfl, by decide⟩
    have hSkip := hAdvance.trans (@Cursor.leadsInside_skipWhile Text.isBlank rfl _)
    unfold scanOptionValue at h
    split at h
    · cases h
    · split at h
      · cases h
      · exact hSkip.trans (leadsInside_of_scanContent (hPlain.leadsInside hSkip) h)
  · split at h
    · cases h
      exact ⟨[], rfl, List.not_mem_nil⟩
    · cases h

lemma leadsInside_of_scanOption {keyword : String} {opened : Nat} {pair : String × String}
    (hPlain : IsPlain c.rest) (h : scanOption keyword opened c = .ok (pair, next)) :
    c.LeadsInside next := by
  have hKey : c.LeadsInside (c.skipWhile fun d => !endsKey d) :=
    Cursor.leadsInside_skipWhile rfl c
  simp only [scanOption] at h
  split at h
  · cases h
  split at h
  · cases h
  split at h
  · cases h
  rename_i hRest
  split at h
  · cases h
  · cases h
    exact hKey.trans (leadsInside_of_scanOptionRest (hPlain.leadsInside hKey) hRest)

lemma Cursor.LeadsInside.closing_not_mem {run : List Char} (h : c.LeadsInside d)
    (hRun : c.rest = run ++ d.rest) : ')' ∉ run := by
  obtain ⟨other, hOther, hMem⟩ := h
  rw [hRun, List.append_cancel_right_eq] at hOther
  rwa [hOther]

lemma Command.closing_not_mem_keyword (command : Command) : ')' ∉ command.keyword.toList := by
  have h : ∀ command ∈ all, ')' ∉ command.keyword.toList := by decide +kernel
  exact h command (mem_all command)

variable {stack between : List OpenGroup} {part : TextPart} {parts : List TextPart}

/-- The closing parentheses of a part close groups, unless they are in a wrapper. -/
lemma ReadsPart.count_closing (h : ReadsPart stack c part between d) (hPlain : IsPlain c.rest) :
    part.text.count ')' = if part.closes then 1 else 0 := by
  cases h with
  | @opening _ _ command pad _ _ hPad =>
    have hPad : ')' ∉ pad := not_mem_of_fillers rfl hPad
    simp [List.count_eq_zero.2 command.closing_not_mem_keyword, List.count_eq_zero.2 hPad]
  | @closing _ _ _ tail =>
    have hPad : ')' ∉ tail.takeWhile isFiller := not_mem_takeWhile_isFiller rfl tail
    simp [List.count_eq_zero.2 hPad]
  | @passed group _ _ d _ hSkips =>
    have hClosing : ')' ∉ [d] := by
      rintro hMem
      rw [← List.mem_singleton.1 hMem] at hSkips
      exact Command.not_skips_closing _ hSkips
    exact List.count_eq_zero.2 hClosing
  | content _ _ hContent hRun =>
    exact List.count_eq_zero.2 ((leadsInside_of_scanContent hPlain hContent).closing_not_mem hRun)
  | entry _ _ _ hEntry hRun =>
    exact List.count_eq_zero.2 ((leadsInside_of_scanOption hPlain hEntry).closing_not_mem hRun)

lemma ReadsParts.count_closing (h : ReadsParts stack c parts between d) (hPlain : IsPlain c.rest) :
    (parts.flatMap TextPart.text).count ')' = parts.countP TextPart.closes := by
  induction h with
  | done => rfl
  | @step _ _ _ _ _ _ part _ hPart _ ih =>
    have hFurther := ih (.of_append (hPart.rest_eq ▸ hPlain))
    rw [List.flatMap_cons, List.count_append, hPart.count_closing hPlain, hFurther,
      List.countP_cons, Nat.add_comm]

end Closing

end PolicyText
