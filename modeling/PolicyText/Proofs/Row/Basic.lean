import PolicyText.Proofs.Scan.Larger
import PolicyText.Proofs.Scan.Swapped
import PolicyText.Proofs.Tree.Decode

/-!
# Rows of items

Between the parentheses of a command that takes no contents stand commands, and between these
nothing but characters that are passed over.  `WrittenItem` is one or the other, and `rowText` the
text of a row of them.

What stands between the parentheses of an item is not taken apart here, and it need not be: an item
is whole (`WrittenItem.IsWhole`) if its last parenthesis is the one that closes it, and this depends
on nothing that follows the parenthesis (`Cursor.Encloses.anywhere`).  So each item of a row is read
as it is on its own, whatever row it stands in (`readArguments_row`); and wherever arguments without
contents are closed, there is a row of whole items before the closing parenthesis
(`ReadsArguments.exists_row`).
-/

namespace PolicyText

/-! ## Up to a parenthesis -/

/-- What ends with a parenthesis is scanned whatever follows the parenthesis. -/
lemma Cursor.Encloses.exists_run {c next : Cursor} {scans : Cursor → Cursor → Prop}
    (h : c.Encloses next scans) :
    ∃ run after, c.rest = run ++ ')' :: after ∧
      next = Cursor.skipFiller ⟨c.position + run.length + 1, after⟩ ∧
      ∀ position other, scans ⟨position, run ++ ')' :: other⟩
        (Cursor.skipFiller ⟨position + run.length + 1, other⟩) := by
  obtain ⟨close, after, ⟨run, hRest, hClose⟩, hNext, hOther⟩ := h
  obtain rfl : close = c.position + run.length := hClose
  refine ⟨run, after, hRest, hNext, fun position other => ?_⟩
  have hText : Swapped (')' :: after) (')' :: other) c.rest (run ++ ')' :: other) :=
    ⟨run, hRest, rfl⟩
  obtain ⟨place, behind, ⟨before, hBefore, hPlace⟩, hScan, hEnd⟩ :=
    hOther (')' :: after) (')' :: other) ⟨position, run ++ ')' :: other⟩ rfl (List.suffix_refl _)
      hText
  -- The other scanner has come to the same parenthesis.
  obtain ⟨none, hNone, hBehind⟩ := hEnd
  obtain rfl := List.self_eq_append_left.1 hNone
  cases hBehind
  obtain rfl : run = before := List.append_cancel_right hBefore
  obtain rfl : place = position + run.length := hPlace
  exact hScan

/-- What ends with the last character of a text is scanned wherever this text stands. -/
lemma Cursor.Encloses.anywhere {front : List Char} {last : Cursor} {scans : Cursor → Cursor → Prop}
    (h : (Cursor.start (front ++ [')'])).Encloses last scans) (hLast : last.rest = [])
    (position : Nat) (other : List Char) :
    scans ⟨position, front ++ ')' :: other⟩
      (Cursor.skipFiller ⟨position + front.length + 1, other⟩) := by
  obtain ⟨run, after, hRest, rfl, hScan⟩ := h.exists_run
  have hFillers : ∀ c ∈ after, isFiller c = true := List.dropWhile_eq_nil_iff.1 hLast
  -- The text ends with a parenthesis, which is no filler.
  obtain rfl : after = [] := by
    obtain rfl | ⟨init, d, rfl⟩ := List.eq_nil_or_concat after
    · rfl
    · have hEnd : front ++ [')'] = (run ++ ')' :: init) ++ [d] :=
        hRest.trans (by rw [List.concat_eq_append, List.append_assoc, List.cons_append])
      obtain ⟨-, hd⟩ := List.append_inj' hEnd rfl
      cases hd
      cases hFillers ')' (by simp)
  obtain rfl : front = run := List.append_cancel_right hRest
  exact hScan position other

/-! ## Items -/

/-- What can stand between the parentheses of a command that takes no contents: a character that is
passed over, or a command with the text between its own parentheses.  There can be room before
them. -/
inductive WrittenItem where
  | gap (c : Char)
  | command (command : Command) (space inner : List Char)
  deriving DecidableEq

/-- Whether a character is passed over between items. -/
def IsGap (c : Char) : Prop :=
  CharClass.of c = .delimiter ∨ CharClass.of c = .filler ∨ CharClass.of c = .opening

instance (c : Char) : Decidable (IsGap c) :=
  inferInstanceAs (Decidable (_ ∨ _))

/-- The arguments of a command that has a text between its parentheses and nothing around it. -/
def Command.ownArguments (command : Command) (inner : List Char) :
    Arguments × Except ParseError Cursor :=
  readArguments command.keyword 0 (Cursor.start (inner ++ [')']))

/-- The parenthesis behind a text closes a command whose parenthesis opens before it, and not one
that stands in the text. -/
def Command.IsClosedBy : Command → List Char → Prop
  | .options, inner =>
    ∃ raw last, scanOptions Command.options.keyword (Cursor.start ('(' :: inner ++ [')']))
      = .ok (raw, last) ∧ last.rest = []
  | .reference, inner =>
    ∃ entries last, scanReference Command.reference.keyword (Cursor.start ('(' :: inner ++ [')']))
      = .ok (entries, last) ∧ last.rest = []
  | command, inner => ∃ last, (command.ownArguments inner).2 = .ok last ∧ last.rest = []

namespace WrittenItem

/-- An item as it is written. -/
def text : WrittenItem → List Char
  | .gap c => [c]
  | .command child space inner => child.enclosing space inner

/-- An item begins and ends where a reader takes it to begin and to end. -/
def IsWhole : WrittenItem → Prop
  | .gap c => IsGap c
  | .command child space inner => IsPadding space ∧ child.IsClosedBy inner

end WrittenItem

/-- Items as they are written, one behind the other. -/
def rowText (items : List WrittenItem) : List Char :=
  items.flatMap WrittenItem.text

lemma rowText_cons (item : WrittenItem) (items : List WrittenItem) :
    rowText (item :: items) = item.text ++ rowText items :=
  rfl

lemma rowText_append (front back : List WrittenItem) :
    rowText (front ++ back) = rowText front ++ rowText back :=
  List.flatMap_append

lemma rowText_map_gap (text : List Char) : rowText (text.map .gap) = text := by
  induction text with
  | nil => rfl
  | cons c text ih =>
    rw [List.map_cons, rowText_cons, ih, WrittenItem.text, List.singleton_append]

lemma isGap_of_isFiller {c : Char} (h : isFiller c = true) : IsGap c :=
  Or.inr (Or.inl (isFiller_iff.1 h))

/-! ## Reading a row -/

/-- Arguments are the items of a row as they have been read; the positions of the commands are
those of the row. -/
inductive ReadAs : List WrittenItem → Arguments → Prop where
  | nil : ReadAs [] .closed
  | gap {items : List WrittenItem} {args : Arguments} (c : Char) (hRest : ReadAs items args) :
    ReadAs (.gap c :: items) args
  | options {space inner : List Char} {raw : RawOptions} {last : Cursor} {items : List WrittenItem}
    {args : Arguments}
    (hOptions : scanOptions Command.options.keyword (Cursor.start ('(' :: inner ++ [')']))
      = .ok (raw, last)) (hRest : ReadAs items args) :
    ReadAs (.command .options space inner :: items) (.options raw args)
  | reference {space inner : List Char} {entries : List String} {last : Cursor}
    {items : List WrittenItem} {args : Arguments}
    (hReference : scanReference Command.reference.keyword (Cursor.start ('(' :: inner ++ [')']))
      = .ok (entries, last)) (hRest : ReadAs items args) :
    ReadAs (.command .reference space inner :: items) (.reference entries args)
  | command {child : Command} {space inner : List Char} {innerArgs args : Arguments}
    {items : List WrittenItem} (position : Nat) (hOptions : child ≠ .options)
    (hReference : child ≠ .reference) (hInner : (child.ownArguments inner).1.Alike innerArgs)
    (hRest : ReadAs items args) :
    ReadAs (.command child space inner :: items) (.command position child innerArgs args)

lemma Command.isClosedBy_iff {command : Command} {inner : List Char} (hOptions : command ≠ .options)
    (hReference : command ≠ .reference) :
    command.IsClosedBy inner ↔
      ∃ last, (command.ownArguments inner).2 = .ok last ∧ last.rest = [] := by
  cases command with
  | options => exact absurd rfl hOptions
  | reference => exact absurd rfl hReference
  | _ => exact Iff.rfl

lemma exists_scanned_iff {α : Type} {outcome : Except ParseError (α × Cursor)} :
    (outcome.map fun found => found.2.rest) = .ok [] ↔
      ∃ a last, outcome = .ok (a, last) ∧ last.rest = [] := by
  rw [Except.map_eq_ok]
  exact ⟨fun ⟨⟨a, last⟩, hFound, hLast⟩ => ⟨a, last, hFound, hLast⟩,
    fun ⟨a, last, hFound, hLast⟩ => ⟨(a, last), hFound, hLast⟩⟩

instance (command : Command) (inner : List Char) : Decidable (command.IsClosedBy inner) :=
  if hOptions : command = .options then
    decidable_of_iff
      ((scanOptions Command.options.keyword (Cursor.start ('(' :: inner ++ [')']))).map
        (fun found => found.2.rest) = .ok [])
      (by subst hOptions; exact exists_scanned_iff)
  else if hReference : command = .reference then
    decidable_of_iff
      ((scanReference Command.reference.keyword (Cursor.start ('(' :: inner ++ [')']))).map
        (fun found => found.2.rest) = .ok [])
      (by subst hReference; exact exists_scanned_iff)
  else
    decidable_of_iff ((command.ownArguments inner).2.map Cursor.rest = .ok [])
      (Except.map_eq_ok.trans (Command.isClosedBy_iff hOptions hReference).symm)

instance (item : WrittenItem) : Decidable item.IsWhole :=
  match item with
  | .gap c => inferInstanceAs (Decidable (IsGap c))
  | .command child space inner =>
    inferInstanceAs (Decidable (IsPadding space ∧ child.IsClosedBy inner))

/-- A whole command is read as one argument, and what follows it as the arguments behind it. -/
lemma Command.readArguments_enclosing {child : Command} {space inner : List Char}
    (hSpace : IsPadding space) (hClosed : child.IsClosedBy inner) (keyword : String)
    (start position : Nat) (rest : List Char) :
    ∃ argument : Arguments → Arguments,
      (∀ items args, ReadAs items args →
        ReadAs (.command child space inner :: items) (argument args)) ∧
      readArguments keyword start ⟨position, child.enclosing space inner ++ rest⟩
        = (readArguments keyword start
            ⟨position + (child.enclosing space inner).length, rest⟩).map argument id := by
  obtain ⟨d, tail, hText, hClass, hKeyword⟩ :=
    child.scanKeyword_enclosing inner rest position hSpace
  have hLength : position + child.keyword.toList.length + space.length + ('(' :: inner).length + 1
      = position + (child.enclosing space inner).length := by
    rw [child.length_enclosing, List.length_cons]
    omega
  rw [hText, ← readArguments_skipFiller keyword start ⟨position + _, rest⟩]
  by_cases hOptions : child = .options
  · subst hOptions
    obtain ⟨raw, last, hOwn, hLast⟩ := hClosed
    have hScan := (scanOptions_encloses hOwn).anywhere hLast
      (position + Command.options.keyword.toList.length + space.length) rest
    rw [hLength] at hScan
    exact ⟨.options raw, fun _ _ hArgs => .options hOwn hArgs,
      readArguments_options hClass hKeyword hScan⟩
  by_cases hReference : child = .reference
  · subst hReference
    obtain ⟨entries, last, hOwn, hLast⟩ := hClosed
    have hScan := (scanReference_encloses hOwn).anywhere hLast
      (position + Command.reference.keyword.toList.length + space.length) rest
    rw [hLength] at hScan
    exact ⟨.reference entries, fun _ _ hArgs => .reference hOwn hArgs,
      readArguments_reference hClass hKeyword hScan⟩
  · obtain ⟨last, hOwn, hLast⟩ := (Command.isClosedBy_iff hOptions hReference).1 hClosed
    have hReads := readsArguments child.keyword 0 (Cursor.start (inner ++ [')']))
    obtain ⟨innerArgs, hInner, hAlike⟩ := (hReads.encloses last hOwn).anywhere hLast
      (position + child.keyword.toList.length + space.length + 1) rest position
    rw [Nat.add_right_comm _ 1, Nat.add_assoc _ inner.length, ← List.length_cons, hLength] at hInner
    exact ⟨.command position child innerArgs,
      fun _ _ hArgs => .command position hOptions hReference hAlike hArgs,
      readArguments_command hClass hOptions hReference hKeyword hInner⟩

/-- Whole items are read one after the other, up to the closing parenthesis. -/
lemma readArguments_row {items : List WrittenItem} (hWhole : ∀ item ∈ items, item.IsWhole)
    (keyword : String) (start position : Nat) (tail : List Char) :
    ∃ args, ReadAs items args ∧
      readArguments keyword start ⟨position, rowText items ++ ')' :: tail⟩
        = (args, .ok (Cursor.skipFiller ⟨position + (rowText items).length + 1, tail⟩)) := by
  induction items generalizing position with
  | nil => exact ⟨.closed, .nil, readArguments_closing⟩
  | cons item items ih =>
    obtain ⟨hItem, hItems⟩ := List.forall_mem_cons.1 hWhole
    obtain ⟨args, hArgs, hRead⟩ := ih hItems (position + item.text.length)
    rw [rowText_cons, List.append_assoc, List.length_append, ← Nat.add_assoc position]
    cases item with
    | gap c =>
      refine ⟨args, .gap c hArgs, ?_⟩
      rw [← hRead, WrittenItem.text, List.singleton_append, readArguments_cons]
      obtain hClass | hClass | hClass := id hItem <;> rw [hClass] <;> rfl
    | command child space inner =>
      obtain ⟨argument, hArgument, hStep⟩ := Command.readArguments_enclosing hItem.1 hItem.2
        keyword start position (rowText items ++ ')' :: tail)
      refine ⟨argument args, hArgument items args hArgs, hStep.trans ?_⟩
      exact congrArg (Prod.map argument id) hRead

/-! ## Finding a row -/

/-- Whether a content stands directly among arguments. -/
def Arguments.hasContents : Arguments → Bool
  | .closed | .fault _ => false
  | .content _ _ => true
  | .options _ rest | .reference _ rest | .command _ _ _ rest => rest.hasContents

lemma exists_row_cons {text after tail : List Char} (item : WrittenItem) {items : List WrittenItem}
    (hText : text = item.text ++ after)
    (hAfter : after.dropWhile isFiller = rowText items ++ ')' :: tail) (hItem : item.IsWhole)
    (hItems : ∀ item ∈ items, item.IsWhole) :
    ∃ row, text = rowText row ++ ')' :: tail ∧ ∀ item ∈ row, item.IsWhole := by
  refine ⟨item :: ((after.takeWhile isFiller).map .gap ++ items), ?_, ?_⟩
  · rw [rowText_cons, rowText_append, rowText_map_gap, List.append_assoc, List.append_assoc,
      ← hAfter, List.takeWhile_append_dropWhile, hText]
  · simp only [List.mem_cons, List.mem_append, List.mem_map]
    rintro found (rfl | ⟨c, hc, rfl⟩ | hFound)
    · exact hItem
    · exact isGap_of_isFiller (List.mem_takeWhile_imp hc)
    · exact hItems found hFound

lemma exists_enclosing {c opened : Cursor} {command : Command}
    (h : scanKeyword c = .ok (command, opened)) :
    ∃ space rest, IsPadding space ∧ opened.rest = '(' :: rest ∧
      ∀ inner after, rest = inner ++ ')' :: after →
        c.rest = command.enclosing space inner ++ after := by
  obtain ⟨pad, rest, hPad, hRest, rfl⟩ := keyword_of_scanKeyword h
  refine ⟨pad, rest, hPad, rfl, ?_⟩
  rintro inner after rfl
  rw [hRest, command.enclosing_append]

lemma exists_inner {run rest after : List Char} (h : '(' :: rest = run ++ ')' :: after) :
    ∃ inner, run = '(' :: inner ∧ rest = inner ++ ')' :: after := by
  cases run with
  | nil => cases h
  | cons first inner =>
    obtain ⟨rfl, hRest⟩ := List.cons.inj h
    exact ⟨inner, rfl, hRest⟩

/-- Where arguments without contents are closed, they are a row of whole items. -/
lemma ReadsArguments.exists_row {keyword : String} {start : Nat} {c : Cursor} {args : Arguments}
    {last : Except ParseError Cursor} (h : ReadsArguments keyword start c args last) :
    ∀ stop, last = .ok stop → args.hasContents = false →
      ∃ items tail, c.rest = rowText items ++ ')' :: tail ∧
        stop.rest = tail.dropWhile isFiller ∧ ∀ item ∈ items, item.IsWhole := by
  induction h with
  | ended | stuck | unclosed => rintro stop ⟨⟩
  | @closing keyword start position tail =>
    rintro _ ⟨⟩ -
    exact ⟨[], tail, rfl, rfl, List.forall_mem_nil _⟩
  | @passed keyword start position d tail args last hClass hRest ih =>
    rintro stop rfl hContents
    obtain ⟨items, after, hText, hStop, hItems⟩ := ih stop rfl hContents
    have hGap : IsGap d := hClass
    refine ⟨.gap d :: items, after, congrArg (d :: ·) hText, hStop, ?_⟩
    exact List.forall_mem_cons.2 ⟨hGap, hItems⟩
  | content => rintro stop rfl ⟨⟩
  | @options keyword start position d tail raw opened next args last hClass hKeyword hOptions hRest
      ih =>
    rintro stop rfl hContents
    obtain ⟨items, left, hText, hStop, hItems⟩ := ih stop rfl hContents
    obtain ⟨space, rest, hSpace, hOpened, hEnclosing⟩ := exists_enclosing hKeyword
    obtain ⟨run, after, hRun, rfl, hScan⟩ := (scanOptions_encloses hOptions).exists_run
    obtain ⟨inner, rfl, hInner⟩ := exists_inner (hOpened.symm.trans hRun)
    obtain ⟨row, hRow, hWhole⟩ := exists_row_cons (.command .options space inner)
      (hEnclosing inner after hInner) hText ⟨hSpace, raw, _, hScan 0 [], rfl⟩ hItems
    exact ⟨row, left, hRow, hStop, hWhole⟩
  | @reference keyword start position d tail entries opened next args last hClass hKeyword
      hReference hRest ih =>
    rintro stop rfl hContents
    obtain ⟨items, left, hText, hStop, hItems⟩ := ih stop rfl hContents
    obtain ⟨space, rest, hSpace, hOpened, hEnclosing⟩ := exists_enclosing hKeyword
    obtain ⟨run, after, hRun, rfl, hScan⟩ := (scanReference_encloses hReference).exists_run
    obtain ⟨inner, rfl, hInner⟩ := exists_inner (hOpened.symm.trans hRun)
    obtain ⟨row, hRow, hWhole⟩ := exists_row_cons (.command .reference space inner)
      (hEnclosing inner after hInner) hText ⟨hSpace, entries, _, hScan 0 [], rfl⟩ hItems
    exact ⟨row, left, hRow, hStop, hWhole⟩
  | @command keyword start position d tail child opened next innerArgs args last hClass hOptions
      hReference hKeyword hReads hRest ihInner ih =>
    rintro stop rfl hContents
    obtain ⟨items, left, hText, hStop, hItems⟩ := ih stop rfl hContents
    obtain ⟨space, rest, hSpace, hOpened, hEnclosing⟩ := exists_enclosing hKeyword
    obtain ⟨inner, after, hInner, rfl, hScan⟩ := (hReads.encloses next rfl).exists_run
    have hBehind : (opened.advance 1).rest = rest := by rw [Cursor.advance, hOpened]; rfl
    obtain ⟨own, hOwn, -⟩ := hScan 0 [] 0
    have hClosed : child.IsClosedBy inner :=
      (Command.isClosedBy_iff hOptions hReference).2 ⟨_, congrArg Prod.snd hOwn, rfl⟩
    obtain ⟨row, hRow, hWhole⟩ := exists_row_cons (.command child space inner)
      (hEnclosing inner after (hBehind.symm.trans hInner)) hText ⟨hSpace, hClosed⟩ hItems
    exact ⟨row, left, hRow, hStop, hWhole⟩

end PolicyText
