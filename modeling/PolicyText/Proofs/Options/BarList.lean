import PolicyText.Proofs.Options.Decoded

/-!
# Lists with bars

Two options hold lists whose items stand between bars: labels, of which the order and the
repetitions count, and execution modes, of which they do not.  Both are split in the same way, and
blanks around an item or in place of one are no part of the list.

`BarJoined` says from the side of the writer how such a list can be written: the items are joined
with bars, with blanks around them and blank segments anywhere.  What is split is then what was
joined, and every text is a list of this kind, of exactly one list of items (`barJoined_iff`).  So
nothing else can be the value of either option, and it remains to say what becomes of the items.

An option list is read one key at a time.  So an entry more changes the field of its key and no
other one, if its value can be converted (`Options.ofRaw_insert`), and otherwise the list is refused
for it, unless a lesser key is refused first (`Options.ofRaw_insert_error`).
-/

namespace PolicyText

/-! ## Joined lists -/

/-- Items in their order as the segments of a list: blanks can stand around each, and there can be
blank segments before, between and behind them. -/
inductive PaddedItems : List String → List (List Char) → Prop where
  | none : PaddedItems [] []
  | blank {items : List String} {pad : List Char} {segments : List (List Char)}
    (hPad : ∀ d ∈ pad, Text.isBlank d = true) (hRest : PaddedItems items segments) :
    PaddedItems items (pad :: segments)
  | item {item : String} {items : List String} {front back : List Char}
    {segments : List (List Char)} (hFront : ∀ d ∈ front, Text.isBlank d = true)
    (hBack : ∀ d ∈ back, Text.isBlank d = true) (hRest : PaddedItems items segments) :
    PaddedItems (item :: items) ((front ++ item.toList ++ back) :: segments)

/-- A text is a list of items: each is trimmed, not empty and without a bar, and the text has been
made by joining them with bars, with any blanks around them and any blank segments. -/
def BarJoined (items : List String) (value : String) : Prop :=
  (∀ item ∈ items, IsBarItem item.toList) ∧
    ∃ segments, PaddedItems items segments ∧ value.toList = Text.join '|' segments

lemma PaddedItems.trimmedItems_eq {items : List String} {segments : List (List Char)}
    (h : PaddedItems items segments) (hItems : ∀ item ∈ items, IsBarItem item.toList) :
    trimmedItems segments = items.map String.toList := by
  induction h with
  | none => rfl
  | blank hPad _ ih =>
    have hTrim := Text.trim_append_of_blank [] hPad
    rw [List.nil_append, Text.trim_nil] at hTrim
    rw [trimmedItems, List.map_cons, hTrim]
    exact ih hItems
  | @item item items front back segments hFront hBack _ ih =>
    obtain ⟨hItem, hRest⟩ := List.forall_mem_cons.1 hItems
    have hTrim : Text.trim (front ++ item.toList ++ back) = item.toList := by
      rw [Text.trim_append_of_blank _ hBack, Text.trim_append_of_blank_left hFront]
      exact hItem.trimmed
    have hSome : item.toList.isEmpty = false := List.isEmpty_eq_false_iff.2 hItem.ne_nil
    rw [trimmedItems, List.map_cons, hTrim, List.filter_cons_of_pos (by simp [hSome]),
      List.map_cons]
    exact congrArg _ (ih hRest)

lemma PaddedItems.no_bar {items : List String} {segments : List (List Char)}
    (h : PaddedItems items segments) (hItems : ∀ item ∈ items, IsBarItem item.toList) :
    ∀ segment ∈ segments, '|' ∉ segment := by
  have hBlank {pad : List Char} (hPad : ∀ d ∈ pad, Text.isBlank d = true) : '|' ∉ pad := by
    intro hBar
    cases hPad '|' hBar
  induction h with
  | none => exact nofun
  | blank hPad _ ih => exact List.forall_mem_cons.2 ⟨hBlank hPad, ih hItems⟩
  | item hFront hBack _ ih =>
    obtain ⟨hItem, hRest⟩ := List.forall_mem_cons.1 hItems
    refine List.forall_mem_cons.2 ⟨?_, ih hRest⟩
    simp only [List.mem_append, not_or]
    exact ⟨⟨hBlank hFront, hItem.no_bar⟩, hBlank hBack⟩

lemma paddedItems_trimmedItems (segments : List (List Char)) :
    PaddedItems ((trimmedItems segments).map String.ofList) segments := by
  induction segments with
  | nil => exact .none
  | cons segment rest ih =>
    obtain ⟨front, back, hFront, hBack, hSegment⟩ := Text.exists_blanks_around segment
    rw [trimmedItems, List.map_cons]
    by_cases hTrim : Text.trim segment = []
    · rw [hTrim, List.append_nil] at hSegment
      rw [hTrim, hSegment]
      refine .blank (fun d hd => ?_) ih
      obtain hd | hd := List.mem_append.1 hd
      · exact hFront d hd
      · exact hBack d hd
    · have hSome : (Text.trim segment).isEmpty = false := List.isEmpty_eq_false_iff.2 hTrim
      rw [List.filter_cons_of_pos (by simp [hSome]), List.map_cons]
      have hItem := @PaddedItems.item (String.ofList (Text.trim segment)) _ _ _ _ hFront hBack ih
      rwa [String.toList_ofList, ← hSegment] at hItem

lemma map_toList_barItems (value : String) :
    (barItems value).map String.toList = trimmedItems (Text.segments '|' value.toList) := by
  have hId : String.toList ∘ String.ofList = id := funext fun _ => String.toList_ofList
  rw [barItems, List.map_map, hId, List.map_id]
  rfl

/-- A text is a list of exactly the items that are found in it. -/
lemma barJoined_iff {items : List String} {value : String} :
    BarJoined items value ↔ barItems value = items := by
  constructor
  · rintro ⟨hItems, segments, hSegments, hValue⟩
    have hTrimmed : trimmedItems (Text.segments '|' value.toList) = items.map String.toList := by
      rw [hValue]
      by_cases hNone : segments = []
      · subst hNone
        cases hSegments
        rfl
      · rw [Text.segments_join hNone (hSegments.no_bar hItems)]
        exact hSegments.trimmedItems_eq hItems
    rw [← map_toList_barItems] at hTrimmed
    exact List.map_injective_iff.2 (fun _ _ h => String.toList_injective h) hTrimmed
  · rintro rfl
    refine ⟨fun item hItem => ?_, Text.segments '|' value.toList, ?_,
      (Text.join_segments '|' value.toList).symm⟩
    · have hMem := List.mem_map_of_mem (f := String.toList) hItem
      rw [map_toList_barItems] at hMem
      exact isBarItem_of_mem_trimmedItems hMem
    · exact paddedItems_trimmedItems _

/-! ## Execution modes -/

/-- A word that is an execution mode. -/
def IsModeWord (word : String) : Prop :=
  ∃ mode : ExecutionMode, Literal.literal mode = word

lemma isModeWord_iff {word : String} :
    IsModeWord word ↔ (Literal.ofLiteral? word : Option ExecutionMode).isNone = false := by
  constructor
  · rintro ⟨mode, rfl⟩
    rw [Literal.ofLiteral?_literal]
    rfl
  · intro h
    obtain ⟨mode, hMode⟩ := Option.isSome_iff_exists.1 (by rw [← Option.not_isNone, h]; rfl)
    exact ⟨mode, Literal.literal_of_ofLiteral? hMode⟩

lemma modeWords_or_first (items : List String) :
    (∃ modes : List ExecutionMode, items = modes.map Literal.literal) ∨
      ∃ front item back, items = front ++ item :: back ∧ (∀ word ∈ front, IsModeWord word) ∧
        ¬ IsModeWord item := by
  induction items with
  | nil => exact Or.inl ⟨[], rfl⟩
  | cons word rest ih =>
    by_cases hWord : IsModeWord word
    · obtain ⟨modes, rfl⟩ | ⟨front, item, back, rfl, hFront, hItem⟩ := ih
      · obtain ⟨mode, rfl⟩ := hWord
        exact Or.inl ⟨mode :: modes, rfl⟩
      · exact Or.inr ⟨word :: front, item, back, rfl, List.forall_mem_cons.2 ⟨hWord, hFront⟩,
          hItem⟩
    · exact Or.inr ⟨[], word, rest, rfl, nofun, hWord⟩

/-- A list of execution modes becomes the set of them. -/
lemma convert_modes {modes : List ExecutionMode} {value : String}
    (h : BarJoined (modes.map Literal.literal) value) (key : String) :
    OptionForm.executionModes.convert key value
      = .ok (if modes = [] then none else some (ExecutionModes.ofList modes)) := by
  have hItems := barJoined_iff.1 h
  have hKnown : unknownMode? value = none := by
    rw [unknownMode?, hItems, List.find?_eq_none]
    intro word hWord
    obtain ⟨mode, -, rfl⟩ := List.mem_map.1 hWord
    simp
  have hModes : (modes.map Literal.literal).filterMap
      (Literal.ofLiteral? : String → Option ExecutionMode) = modes := by
    rw [List.filterMap_map]
    have hSome : (Literal.ofLiteral? ∘ Literal.literal : ExecutionMode → Option ExecutionMode)
        = some := funext Literal.ofLiteral?_literal
    rw [hSome, List.filterMap_some]
  rw [OptionForm.convert, hKnown]
  by_cases hNone : modes = []
  · subst hNone
    simp only [executionModes?, hItems, List.map_nil, List.isEmpty_nil, if_true]
    rfl
  · have hSome : (modes.map Literal.literal).isEmpty = false := by
      rw [List.isEmpty_eq_false_iff]
      exact fun hNil => hNone (List.map_eq_nil_iff.1 hNil)
    simp only [executionModes?, hItems, hModes, hSome, Bool.false_eq_true, if_false, if_neg hNone]
    rfl

lemma convert_modes_error {front back : List String} {item value : String}
    (h : BarJoined (front ++ item :: back) value) (hFront : ∀ word ∈ front, IsModeWord word)
    (hItem : ¬ IsModeWord item) (key : String) :
    OptionForm.executionModes.convert key value
      = .error (.invalidOptionValue key item "unknown execution mode") := by
  have hUnknown : unknownMode? value = some item := by
    rw [unknownMode?, barJoined_iff.1 h, List.find?_eq_some_iff_append]
    refine ⟨?_, front, back, rfl, fun word hWord => ?_⟩
    · rwa [isModeWord_iff, Bool.not_eq_false] at hItem
    · rw [isModeWord_iff.1 (hFront word hWord)]
      rfl
  rw [OptionForm.convert, hUnknown]

/-! ## One entry more -/

namespace OptionRow

lemma read_insert_of_ne {row : OptionRow} {key : String} (h : row.key ≠ key) (raw : RawOptions)
    (value : String) : row.read (raw.insert key value) = row.read raw := by
  rw [read, read, RawOptions.get?_insert, if_neg h]

lemma read_insert_self (row : OptionRow) (raw : RawOptions) (value : String) :
    row.read (raw.insert row.key value) = row.form.convert row.key value := by
  rw [read, RawOptions.get?_insert, if_pos rfl]

end OptionRow

namespace Options

lemma row_eq_of_key {row other : OptionRow} (hRow : row ∈ rows) (hOther : other ∈ rows)
    (h : other.key = row.key) : other = row := by
  have hKeys : (rows.map OptionRow.key).Nodup := by decide +kernel
  exact List.inj_on_of_nodup_map hKeys hOther hRow h

section Insert

variable {raw : RawOptions} {row : OptionRow} {value : String}

/-- An entry whose value can be converted changes the field of its key and nothing else. -/
lemma ofRaw_insert (hOrdered : raw.Ordered) (hRow : row ∈ rows)
    {found : Option row.form.Value} (hConvert : row.form.convert row.key value = .ok found)
    (hOld : ∃ old, row.read raw = .ok old) {change : Options → Options}
    (hField : ∀ o, row.field (change o) = found)
    (hOthers : ∀ other ∈ rows, other.key ≠ row.key → ∀ o, other.field (change o) = other.field o) :
    ofRaw (raw.insert row.key value) = (ofRaw raw).map change := by
  have hInsert := hOrdered.insert row.key value
  cases hRaw : ofRaw raw with
  | error e =>
    -- The key that is refused is another one, and it is refused first here too.
    obtain ⟨fails, hFails, hError, hLeast⟩ := (ofRaw_eq_error hOrdered).1 hRaw
    have hKey : fails.key ≠ row.key := by
      intro hSame
      obtain rfl := row_eq_of_key hRow hFails hSame
      obtain ⟨old, hRead⟩ := hOld
      cases hError.symm.trans hRead
    refine (ofRaw_eq_error hInsert).2
      ⟨fails, hFails, (OptionRow.read_insert_of_ne hKey raw value).trans hError, ?_⟩
    intro other hOther hLess
    by_cases hSame : other.key = row.key
    · obtain rfl := row_eq_of_key hRow hOther hSame
      exact ⟨found, (other.read_insert_self raw value).trans hConvert⟩
    · rw [OptionRow.read_insert_of_ne hSame]
      exact hLeast other hOther hLess
  | ok o =>
    refine (ofRaw_eq_ok hInsert).2 fun other hOther => ?_
    by_cases hSame : other.key = row.key
    · obtain rfl := row_eq_of_key hRow hOther hSame
      rw [OptionRow.read_insert_self, hConvert, hField]
    · rw [OptionRow.read_insert_of_ne hSame, hOthers other hOther hSame]
      exact read_of_ofRaw hRaw other hOther

lemma ofRaw_insert_error (hOrdered : raw.Ordered) (hRow : row ∈ rows) {e : ParseError}
    (hConvert : row.form.convert row.key value = .error e) :
    (∃ fault, ofRaw (raw.insert row.key value) = .error fault) ∧
      ((∀ other ∈ rows, other.key < row.key → ∃ found, other.read raw = .ok found) →
        ofRaw (raw.insert row.key value) = .error e) := by
  have hInsert := hOrdered.insert row.key value
  have hRead := (row.read_insert_self raw value).trans hConvert
  constructor
  · cases hRaw : ofRaw (raw.insert row.key value) with
    | error fault => exact ⟨fault, rfl⟩
    | ok o => cases hRead.symm.trans (read_of_ofRaw hRaw row hRow)
  · intro hLesser
    refine (ofRaw_eq_error hInsert).2 ⟨row, hRow, hRead, fun other hOther hLess => ?_⟩
    rw [OptionRow.read_insert_of_ne (String.ne_of_lt hLess)]
    exact hLesser other hOther hLess

lemma ofRaw_insert_congr (hOrdered : raw.Ordered) (hRow : row ∈ rows) {other : String}
    (h : row.form.convert row.key value = row.form.convert row.key other) :
    ofRaw (raw.insert row.key value) = ofRaw (raw.insert row.key other) := by
  refine ofRaw_congr_read (hOrdered.insert _ _) (hOrdered.insert _ _) fun found hFound => ?_
  by_cases hSame : found.key = row.key
  · obtain rfl := row_eq_of_key hRow hFound hSame
    rw [OptionRow.read_insert_self, OptionRow.read_insert_self, h]
  · rw [OptionRow.read_insert_of_ne hSame, OptionRow.read_insert_of_ne hSame]

end Insert

end Options

/-! ## Both options -/

/-- The row of labels. -/
def labelsRow : OptionRow :=
  ⟨"labels", .labels, Options.labels⟩

/-- The row of execution modes. -/
def modesRow : OptionRow :=
  ⟨"executionMode", .executionModes, Options.executionMode⟩

lemma barRows_mem : labelsRow ∈ Options.rows ∧ modesRow ∈ Options.rows := by
  simp [labelsRow, modesRow, Options.rows]

variable {raw : RawOptions} {value : String}

lemma ofRaw_insert_labels (hOrdered : raw.Ordered) {items : List String}
    (h : BarJoined items value) :
    Options.ofRaw (raw.insert "labels" value)
      = (Options.ofRaw raw).map fun o =>
          { o with labels := if items = [] then none else some items } := by
  have hLabels : labels? value = if items = [] then none else some items := by
    simp only [labels?, barJoined_iff.1 h, List.isEmpty_iff]
  -- No value is refused as labels, not even one that stood there before.
  have hOld : ∃ old, labelsRow.read raw = .ok old := by
    unfold OptionRow.read
    cases raw.get? labelsRow.key with
    | none => exact ⟨none, rfl⟩
    | some old => exact ⟨labels? old, rfl⟩
  refine Options.ofRaw_insert hOrdered barRows_mem.1 (congrArg Except.ok hLabels) hOld
    (fun _ => rfl) ?_
  simp only [Options.rows, labelsRow, List.forall_mem_cons, List.not_mem_nil, false_implies,
    implies_true, and_true]
  and_intros <;> intro hKey o <;> first | rfl | exact absurd rfl hKey

lemma ofRaw_insert_modes (hOrdered : raw.Ordered) (hNone : raw.get? "executionMode" = none)
    {modes : List ExecutionMode} (h : BarJoined (modes.map Literal.literal) value) :
    Options.ofRaw (raw.insert "executionMode" value)
      = (Options.ofRaw raw).map fun o =>
          { o with executionMode := if modes = [] then none else some (.ofList modes) } := by
  have hOld : ∃ old, modesRow.read raw = .ok old :=
    ⟨none, by rw [OptionRow.read, show raw.get? modesRow.key = none from hNone]⟩
  refine Options.ofRaw_insert hOrdered barRows_mem.2 (convert_modes h modesRow.key) hOld
    (fun _ => rfl) ?_
  simp only [Options.rows, modesRow, List.forall_mem_cons, List.not_mem_nil, false_implies,
    implies_true, and_true]
  and_intros <;> intro hKey o <;> first | rfl | exact absurd rfl hKey

lemma ofList_congr {modes others : List ExecutionMode} (h : ∀ mode, mode ∈ modes ↔ mode ∈ others) :
    ExecutionModes.ofList modes = .ofList others := by
  apply ExecutionModes.ext_contains
  intro mode
  rw [ExecutionModes.contains_ofList, ExecutionModes.contains_ofList, Bool.eq_iff_iff,
    List.contains_iff_mem, List.contains_iff_mem]
  exact h mode

/-- **Lists with bars decode to what was joined.**  Every text is a list of items with bars, of
exactly one list of items, and these are either all execution modes or there is a first one that is
none.  As labels, it sets the labels of the options to its items in their order, or to nothing if
there are none.  As execution modes, where none are given, it sets them to the set of its items if
all are execution modes, or to nothing if there are none; lists with the same members, in whatever
order and however often, give equal options and documents.  If some item is no execution mode the
option list is refused, with the first such item unless there is something wrong with a lesser key.
-/
theorem barLists_decoded :
    (∀ value : String, ∃ items, BarJoined items value ∧
      (∀ others, BarJoined others value → others = items) ∧
      ((∃ modes : List ExecutionMode, items = modes.map Literal.literal) ∨
        ∃ front item back, items = front ++ item :: back ∧ (∀ word ∈ front, IsModeWord word) ∧
          ¬ IsModeWord item)) ∧
      ∀ raw : RawOptions, raw.Ordered →
        (∀ items value, BarJoined items value →
          Options.ofRaw (raw.insert "labels" value)
            = (Options.ofRaw raw).map fun o =>
                { o with labels := if items = [] then none else some items }) ∧
        (∀ (modes : List ExecutionMode) value, BarJoined (modes.map Literal.literal) value →
          raw.get? "executionMode" = none →
            Options.ofRaw (raw.insert "executionMode" value)
              = (Options.ofRaw raw).map fun o =>
                  { o with executionMode := if modes = [] then none else some (.ofList modes) }) ∧
        (∀ (modes others : List ExecutionMode) value other,
          BarJoined (modes.map Literal.literal) value →
          BarJoined (others.map Literal.literal) other →
          (∀ mode, mode ∈ modes ↔ mode ∈ others) →
            Options.ofRaw (raw.insert "executionMode" value)
                = Options.ofRaw (raw.insert "executionMode" other) ∧
              (Options.ofRaw (raw.insert "executionMode" value)).map Options.document
                = (Options.ofRaw (raw.insert "executionMode" other)).map Options.document) ∧
        ∀ front item back value, BarJoined (front ++ item :: back) value →
          (∀ word ∈ front, IsModeWord word) → ¬ IsModeWord item →
            (∃ e, Options.ofRaw (raw.insert "executionMode" value) = .error e) ∧
              ((∀ row ∈ Options.rows, row.key < "executionMode" →
                  ∃ found, row.read raw = .ok found) →
                Options.ofRaw (raw.insert "executionMode" value) = .error
                  (.invalidOptionValue "executionMode" item "unknown execution mode")) := by
  refine ⟨fun value => ?_, fun raw hOrdered => ⟨?_, ?_, ?_, ?_⟩⟩
  · refine ⟨barItems value, barJoined_iff.2 rfl, fun others h => (barJoined_iff.1 h).symm, ?_⟩
    exact modeWords_or_first (barItems value)
  · intro items value h
    exact ofRaw_insert_labels hOrdered h
  · intro modes value h hNone
    exact ofRaw_insert_modes hOrdered hNone h
  · intro modes others value other h hOther hSame
    have hNone : modes = [] ↔ others = [] := by
      simp only [List.eq_nil_iff_forall_not_mem, hSame]
    have hConvert : modesRow.form.convert modesRow.key value
        = modesRow.form.convert modesRow.key other := by
      refine (convert_modes h _).trans (Eq.trans ?_ (convert_modes hOther _).symm)
      simp only [hNone, ofList_congr hSame]
    have hRaw := Options.ofRaw_insert_congr hOrdered barRows_mem.2 hConvert
    exact ⟨hRaw, congrArg (Except.map Options.document) hRaw⟩
  · intro front item back value h hFront hItem
    exact Options.ofRaw_insert_error hOrdered barRows_mem.2
      (convert_modes_error h hFront hItem modesRow.key)

/-- Labels with blanks, blank segments and a repetition; execution modes in two orders; and a list
with two words that are no modes. -/
theorem barLists_decoded_texts :
    Options.ofRaw (RawOptions.insert "labels" "| a || b|a \t|" [("desc", "d")])
        = .ok { description := some "d", labels := some ["a", "b", "a"] } ∧
      Options.ofRaw (RawOptions.insert "labels" " | " [("desc", "d")])
        = .ok { description := some "d" } ∧
      Options.ofRaw (RawOptions.insert "executionMode" "ON_DENY| |ON_PERMIT|ON_DENY" [])
        = Options.ofRaw (RawOptions.insert "executionMode" " ON_PERMIT |ON_DENY" []) ∧
      Options.ofRaw (RawOptions.insert "executionMode" "ON_DENY| never |soon" [("desc", "d")])
        = .error (.invalidOptionValue "executionMode" "never" "unknown execution mode") := by
  obtain ⟨-, hLists⟩ := barLists_decoded
  have hDescription : Options.ofRaw [("desc", "d")] = .ok { description := some "d" } := by
    decide +kernel
  obtain ⟨hLabels, -, -, hError⟩ := hLists [("desc", "d")] (List.pairwise_singleton _ _)
  obtain ⟨-, -, hSame, -⟩ := hLists [] List.Pairwise.nil
  refine ⟨?_, ?_, ?_, ?_⟩
  · rw [hLabels ["a", "b", "a"] _ (barJoined_iff.2 (by decide +kernel)), hDescription]
    rfl
  · rw [hLabels [] _ (barJoined_iff.2 (by decide +kernel)), hDescription]
    rfl
  · refine (hSame [.onDeny, .onPermit, .onDeny] [.onPermit, .onDeny] _ _ ?_ ?_ ?_).1
    · exact barJoined_iff.2 (by decide +kernel)
    · exact barJoined_iff.2 (by decide +kernel)
    · intro mode
      cases mode <;> decide
  · have hOthers : ∀ row ∈ Options.rows, row.key < "executionMode" →
        (row.read [("desc", "d")]).isOk = true := by
      decide +kernel
    refine (hError ["ON_DENY"] "never" ["soon"] _ (barJoined_iff.2 (by decide +kernel)) ?_ ?_).2 ?_
    · exact List.forall_mem_singleton.2 ⟨.onDeny, rfl⟩
    · rintro ⟨mode, hMode⟩
      cases mode <;> exact absurd hMode (by decide)
    · exact fun row hRow hLess => Except.exists_eq_ok (hOthers row hRow hLess)

end PolicyText
