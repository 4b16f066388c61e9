import PolicyText.Options
import PolicyText.Proofs.Scan.Expressible
import PolicyText.Proofs.Text.Integer
import PolicyText.Proofs.Text.Segments

/-!
# The values of options as they are written

For every form that the value of an option can have, this file says how a value is written and that
it is read back: truth values (`truthValue?_truthText`), integers (`integer32?_integerText`), lists
of labels (`labels?_labelsText`) and sets of execution modes (`executionModes?_modesText`).

The items of a list are written with bars between them.  A list of labels need not be expressible
just because every label is, since the backtick of one label and the quotes of another come together
in one text.  If no wrapper holds that text it has to stand bare, behind a bar, so that no label can
be taken for the beginning of a wrapper.
-/

namespace PolicyText

/-! ## Truth values and integers -/

/-- The text of a truth value. -/
def truthText (b : Bool) : String :=
  if b then "true" else "false"

lemma truthValue?_truthText (b : Bool) : truthValue? (truthText b) = some b := by
  cases b <;> rfl

lemma integer32?_integerText (n : Text.Integer32) :
    integer32? (String.ofList (Text.integerText n.value)) = some n := by
  rw [integer32?, String.toList_ofList, Text.readBounded_integerText (by decide)]
  rfl

lemma not_mem_integerText (n : Int) : '\x60' ∉ Text.integerText n := by
  have hDigits : '\x60' ∉ Text.decimal n.natAbs := by
    intro h
    have hDigit := Text.isDigit_of_mem_decimal h
    cases hDigit
  rw [Text.integerText]
  split
  · simpa using hDigits
  · exact hDigits

/-! ## Lists with bars -/

/-- An item that can stand between bars. -/
structure IsBarItem (item : List Char) : Prop where
  trimmed : Text.Trimmed item
  ne_nil : item ≠ []
  no_bar : '|' ∉ item

lemma trimmed_items {items : List (List Char)} (hItems : ∀ item ∈ items, IsBarItem item) :
    (items.map Text.trim).filter (fun item => !item.isEmpty) = items := by
  have hTrim : items.map Text.trim = items := by
    rw [List.map_congr_left (fun item hItem => (hItems item hItem).trimmed), List.map_id']
  rw [hTrim, List.filter_eq_self]
  intro item hItem
  have hEmpty : item.isEmpty = false := by
    rw [← Bool.not_eq_true, List.isEmpty_iff]
    exact (hItems item hItem).ne_nil
  rw [hEmpty, Bool.not_false]

lemma barItems_join {items : List (List Char)} (hItems : ∀ item ∈ items, IsBarItem item)
    (hSome : items ≠ []) :
    barItems (String.ofList (Text.join '|' items)) = items.map String.ofList := by
  rw [barItems, String.toList_ofList,
    Text.segments_join hSome fun item hItem => (hItems item hItem).no_bar, trimmed_items hItems]

lemma barItems_bar (text : List Char) :
    barItems (String.ofList ('|' :: text)) = barItems (String.ofList text) := by
  simp only [barItems, String.toList_ofList, Text.segments, if_true, List.map_cons, Text.trim_nil]
  rfl

/-! ## Labels -/

/-- The text of labels with bars between them. -/
def labelsJoined (labels : List String) : List Char :=
  Text.join '|' (labels.map String.toList)

/-- The text of labels.  If no wrapper holds it, it begins with a bar and stands bare. -/
def labelsText (labels : List String) : List Char :=
  if Representable (labelsJoined labels) then labelsJoined labels else '|' :: labelsJoined labels

/-- Labels that can be written: each could stand between bars, and either a wrapper holds all of
them together or none of them has a character at which a bare token ends. -/
structure WritableLabels (labels : List String) : Prop where
  ne_nil : labels ≠ []
  item : ∀ label ∈ labels, IsBarItem label.toList
  expressible : Representable (labelsJoined labels) ∨
    ∀ label ∈ labels, ∀ c ∈ label.toList, c ≠ ',' ∧ c ≠ ')'

/-- Labels are read back from their text. -/
lemma labels?_labelsText {labels : List String} (h : WritableLabels labels) :
    labels? (String.ofList (labelsText labels)) = some labels := by
  have hItems : ∀ item ∈ labels.map String.toList, IsBarItem item := by
    intro item hItem
    obtain ⟨label, hLabel, rfl⟩ := List.mem_map.1 hItem
    exact h.item label hLabel
  have hSome : labels.map String.toList ≠ [] := by simpa using h.ne_nil
  have hJoined : barItems (String.ofList (labelsJoined labels)) = labels := by
    rw [labelsJoined, barItems_join hItems hSome, List.map_map]
    have hId : String.ofList ∘ String.toList = id := by
      funext label
      simp
    rw [hId, List.map_id]
  have hText : barItems (String.ofList (labelsText labels)) = labels := by
    unfold labelsText
    split
    · exact hJoined
    · rw [barItems_bar, hJoined]
  have hEmpty : labels.isEmpty = false := by
    rw [← Bool.not_eq_true, List.isEmpty_iff]
    exact h.ne_nil
  rw [labels?, hText, hEmpty]
  simp

lemma exists_last_join {items : List (List Char)} (hItems : ∀ item ∈ items, IsBarItem item)
    (hSome : items ≠ []) :
    ∃ init d, Text.join '|' items = init ++ [d] ∧ Text.isBlank d = false := by
  induction items with
  | nil => exact absurd rfl hSome
  | cons item rest ih =>
    have hItem := hItems item (by simp)
    cases rest with
    | nil => exact hItem.trimmed.exists_last hItem.ne_nil
    | cons next others =>
      obtain ⟨init, d, hJoin, hBlank⟩ :=
        ih (fun other hOther => hItems other (by simp [hOther])) (by simp)
      refine ⟨item ++ '|' :: init, d, ?_, hBlank⟩
      rw [Text.join, hJoin]
      · simp
      · simp

/-- The text of labels that can be written can be written. -/
lemma expressible_labelsText {labels : List String} (h : WritableLabels labels) :
    Expressible (labelsText labels) := by
  unfold labelsText
  split
  · exact Or.inl ‹_›
  · rename_i hNone
    have hItems : ∀ item ∈ labels.map String.toList, IsBarItem item := by
      intro item hItem
      obtain ⟨label, hLabel, rfl⟩ := List.mem_map.1 hItem
      exact h.item label hLabel
    obtain ⟨init, d, hJoined, hBlank⟩ := exists_last_join hItems (by simpa using h.ne_nil)
    have hStop := h.expressible.resolve_left hNone
    refine Or.inr ⟨?_, ?_, '|', rfl, by decide, by decide⟩
    · rw [labelsJoined, hJoined]
      exact Text.trimmed_of_ends init rfl hBlank
    · intro c hc
      obtain rfl | hc := List.mem_cons.1 hc
      · decide
      · obtain rfl | ⟨item, hItem, hc⟩ := Text.mem_join hc
        · decide
        · obtain ⟨label, hLabel, rfl⟩ := List.mem_map.1 hItem
          exact hStop label hLabel c hc

lemma labelsText_ne_nil {labels : List String} (h : WritableLabels labels) :
    labelsText labels ≠ [] := by
  intro hNil
  have hRead := labels?_labelsText h
  rw [hNil] at hRead
  cases hRead

/-! ## Execution modes -/

/-- The words of a set of execution modes. -/
def modeWords (modes : ExecutionModes) : List String :=
  modes.toList.map Literal.literal

/-- The text of a set of execution modes. -/
def modesText (modes : ExecutionModes) : List Char :=
  Text.join '|' ((modeWords modes).map String.toList)

lemma mode_spec (mode : ExecutionMode) :
    Text.Trimmed (Literal.literal mode).toList ∧ (Literal.literal mode).toList ≠ [] ∧
      '|' ∉ (Literal.literal mode).toList ∧ '\x60' ∉ (Literal.literal mode).toList := by
  cases mode <;> decide

lemma isBarItem_modeWords {modes : ExecutionModes} :
    ∀ item ∈ (modeWords modes).map String.toList, IsBarItem item := by
  intro item hItem
  rw [modeWords, List.map_map, List.mem_map] at hItem
  obtain ⟨mode, -, rfl⟩ := hItem
  obtain ⟨hTrimmed, hNil, hBar, -⟩ := mode_spec mode
  exact ⟨hTrimmed, hNil, hBar⟩

lemma barItems_modesText {modes : ExecutionModes} (h : modes.toList ≠ []) :
    barItems (String.ofList (modesText modes)) = modeWords modes := by
  have hId : String.ofList ∘ String.toList = id := by
    funext word
    simp
  rw [modesText, barItems_join isBarItem_modeWords (by simpa [modeWords] using h), List.map_map,
    hId, List.map_id]

lemma executionModes?_modesText {modes : ExecutionModes} (h : modes.toList ≠ []) :
    executionModes? (String.ofList (modesText modes)) = some modes := by
  have hEmpty : (modeWords modes).isEmpty = false := by
    rw [← Bool.not_eq_true, List.isEmpty_iff]
    simpa [modeWords] using h
  have hModes : (modeWords modes).filterMap Literal.ofLiteral? = modes.toList := by
    rw [modeWords, List.filterMap_map]
    have hSome : (Literal.ofLiteral? ∘ Literal.literal : ExecutionMode → Option ExecutionMode)
        = some := by
      funext mode
      exact Literal.ofLiteral?_literal mode
    rw [hSome, List.filterMap_some]
  rw [executionModes?, barItems_modesText h, hEmpty, hModes, ExecutionModes.ofList_toList]
  simp

lemma unknownMode?_modesText {modes : ExecutionModes} (h : modes.toList ≠ []) :
    unknownMode? (String.ofList (modesText modes)) = none := by
  rw [unknownMode?, barItems_modesText h, List.find?_eq_none]
  intro word hWord
  obtain ⟨mode, -, rfl⟩ := List.mem_map.1 hWord
  rw [Literal.ofLiteral?_literal]
  simp

lemma representable_modesText (modes : ExecutionModes) : Representable (modesText modes) := by
  refine representable_of_not_mem fun h => ?_
  obtain hBar | ⟨item, hItem, hc⟩ := Text.mem_join h
  · cases hBar
  · rw [modeWords, List.map_map, List.mem_map] at hItem
    obtain ⟨mode, -, rfl⟩ := hItem
    exact (mode_spec mode).2.2.2 hc

end PolicyText
