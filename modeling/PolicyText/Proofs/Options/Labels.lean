import PolicyText.Proofs.Options.Values
import PolicyText.Proofs.Scan.Scanned

/-!
# Labels that have been read

Labels that were read from the value of an option can be written (`WritableLabels.of_labels?`): what
is demanded of labels for being printed excludes none that an entity can have.  If the text stood in
backticks or in quotes, or bare, this is a matter of single characters.  Triple quotes are less
simple. They hold a text unless three quotes in a row stand before some other character
(`ClosesEarly`), and where that happens in the joined labels, it happened in the text from which
they were read.
-/

namespace PolicyText

/-! ## Texts that triple quotes hold -/

/-- Three quotes in a row stand before a character that is no quote. -/
def ClosesEarly (text : List Char) : Prop :=
  ∃ front c back, text = front ++ c :: back ∧ ['\x22', '\x22', '\x22'] <:+: front ∧ c ≠ '\x22'

/-- What occurs in a list around an element that it does not contain, occurs on one side of it. -/
lemma infix_append_cons {α : Type} {pattern x y : List α} {a : α} (ha : a ∉ pattern)
    (h : pattern <:+: x ++ a :: y) : pattern <:+: x ∨ pattern <:+: y := by
  obtain ⟨s, t, hEq⟩ := h
  obtain ⟨middle, hx, -⟩ | ⟨middle, hLeft, hRight⟩ := List.append_eq_append_iff.1 hEq
  · exact Or.inl ⟨s, middle, hx.symm⟩
  cases middle with
  | nil =>
    rw [List.append_nil] at hLeft
    exact Or.inl ⟨s, [], by rw [List.append_nil, hLeft]⟩
  | cons b rest =>
    obtain ⟨rfl, rfl⟩ := List.cons_eq_cons.1 hRight
    -- The element stands in front of the pattern or in it, and it is not in the pattern.
    obtain ⟨inner, -, hPattern⟩ | ⟨inner, -, hInner⟩ := List.append_eq_append_iff.1 hLeft
    · exact absurd (hPattern ▸ by simp) ha
    · cases inner with
      | nil =>
        rw [List.nil_append] at hInner
        exact absurd (hInner ▸ List.mem_cons_self) ha
      | cons c inner =>
        obtain ⟨rfl, rfl⟩ := List.cons_eq_cons.1 hInner
        exact Or.inr ⟨inner, t, rfl⟩

namespace ClosesEarly

lemma mono {text longer : List Char} (h : ClosesEarly text) (hInfix : text <:+: longer) :
    ClosesEarly longer := by
  obtain ⟨front, c, back, rfl, hFront, hc⟩ := h
  obtain ⟨s, t, rfl⟩ := hInfix
  exact ⟨s ++ front, c, back ++ t, by simp, hFront.trans (List.suffix_append s front).isInfix, hc⟩

lemma of_bar {text : List Char} (h : ['\x22', '\x22', '\x22'] <:+: text) (rest : List Char) :
    ClosesEarly (text ++ '|' :: rest) :=
  ⟨text, '|', rest, rfl, h, by decide⟩

lemma of_append_bar {text rest : List Char} (h : ClosesEarly (text ++ '|' :: rest)) :
    ['\x22', '\x22', '\x22'] <:+: text ∨ ClosesEarly rest := by
  obtain ⟨front, c, back, hEq, hFront, hc⟩ := h
  obtain ⟨middle, rfl, hMiddle⟩ | ⟨middle, hText, -⟩ := List.append_eq_append_iff.1 hEq
  · cases middle with
    | nil =>
      rw [List.append_nil] at hFront
      exact Or.inl hFront
    | cons d middle =>
      obtain ⟨rfl, rfl⟩ := List.cons_eq_cons.1 hMiddle
      obtain hText | hBehind := infix_append_cons (by decide) hFront
      · exact Or.inl hText
      · exact Or.inr ⟨middle, c, back, rfl, hBehind, hc⟩
  · rw [hText]
    exact Or.inl (hFront.trans (List.prefix_append front middle).isInfix)

end ClosesEarly

/-- Triple quotes hold a text exactly if three quotes in a row stand only before quotes. -/
lemma holds_tripleQuote_iff {text : List Char} :
    Wrapper.tripleQuote.Holds text ↔ ¬ ClosesEarly text := by
  obtain ⟨quotes, hQuotes, hText⟩ := exists_quotes_at_end text
  rw [Wrapper.Holds, not_iff_not]
  constructor
  · intro hInfix
    have hSome : Text.dropEndWhile (· == '\x22') text ≠ [] := by
      rintro hNil
      rw [hNil, List.infix_nil] at hInfix
      cases hInfix
    obtain ⟨init, c, hInit⟩ := (List.eq_nil_or_concat' _).resolve_left hSome
    have hc : c ≠ '\x22' := by
      rintro rfl
      exact dropEndWhile_quotes_ne text init hInit
    rw [hInit] at hInfix
    obtain hFront | hNone := infix_append_cons (by simpa using hc) hInfix
    · refine ⟨init, c, quotes, ?_, hFront, hc⟩
      conv_lhs => rw [hText, hInit]
      simp
    · rw [List.infix_nil] at hNone
      cases hNone
  · rintro ⟨front, c, back, hEq, hFront, hc⟩
    have hDropped : front <+: Text.dropEndWhile (· == '\x22') text := by
      obtain ⟨middle, -, hMiddle⟩ | ⟨middle, hDropped, -⟩ :=
        List.append_eq_append_iff.1 (hText.symm.trans hEq)
      · exact absurd (by simpa using hQuotes c (hMiddle ▸ by simp)) hc
      · exact ⟨middle, hDropped.symm⟩
    exact hFront.trans hDropped.isInfix

/-! ## Labels -/

/-- The items of a list that are not blank, without the blanks around them. -/
def trimmedItems (segments : List (List Char)) : List (List Char) :=
  (segments.map Text.trim).filter fun item => !item.isEmpty

lemma trim_isInfix (text : List Char) : Text.trim text <:+: text :=
  (Text.dropEndWhile_isPrefix Text.isBlank (Text.trimStart text)).isInfix.trans
    (List.dropWhile_suffix Text.isBlank).isInfix

/-- If three quotes stand before another character in the joined items, they do so in the list with
all its blanks. -/
lemma ClosesEarly.of_trimmedItems {segments : List (List Char)}
    (h : ClosesEarly (Text.join '|' (trimmedItems segments))) :
    ClosesEarly (Text.join '|' segments) := by
  induction segments with
  | nil => exact h
  | cons segment rest ih =>
    have hTrim := trim_isInfix segment
    have hCons : trimmedItems (segment :: rest)
        = if (Text.trim segment).isEmpty then trimmedItems rest
          else Text.trim segment :: trimmedItems rest := by
      rw [trimmedItems, List.map_cons, List.filter_cons]
      cases (Text.trim segment).isEmpty <;> rfl
    rw [hCons] at h
    cases rest with
    | nil =>
      split at h
      · obtain ⟨front, c, back, hEq, -⟩ := h
        simp [trimmedItems, Text.join] at hEq
      · exact h.mono hTrim
    | cons next others =>
      have hBehind : Text.join '|' (next :: others)
          <:+: segment ++ '|' :: Text.join '|' (next :: others) :=
        ⟨segment ++ ['|'], [], by simp⟩
      rw [Text.join_cons _ (List.cons_ne_nil _ _)]
      split at h
      · exact (ih h).mono hBehind
      cases hItems : trimmedItems (next :: others) with
      | nil =>
        rw [hItems] at h
        exact h.mono (hTrim.trans (List.prefix_append segment _).isInfix)
      | cons item items =>
        rw [hItems, Text.join_cons _ (List.cons_ne_nil _ _), ← hItems] at h
        obtain hQuotes | hRest := h.of_append_bar
        · exact .of_bar (hQuotes.trans hTrim) _
        · exact (ih hRest).mono hBehind

lemma labels?_eq_some {value : String} {labels : List String} (h : labels? value = some labels) :
    labels ≠ [] ∧ labels.map String.toList = trimmedItems (Text.segments '|' value.toList) := by
  unfold labels? at h
  split at h
  · cases h
  rename_i hSome
  cases h
  have hId : String.toList ∘ String.ofList = fun text => text := by
    funext text
    exact String.toList_ofList
  refine ⟨by rwa [List.isEmpty_iff] at hSome, ?_⟩
  rw [barItems, List.map_map, hId, List.map_id']
  rfl

lemma mem_of_mem_trimmedItems {value item : List Char} {c : Char}
    (hItem : item ∈ trimmedItems (Text.segments '|' value)) (hc : c ∈ item) : c ∈ value := by
  obtain ⟨segment, hSegment, rfl⟩ := List.mem_map.1 (List.mem_filter.1 hItem).1
  have hInSegment : c ∈ segment := (trim_isInfix segment).mem hc
  rw [← Text.join_segments '|' value]
  exact Text.mem_join_of_mem hSegment hInSegment

lemma isBarItem_of_mem_trimmedItems {value item : List Char}
    (hItem : item ∈ trimmedItems (Text.segments '|' value)) : IsBarItem item := by
  obtain ⟨hTrimmed, hEmpty⟩ := List.mem_filter.1 hItem
  obtain ⟨segment, hSegment, rfl⟩ := List.mem_map.1 hTrimmed
  exact ⟨Text.trimmed_trim segment, by simpa using hEmpty,
    fun hBar => Text.not_mem_of_mem_segments hSegment (mem_of_mem_trim hBar)⟩

/-- Labels that were read from the value of an option can be written. -/
lemma WritableLabels.of_labels? {value : String} {labels : List String}
    (hValue : ScannedText value.toList) (h : labels? value = some labels) :
    WritableLabels labels := by
  obtain ⟨hSome, hItems⟩ := labels?_eq_some h
  refine ⟨hSome, ?_, ?_⟩
  · intro label hLabel
    have hItem := List.mem_map_of_mem (f := String.toList) hLabel
    rw [hItems] at hItem
    exact isBarItem_of_mem_trimmedItems hItem
  have hMem {c : Char} (hc : c ∈ labelsJoined labels) (hBar : c ≠ '|') : c ∈ value.toList := by
    obtain rfl | ⟨item, hItem, hMem⟩ := Text.mem_join hc
    · exact absurd rfl hBar
    · rw [hItems] at hItem
      exact mem_of_mem_trimmedItems hItem hMem
  obtain (hBacktick | hQuote | hTriple) | hBare := hValue
  · exact Or.inl (Or.inl fun hc => hBacktick (hMem hc (by decide)))
  · exact Or.inl (Or.inr (Or.inl fun hc => hQuote (hMem hc (by decide))))
  · refine Or.inl (Or.inr (Or.inr (holds_tripleQuote_iff.2 fun hCloses => ?_)))
    rw [labelsJoined, hItems] at hCloses
    have hText := hCloses.of_trimmedItems
    rw [Text.join_segments] at hText
    exact holds_tripleQuote_iff.1 hTriple hText
  · refine Or.inr fun label hLabel c hc => ?_
    have hItem := List.mem_map_of_mem (f := String.toList) hLabel
    rw [hItems] at hItem
    exact hBare c (mem_of_mem_trimmedItems hItem hc)

end PolicyText
