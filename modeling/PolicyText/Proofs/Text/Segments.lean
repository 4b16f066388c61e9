import Mathlib.Tactic.Lemma
import PolicyText.Text.Segments

/-!
# Segments of a joined list

Segments that do not contain the separator are found again in the list that they are joined to
(`segments_join`), and a joined list consists of nothing but separators and what the segments
contain (`mem_join`).  No segment of a list contains the separator (`not_mem_of_mem_segments`).
-/

namespace PolicyText.Text

variable {α : Type} [DecidableEq α] {separator : α}

lemma segments_of_not_mem {segment : List α} (h : separator ∉ segment) :
    segments separator segment = [segment] := by
  induction segment with
  | nil => rfl
  | cons c rest ih =>
    rw [List.mem_cons, not_or] at h
    obtain ⟨hc, hRest⟩ := h
    rw [segments, if_neg (Ne.symm hc), ih hRest]

lemma segments_append_cons {segment : List α} (h : separator ∉ segment) (rest : List α) :
    segments separator (segment ++ separator :: rest) = segment :: segments separator rest := by
  induction segment with
  | nil => rw [List.nil_append, segments, if_pos rfl]
  | cons c tail ih =>
    rw [List.mem_cons, not_or] at h
    obtain ⟨hc, hTail⟩ := h
    rw [List.cons_append, segments, if_neg (Ne.symm hc), ih hTail]

lemma segments_join {items : List (List α)} (hItems : items ≠ [])
    (hSegments : ∀ segment ∈ items, separator ∉ segment) :
    segments separator (join separator items) = items := by
  induction items with
  | nil => exact absurd rfl hItems
  | cons segment rest ih =>
    have hFirst : separator ∉ segment := hSegments segment (by simp)
    cases rest with
    | nil => rw [join, segments_of_not_mem hFirst]
    | cons next others =>
      have hRest := ih (by simp) (fun other hOther => hSegments other (by simp [hOther]))
      rw [join, segments_append_cons hFirst, hRest]
      simp

omit [DecidableEq α] in
lemma join_cons (segment : List α) {rest : List (List α)} (hRest : rest ≠ []) :
    join separator (segment :: rest) = segment ++ separator :: join separator rest := by
  cases rest with
  | nil => exact absurd rfl hRest
  | cons next others => rfl

omit [DecidableEq α] in
lemma mem_join {items : List (List α)} {c : α} (h : c ∈ join separator items) :
    c = separator ∨ ∃ segment ∈ items, c ∈ segment := by
  induction items with
  | nil => cases h
  | cons segment rest ih =>
    cases rest with
    | nil => exact Or.inr ⟨segment, by simp, h⟩
    | cons next others =>
      rw [join, List.mem_append, List.mem_cons] at h
      · obtain hSegment | hSeparator | hRest := h
        · exact Or.inr ⟨segment, by simp, hSegment⟩
        · exact Or.inl hSeparator
        · obtain hSeparator | ⟨other, hOther, hc⟩ := ih hRest
          · exact Or.inl hSeparator
          · exact Or.inr ⟨other, by simp [hOther], hc⟩
      · simp

omit [DecidableEq α] in
lemma mem_join_of_mem {items : List (List α)} {segment : List α} {c : α}
    (hSegment : segment ∈ items) (hc : c ∈ segment) : c ∈ join separator items := by
  induction items with
  | nil => cases hSegment
  | cons first rest ih =>
    by_cases hRest : rest = []
    · subst hRest
      obtain rfl := List.mem_singleton.1 hSegment
      exact hc
    · rw [join_cons first hRest, List.mem_append, List.mem_cons]
      obtain rfl | hOther := List.mem_cons.1 hSegment
      · exact Or.inl hc
      · exact Or.inr (Or.inr (ih hOther))

lemma mem_segments (separator : α) {items : List α} {c : α} (h : c ∈ items) :
    c = separator ∨ ∃ segment ∈ segments separator items, c ∈ segment := by
  rw [← join_segments separator items] at h
  exact mem_join h

/-- The separator stands in no segment. -/
lemma not_mem_of_mem_segments {separator : α} {items segment : List α}
    (h : segment ∈ segments separator items) : separator ∉ segment := by
  induction items generalizing segment with
  | nil =>
    obtain rfl := List.mem_singleton.1 h
    exact List.not_mem_nil
  | cons c rest ih =>
    unfold segments at h
    split at h
    · obtain rfl | hRest := List.mem_cons.1 h
      · exact List.not_mem_nil
      · exact ih hRest
    · rename_i hc
      split at h
      · obtain rfl := List.mem_singleton.1 h
        exact fun hMem => hc (List.mem_singleton.1 hMem).symm
      · rename_i first others hSegments
        obtain rfl | hOther := List.mem_cons.1 h
        · have hFirst := ih (hSegments ▸ List.mem_cons_self)
          exact fun hMem => (List.mem_cons.1 hMem).elim (fun hEq => hc hEq.symm) hFirst
        · exact ih (hSegments ▸ List.mem_cons_of_mem _ hOther)

end PolicyText.Text
