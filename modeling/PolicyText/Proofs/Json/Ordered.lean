import Mathlib.Data.List.Nodup
import PolicyText.Json.Basic

/-!
# Ordered values

Ordering the fields of an object leaves them as they are, up to their places, if no name is repeated
(`orderedFields_perm`); and it leaves nothing to be ordered (`pairwise_orderedFields`).  Since only
one arrangement of some fields is in order, what has been ordered does not change any more
(`ordered_ordered`).
-/

namespace PolicyText.Json

/-- The names of fields. -/
def names (fields : List (String × Json)) : List String :=
  fields.map Prod.fst

/-- Fields that are in the order of their names, no two of which are alike. -/
def InOrder (fields : List (String × Json)) : Prop :=
  fields.Pairwise fun a b => a.1 < b.1

variable {name : String} {value : Json} {fields : List (String × Json)}

/-! ## The fields of one object -/

lemma mem_of_mem_setField {field : String × Json} (h : field ∈ setField name value fields) :
    field = (name, value) ∨ field ∈ fields := by
  induction fields with
  | nil => exact Or.inl (List.mem_singleton.1 h)
  | cons first rest ih =>
    obtain ⟨other, old⟩ := first
    rw [setField] at h
    split at h
    · exact (List.mem_cons.1 h).imp_right fun hRest => List.mem_cons_of_mem _ hRest
    split at h
    · exact List.mem_cons.1 h
    · obtain rfl | hRest := List.mem_cons.1 h
      · exact Or.inr List.mem_cons_self
      · exact (ih hRest).imp_right fun hOld => List.mem_cons_of_mem _ hOld

lemma setField_perm (h : name ∉ names fields) :
    (setField name value fields).Perm ((name, value) :: fields) := by
  induction fields with
  | nil => exact List.Perm.refl _
  | cons first rest ih =>
    obtain ⟨other, old⟩ := first
    rw [names, List.map_cons, List.mem_cons, not_or] at h
    obtain ⟨hOther, hRest⟩ := h
    rw [setField, if_neg hOther]
    split
    · exact List.Perm.refl _
    · exact ((ih hRest).cons _).trans (List.Perm.swap _ _ _)

/-- A field that is set is put where it belongs. -/
lemma InOrder.setField (h : InOrder fields) : InOrder (setField name value fields) := by
  induction fields with
  | nil => exact List.pairwise_singleton _ _
  | cons first rest ih =>
    obtain ⟨other, old⟩ := first
    obtain ⟨hFirst, hRest⟩ := List.pairwise_cons.1 h
    rw [Json.setField]
    split
    · subst name
      exact List.pairwise_cons.2 ⟨hFirst, hRest⟩
    split
    · rename_i hLess
      refine List.pairwise_cons.2 ⟨fun field hField => ?_, h⟩
      obtain rfl | hField := List.mem_cons.1 hField
      · exact hLess
      · exact String.lt_trans hLess (hFirst field hField)
    · rename_i hNe hNotLess
      have hGreater : other < name := by
        by_contra hNotGreater
        exact hNe (String.le_antisymm (String.not_lt.1 hNotGreater) (String.not_lt.1 hNotLess))
      refine List.pairwise_cons.2 ⟨fun field hField => ?_, ih hRest⟩
      obtain rfl | hField := mem_of_mem_setField hField
      · exact hGreater
      · exact hFirst field hField

lemma foldl_setField_perm {start : List (String × Json)}
    (h : (names start ++ names fields).Nodup) :
    (fields.foldl (fun ordered (name, value) => Json.setField name value ordered) start).Perm
      (start ++ fields) := by
  induction fields generalizing start with
  | nil => rw [List.append_nil]; exact List.Perm.refl _
  | cons field rest ih =>
    obtain ⟨name, value⟩ := field
    obtain ⟨hStart, hFields, hApart⟩ := List.nodup_append.1 h
    have hNew : name ∉ names start := fun hMem => hApart name hMem name List.mem_cons_self rfl
    have hSet : (Json.setField name value start).Perm ((name, value) :: start) :=
      setField_perm hNew
    have hNames : (names (Json.setField name value start) ++ names rest).Perm
        (names start ++ names ((name, value) :: rest)) :=
      ((hSet.map Prod.fst).append_right _).trans List.perm_middle.symm
    exact (ih (hNames.nodup_iff.2 h)).trans ((hSet.append_right rest).trans List.perm_middle.symm)

lemma orderedFields_perm (h : (names fields).Nodup) : (orderedFields fields).Perm fields :=
  foldl_setField_perm h

lemma InOrder.foldl_setField {start : List (String × Json)} (h : InOrder start) :
    InOrder (fields.foldl (fun ordered (name, value) => Json.setField name value ordered)
      start) := by
  induction fields generalizing start with
  | nil => exact h
  | cons field rest ih => exact ih h.setField

lemma inOrder_orderedFields (fields : List (String × Json)) : InOrder (orderedFields fields) :=
  InOrder.foldl_setField List.Pairwise.nil

lemma InOrder.nodup_names (h : InOrder fields) : (names fields).Nodup :=
  List.pairwise_map.2 (h.imp fun hLess => String.ne_of_lt hLess)

lemma InOrder.orderedFields_eq (h : InOrder fields) : orderedFields fields = fields := by
  refine (orderedFields_perm h.nodup_names).eq_of_pairwise (fun a b _ _ hLess hGreater => ?_)
    (inOrder_orderedFields fields) h
  exact absurd hGreater (String.lt_asymm hLess)

lemma mem_of_mem_foldl_setField {start : List (String × Json)} {field : String × Json}
    (h : field ∈ fields.foldl (fun ordered (name, value) => Json.setField name value ordered)
      start) : field ∈ start ∨ field ∈ fields := by
  induction fields generalizing start with
  | nil => exact Or.inl h
  | cons first rest ih =>
    obtain hStart | hRest := ih h
    · obtain rfl | hOld := mem_of_mem_setField hStart
      · exact Or.inr List.mem_cons_self
      · exact Or.inl hOld
    · exact Or.inr (List.mem_cons_of_mem _ hRest)

lemma mem_of_mem_orderedFields {field : String × Json} (h : field ∈ orderedFields fields) :
    field ∈ fields :=
  (mem_of_mem_foldl_setField h).resolve_left List.not_mem_nil

/-! ## Values -/

lemma orderedItems_eq_map (items : List Json) : orderedItems items = items.map ordered := by
  induction items with
  | nil => rfl
  | cons item rest ih => rw [orderedItems, ih, List.map_cons]

lemma orderedValues_eq_map (fields : List (String × Json)) :
    orderedValues fields = fields.map fun field => (field.1, ordered field.2) := by
  induction fields with
  | nil => rfl
  | cons field rest ih => rw [orderedValues, ih, List.map_cons]

mutual

lemma ordered_ordered : ∀ j : Json, ordered (ordered j) = ordered j
  | .null | .bool _ | .number _ | .string _ => rfl
  | .array items => by rw [ordered, ordered, orderedItems_orderedItems items]
  | .object fields => by
    have hValues : orderedValues (orderedFields (orderedValues fields))
        = orderedFields (orderedValues fields) := by
      rw [orderedValues_eq_map (orderedFields _)]
      refine (List.map_congr_left fun field hField => ?_).trans (List.map_id _)
      have hValue := ordered_of_mem_orderedValues fields field (mem_of_mem_orderedFields hField)
      exact Prod.ext rfl hValue
    rw [ordered, ordered, hValues, (inOrder_orderedFields _).orderedFields_eq]

lemma orderedItems_orderedItems : ∀ items : List Json,
    orderedItems (orderedItems items) = orderedItems items
  | [] => rfl
  | item :: rest => by
    rw [orderedItems, orderedItems, ordered_ordered item, orderedItems_orderedItems rest]

lemma ordered_of_mem_orderedValues : ∀ (fields : List (String × Json)),
    ∀ field ∈ orderedValues fields, ordered field.2 = field.2
  | [], _, h => absurd h List.not_mem_nil
  | (name, value) :: rest, field, h => by
    obtain rfl | hRest := List.mem_cons.1 h
    · exact ordered_ordered value
    · exact ordered_of_mem_orderedValues rest field hRest

end

end PolicyText.Json
