import PolicyText.Document.Record
import PolicyText.Proofs.Json.Ordered
import PolicyText.Proofs.Lookup

/-!
# Objects as tables of fields

In a document the fields of an object stand in the order in which they are written, and in a tree in
the order of their names.  An `Arrangement` is any way to give the fields of all objects their
places, and what is shown for every arrangement holds for both (`Arrangement.id`,
`Arrangement.ordered`).

A `Table` lists the fields that an object can have, those that are left out included.  If no name
stands twice in a table, then each of its fields is found under its name in the object, however this
is arranged, and a field that is left out is not found (`Arrangement.exists_holds`).
-/

namespace PolicyText.Json

/-! ## Arrangements -/

/-- A way to arrange the fields of the objects in a value. -/
structure Arrangement (arrange : Json → Json) : Prop where
  null : arrange .null = .null
  bool (b : Bool) : arrange (.bool b) = .bool b
  number (n : JsonNumber) : arrange (.number n) = .number n
  string (s : String) : arrange (.string s) = .string s
  array (items : List Json) : arrange (.array items) = .array (items.map arrange)
  object (fields : List (String × Json)) (hNames : (names fields).Nodup) :
    ∃ arranged, arrange (.object fields) = .object arranged ∧
      arranged.Perm (fields.map fun field => (field.1, arrange field.2))

lemma Arrangement.id : Arrangement fun j => j where
  null := rfl
  bool _ := rfl
  number _ := rfl
  string _ := rfl
  array items := by rw [List.map_id']
  object fields _ := ⟨fields, rfl, by rw [List.map_id']⟩

lemma Arrangement.ordered : Arrangement Json.ordered where
  null := rfl
  bool _ := rfl
  number _ := rfl
  string _ := rfl
  array items := by rw [Json.ordered, orderedItems_eq_map]
  object fields hNames := by
    refine ⟨orderedFields (orderedValues fields), rfl, ?_⟩
    have hSame : names (orderedValues fields) = names fields := by
      rw [orderedValues_eq_map, names, List.map_map]
      rfl
    rw [← orderedValues_eq_map]
    exact orderedFields_perm (by rwa [hSame])

/-! ## Tables -/

/-- The fields that an object can have, each with its value or none. -/
abbrev Table := List (String × Option Json)

/-- The fields of a table that have values. -/
def Table.present (table : Table) : List (String × Json) :=
  table.flatMap fun entry => optionalField entry.1 (fun value => value) entry.2

/-- The names of the fields of a table. -/
def Table.names (table : Table) : List String :=
  table.map Prod.fst

@[simp] lemma Table.present_nil : Table.present [] = [] :=
  rfl

@[simp] lemma Table.present_append (front back : Table) :
    Table.present (front ++ back) = front.present ++ back.present :=
  List.flatMap_append

@[simp] lemma Table.present_cons_some (name : String) (value : Json) (table : Table) :
    Table.present ((name, some value) :: table) = (name, value) :: table.present :=
  rfl

@[simp] lemma Table.present_cons_map {α : Type} (name : String) (write : α → Json) (a : Option α)
    (table : Table) :
    Table.present ((name, a.map write) :: table)
      = optionalField name write a ++ table.present := by
  cases a <;> rfl

lemma Table.names_present_sublist (table : Table) :
    (Json.names table.present).Sublist table.names := by
  induction table with
  | nil => exact List.Sublist.refl _
  | cons entry rest ih =>
    obtain ⟨name, _ | value⟩ := entry
    · exact ih.cons name
    · exact ih.cons_cons name

lemma Table.mem_present {table : Table} {name : String} {value : Json}
    (h : (name, some value) ∈ table) : (name, value) ∈ table.present :=
  List.mem_flatMap.2 ⟨(name, some value), h, List.mem_singleton_self _⟩

lemma Table.not_mem_names_present {table : Table} {name : String} (hNames : table.names.Nodup)
    (h : (name, none) ∈ table) : name ∉ Json.names table.present := by
  induction table with
  | nil => exact absurd h List.not_mem_nil
  | cons entry rest ih =>
    obtain ⟨hNew, hRest⟩ := List.nodup_cons.1 hNames
    obtain rfl | hMem := List.mem_cons.1 h
    · exact fun hPresent => hNew ((names_present_sublist rest).mem hPresent)
    · obtain ⟨other, _ | value⟩ := entry
      · exact ih hRest hMem
      · have hOther : name ≠ other := by
          rintro rfl
          exact hNew (List.mem_map.2 ⟨(name, none), hMem, rfl⟩)
        exact fun hPresent => (List.mem_cons.1 hPresent).elim hOther (ih hRest hMem)

/-- Fields are those of a table, with what is inside their values arranged. -/
def Table.Holds (arrange : Json → Json) (table : Table) (fields : List (String × Json)) : Prop :=
  ∀ entry ∈ table, fields.lookup entry.1 = entry.2.map arrange

/-- An object without repeated names holds the fields of its table, however it is arranged. -/
lemma Arrangement.exists_holds {arrange : Json → Json} (h : Arrangement arrange) {table : Table}
    (hNames : table.names.Nodup) :
    ∃ fields, arrange (.object table.present) = .object fields ∧ table.Holds arrange fields := by
  have hPresent := (Table.names_present_sublist table).nodup hNames
  obtain ⟨fields, hObject, hPerm⟩ := h.object table.present hPresent
  have hSame : (names fields).Perm (names table.present) := by
    have hMap := hPerm.map Prod.fst
    rwa [List.map_map] at hMap
  refine ⟨fields, hObject, fun entry hEntry => ?_⟩
  obtain ⟨name, _ | value⟩ := entry
  · refine List.lookup_of_not_mem fun hMem => ?_
    exact Table.not_mem_names_present hNames hEntry (hSame.mem_iff.1 hMem)
  · have hField : (name, arrange value) ∈ fields :=
      hPerm.mem_iff.2 (List.mem_map.2 ⟨(name, value), Table.mem_present hEntry, rfl⟩)
    exact List.lookup_of_mem (hSame.nodup_iff.2 hPresent) hField

end PolicyText.Json
