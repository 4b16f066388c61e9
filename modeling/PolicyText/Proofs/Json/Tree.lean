import PolicyText.Document.Record
import PolicyText.Proofs.Json.Ordered
import PolicyText.Proofs.Lookup

/-!
# Trees

A tree is a JSON value as it is kept when its text has been read: the fields of its objects are in
the order of their names, its integers have 64 bits, with a sign or without one, and its other
numbers are finite.  All parts of a tree are trees, and ordering the fields of a tree changes nothing
(`Json.IsTree.ordered_eq`).

A reader that meets nothing but trees may make less of them than of other values.  `ReadsOnly` says
what it makes of them at most, and passes through fields, lists and slots to the parts that are read
by other readers.
-/

namespace PolicyText

/-- A number can stand in a tree. -/
def JsonNumber.InTree : JsonNumber → Prop
  | .integer n => -2 ^ 63 ≤ n ∧ n < 2 ^ 64
  | .double x => x.isFinite = true
  | .single x => x.isFinite = true

instance : DecidablePred JsonNumber.InTree
  | .integer n => inferInstanceAs (Decidable (-2 ^ 63 ≤ n ∧ n < 2 ^ 64))
  | .double x => inferInstanceAs (Decidable (x.isFinite = true))
  | .single x => inferInstanceAs (Decidable (x.isFinite = true))

namespace Json

/-- A value is a tree. -/
inductive IsTree : Json → Prop where
  | null : IsTree .null
  | bool (b : Bool) : IsTree (.bool b)
  | number {n : JsonNumber} (hNumber : n.InTree) : IsTree (.number n)
  | string (s : String) : IsTree (.string s)
  | array {items : List Json} (hItems : ∀ item ∈ items, IsTree item) : IsTree (.array items)
  | object {fields : List (String × Json)} (hOrder : InOrder fields)
    (hValues : ∀ field ∈ fields, IsTree field.2) : IsTree (.object fields)

instance (fields : List (String × Json)) : Decidable (InOrder fields) :=
  inferInstanceAs (Decidable (fields.Pairwise fun a b => a.1 < b.1))

mutual

/-- Whether a value is a tree. -/
def isTree : Json → Bool
  | .null | .bool _ | .string _ => true
  | .number n => decide n.InTree
  | .array items => itemsAreTrees items
  | .object fields => decide (InOrder fields) && valuesAreTrees fields

/-- Whether all items are trees. -/
def itemsAreTrees : List Json → Bool
  | [] => true
  | item :: rest => isTree item && itemsAreTrees rest

/-- Whether the values of all fields are trees. -/
def valuesAreTrees : List (String × Json) → Bool
  | [] => true
  | (_, value) :: rest => isTree value && valuesAreTrees rest

end

mutual

lemma isTree_iff : ∀ d : Json, isTree d = true ↔ d.IsTree
  | .null => ⟨fun _ => .null, fun _ => rfl⟩
  | .bool b => ⟨fun _ => .bool b, fun _ => rfl⟩
  | .string s => ⟨fun _ => .string s, fun _ => rfl⟩
  | .number n => by
    rw [isTree, decide_eq_true_iff]
    exact ⟨.number, fun | .number h => h⟩
  | .array items => by
    rw [isTree, itemsAreTrees_iff items]
    exact ⟨.array, fun | .array h => h⟩
  | .object fields => by
    rw [isTree, Bool.and_eq_true, decide_eq_true_iff, valuesAreTrees_iff fields]
    exact ⟨fun h => .object h.1 h.2, fun | .object hOrder hValues => ⟨hOrder, hValues⟩⟩

lemma itemsAreTrees_iff : ∀ items : List Json,
    itemsAreTrees items = true ↔ ∀ item ∈ items, item.IsTree
  | [] => ⟨fun _ => List.forall_mem_nil _, fun _ => rfl⟩
  | item :: rest => by
    rw [itemsAreTrees, Bool.and_eq_true, isTree_iff item, itemsAreTrees_iff rest,
      List.forall_mem_cons]

lemma valuesAreTrees_iff : ∀ fields : List (String × Json),
    valuesAreTrees fields = true ↔ ∀ field ∈ fields, field.2.IsTree
  | [] => ⟨fun _ => List.forall_mem_nil _, fun _ => rfl⟩
  | (name, value) :: rest => by
    rw [valuesAreTrees, Bool.and_eq_true, isTree_iff value, valuesAreTrees_iff rest,
      List.forall_mem_cons]

end

instance : DecidablePred IsTree := fun d =>
  decidable_of_iff (isTree d = true) (isTree_iff d)

lemma IsTree.ordered_eq {d : Json} (h : d.IsTree) : d.ordered = d := by
  induction h with
  | null | bool | number | string => rfl
  | @array items hItems ih =>
    rw [ordered, orderedItems_eq_map, List.map_congr_left ih, List.map_id']
  | @object fields hOrder hValues ih =>
    have hSame : orderedValues fields = fields := by
      rw [orderedValues_eq_map]
      refine (List.map_congr_left fun field hField => ?_).trans (List.map_id fields)
      exact Prod.ext rfl (ih field hField)
    rw [ordered, hSame, hOrder.orderedFields_eq]

lemma IsTree.field {fields : List (String × Json)} (h : (Json.object fields).IsTree)
    {field : String × Json} (hField : field ∈ fields) : field.2.IsTree := by
  cases h with
  | object hOrder hValues => exact hValues field hField

lemma IsTree.cons {item : Json} {rest : List Json} (h : (Json.array (item :: rest)).IsTree) :
    item.IsTree ∧ (Json.array rest).IsTree := by
  cases h with
  | array hItems =>
    obtain ⟨hItem, hRest⟩ := List.forall_mem_cons.1 hItems
    exact ⟨hItem, .array hRest⟩

end Json

/-- All that a reader makes of trees has a property. -/
def ReadsOnly {α : Type} (read? : Json → Option α) (property : α → Prop) : Prop :=
  ∀ d a, d.IsTree → read? d = some a → property a

section ReadsOnly

variable {α : Type} {read? : Json → Option α} {property : α → Prop}

lemma ReadsOnly.list (h : ReadsOnly read? property) :
    ReadsOnly (Json.list? read?) fun items => ∀ a ∈ items, property a := by
  rintro d items hTree hRead
  cases hTree with
  | @array documents hItems =>
    change documents.mapM read? = some items at hRead
    induction documents generalizing items with
    | nil =>
      cases hRead
      exact List.forall_mem_nil _
    | cons document rest ih =>
      rw [List.mapM_cons] at hRead
      obtain ⟨a, ha, hRead⟩ := Option.bind_eq_some_iff.1 hRead
      obtain ⟨others, hOthers, hRead⟩ := Option.bind_eq_some_iff.1 hRead
      cases hRead
      obtain ⟨hFirst, hRest⟩ := List.forall_mem_cons.1 hItems
      exact List.forall_mem_cons.2 ⟨h document a hFirst ha, ih others hRest hOthers⟩
  | _ => cases hRead

namespace Record

/-- All values of a record are trees. -/
def IsTree : Record → Prop
  | .named fields => ∀ field ∈ fields, field.2.IsTree
  | .positional items => ∀ item ∈ items, item.IsTree

variable {record : Record} {place : Nat} {name : String}

lemma isTree_named {fields : List (String × Json)} (hTree : (Json.object fields).IsTree) :
    (named fields).IsTree :=
  fun _ hField => hTree.field hField

lemma isTree_of_ofDocument? {d : Json} {count : Nat} (hTree : d.IsTree)
    (h : ofDocument? count d = some record) : record.IsTree := by
  cases hTree with
  | object hOrder hValues =>
    cases h
    exact hValues
  | @array items hItems =>
    rw [ofDocument?] at h
    split at h
    · cases h
      exact hItems
    · cases h
  | _ => cases h

lemma IsTree.value? (hRecord : record.IsTree) {d : Json} (h : record.value? place name = some d) :
    d.IsTree := by
  cases record with
  | named fields => exact hRecord (name, d) (List.mem_of_lookup h)
  | positional items => exact hRecord d (List.mem_of_getElem? h)

lemma IsTree.required? (hRecord : record.IsTree) (h : ReadsOnly read? property) {a : α}
    (hRead : record.required? place name read? = some a) : property a := by
  obtain ⟨d, hValue, hRead⟩ := Option.bind_eq_some_iff.1 hRead
  exact h d a (hRecord.value? hValue) hRead

lemma IsTree.optional? (hRecord : record.IsTree) (h : ReadsOnly read? property) {found : Option α}
    (hRead : record.optional? place name read? = some found) : ∀ a ∈ found, property a := by
  rintro a ha
  obtain rfl : found = some a := ha
  rw [Record.optional?] at hRead
  unfold Json.optional? at hRead
  split at hRead
  · cases hRead
  · cases hRead
  · rename_i d hNull hValue
    obtain ⟨b, hFound, hSame⟩ := Option.map_eq_some_iff.1 hRead
    obtain rfl : b = a := Option.some.inj hSame
    exact h d b (hRecord.value? hValue) hFound

end Record

end ReadsOnly

end PolicyText
