import PolicyText.Document.Form
import PolicyText.Document.Reader
import PolicyText.Proofs.Json.Arrangement

/-!
# Reading back what is written

A value `ReadsBack` if what is written for it is read as that value, however the fields of the
objects in it are arranged, and is not the null value, which would stand for no value at all.  Here
this is shown of words, numbers, texts and lists, and of the slots of entities that read back; and
it is shown how an object is read whose fields are those of a table (`Record.required?_of_holds`,
`Record.optional?_of_holds`).
-/

namespace PolicyText

open Json

/-- What is written for a value is read as that value and is not null. -/
structure ReadsBack {α : Type} (arrange : Json → Json) (read? : Json → Option α) (write : α → Json)
    (a : α) : Prop where
  read : read? (arrange (write a)) = some a
  ne_null : arrange (write a) ≠ .null

variable {α : Type} {arrange : Json → Json} {read? : Json → Option α} {write : α → Json}

/-! ## Fields -/

namespace Record

variable {table : Table} {fields : List (String × Json)} {place : Nat} {name : String}

lemma required?_of_holds (hHolds : table.Holds arrange fields) {a : α}
    (hField : (name, some (write a)) ∈ table) (hRead : ReadsBack arrange read? write a) :
    (named fields).required? place name read? = some a := by
  have hLookup : fields.lookup name = some (arrange (write a)) := hHolds _ hField
  rw [required?, value?, hLookup, Option.bind_eq_bind, Option.bind_some, hRead.read]

lemma optional?_of_holds (hHolds : table.Holds arrange fields) {a : Option α}
    (hField : (name, a.map write) ∈ table)
    (hRead : ∀ b ∈ a, ReadsBack arrange read? write b) :
    (named fields).optional? place name read? = some a := by
  have hLookup : fields.lookup name = (a.map write).map arrange := hHolds _ hField
  cases a with
  | none => rw [optional?, value?, hLookup]; rfl
  | some b =>
    obtain ⟨hRead, hNull⟩ := hRead b rfl
    rw [optional?, value?, hLookup, Option.map_some, Option.map_some]
    unfold Json.optional?
    split
    · rename_i hEq
      cases hEq
    · rename_i hEq
      exact absurd (Option.some.inj hEq) hNull
    · rename_i hEq
      cases hEq
      rw [hRead, Option.map_some]

variable {β : Type} {next : α → Option β} {result : β}

lemma bind_required? {a : α} (hHolds : table.Holds arrange fields)
    (hField : (name, some (write a)) ∈ table) (hRead : ReadsBack arrange read? write a)
    (hNext : next a = some result) :
    (named fields).required? place name read? >>= next = some result := by
  rw [required?_of_holds hHolds hField hRead]
  exact hNext

lemma bind_optional? {next : Option α → Option β} {a : Option α}
    (hHolds : table.Holds arrange fields) (hField : (name, a.map write) ∈ table)
    (hRead : ∀ b ∈ a, ReadsBack arrange read? write b) (hNext : next a = some result) :
    (named fields).optional? place name read? >>= next = some result := by
  rw [optional?_of_holds hHolds hField hRead]
  exact hNext

end Record

namespace ReadsBack

variable (h : Arrangement arrange)

include h

/-! ## Values without parts -/

lemma string (s : String) : ReadsBack arrange Json.string? .string s := by
  constructor <;> rw [h.string]
  · rfl
  · exact Json.noConfusion

lemma bool (b : Bool) : ReadsBack arrange Json.bool? .bool b := by
  constructor <;> rw [h.bool]
  · rfl
  · exact Json.noConfusion

lemma word [Literal α] (a : α) : ReadsBack arrange Json.literal? wordDocument a := by
  constructor <;> rw [wordDocument, h.string]
  · exact Literal.ofLiteral?_literal a
  · exact Json.noConfusion

lemma integer {range : Text.IntegerRange} (n : Text.Bounded range) :
    ReadsBack arrange (Json.integer? range) Text.Bounded.document n := by
  constructor <;> rw [Text.Bounded.document, Json.int, h.number]
  · exact Text.Bounded.ofInt?_value n
  · exact Json.noConfusion

lemma version (v : Version) :
    ReadsBack arrange Version.ofDocument? (fun v => .string v.text) v := by
  constructor <;> rw [h.string]
  · exact Version.parse?_text v
  · exact Json.noConfusion

/-! ## Lists -/

lemma list {items : List α} (hItems : ∀ a ∈ items, ReadsBack arrange read? write a) :
    ReadsBack arrange (Json.list? read?) (fun items => .array (items.map write)) items := by
  constructor <;> rw [h.array]
  · rw [Json.list?, List.map_map]
    induction items with
    | nil => rfl
    | cons a rest ih =>
      obtain ⟨ha, hRest⟩ := List.forall_mem_cons.1 hItems
      rw [List.map_cons, List.mapM_cons, Function.comp_apply, ha.read, ih hRest]
      rfl
  · exact Json.noConfusion

/-! ## Objects -/

lemma object {table : Table} (hNames : table.names.Nodup) {a : α}
    (hWrite : write a = .object table.present)
    (hRead : ∀ fields, table.Holds arrange fields → read? (.object fields) = some a) :
    ReadsBack arrange read? write a := by
  obtain ⟨fields, hObject, hHolds⟩ := h.exists_holds hNames
  constructor <;> rw [hWrite, hObject]
  · exact hRead fields hHolds
  · exact Json.noConfusion

lemma single (name : String) (value : Json) :
    arrange (.object [(name, value)]) = .object [(name, arrange value)] := by
  obtain ⟨fields, hObject, hPerm⟩ := h.object [(name, value)] (List.nodup_singleton _)
  rw [hObject, List.perm_singleton.1 hPerm]

end ReadsBack

lemma kindOf?_of_holds (h : Arrangement arrange) {table : Table} {fields : List (String × Json)}
    {word : String} (hHolds : table.Holds arrange fields)
    (hKind : ("kind", some (.string word)) ∈ table) : kindOf? fields = some word := by
  have hLookup : fields.lookup "kind" = some (arrange (.string word)) := hHolds _ hKind
  rw [kindOf?, hLookup, h.string]
  rfl

lemma Record.bind_flag? {β : Type} {table : Table} {fields : List (String × Json)} {place : Nat}
    {name : String} {next : Option Bool → Option β} {b : Option Bool} {result : β}
    (h : Arrangement arrange) (hHolds : table.Holds arrange fields)
    (hField : (name, b.map .bool) ∈ table) (hNext : next b = some result) :
    (named fields).optional? place name Json.bool? >>= next = some result :=
  bind_optional? hHolds hField (fun b _ => .bool h b) hNext

/-! ## Identity and references -/

/-- The fields of identity data. -/
def Metadata.table (m : Metadata) : Table :=
  [("id", m.id.map .string), ("version", m.version.map fun v => .string v.text),
    ("description", m.description.map .string),
    ("labels", m.labels.map fun labels => .array (labels.map .string))]

@[simp] lemma Metadata.fields_eq (m : Metadata) : m.fields = m.table.present := by
  simp [fields, table]

lemma Metadata.ofRecord?_of_holds (h : Arrangement arrange) {m : Metadata}
    {table : Table} {fields : List (String × Json)} (hHolds : table.Holds arrange fields)
    (hTable : m.table ⊆ table) : ofRecord? (.named fields) = some m := by
  replace hHolds : m.table.Holds arrange fields := fun entry hEntry => hHolds entry (hTable hEntry)
  refine Record.bind_optional? (a := m.id) hHolds (by simp [Metadata.table])
    (fun s _ => .string h s) ?_
  refine Record.bind_optional? (a := m.version) hHolds (by simp [Metadata.table])
    (fun v _ => .version h v) ?_
  refine Record.bind_optional? (a := m.description) hHolds (by simp [Metadata.table])
    (fun s _ => .string h s) ?_
  refine Record.bind_optional? (a := m.labels) hHolds (by simp [Metadata.table])
    (fun labels _ => .list h fun s _ => .string h s) ?_
  rfl

/-- The fields of a pointer. -/
def EntityRef.table (r : EntityRef) : Table :=
  [("id", some (.string r.id)), ("version", r.version.map fun v => .string v.text)]

lemma EntityRef.ofDocument?_of_holds (h : Arrangement arrange) {r : EntityRef} {table : Table}
    {fields : List (String × Json)} (hHolds : table.Holds arrange fields)
    (hTable : r.table ⊆ table) : ofDocument? (.object fields) = some r := by
  replace hHolds : r.table.Holds arrange fields := fun entry hEntry => hHolds entry (hTable hEntry)
  refine Record.bind_required? (a := r.id) hHolds (by simp [EntityRef.table]) (.string h _) ?_
  refine Record.bind_optional? (a := r.version) hHolds (by simp [EntityRef.table])
    (fun v _ => .version h v) ?_
  rfl

lemma ReadsBack.metadata (h : Arrangement arrange) (m : Metadata) :
    ReadsBack arrange Metadata.ofDocument? Metadata.document m := by
  have hNames : m.table.names.Nodup :=
    show ["id", "version", "description", "labels"].Nodup by decide
  refine .object h hNames (by simp [Metadata.document]) fun fields hHolds => ?_
  exact Metadata.ofRecord?_of_holds h hHolds (List.Subset.refl _)

lemma ReadsBack.entityRef (h : Arrangement arrange) (r : EntityRef) :
    ReadsBack arrange EntityRef.ofDocument? EntityRef.document r := by
  have hNames : r.table.names.Nodup := show ["id", "version"].Nodup by decide
  refine .object h hNames ?_ fun fields hHolds => ?_
  · simp [EntityRef.document, EntityRef.fields, EntityRef.table]
  · exact EntityRef.ofDocument?_of_holds h hHolds (List.Subset.refl _)

/-- The fields of a pointer that says what it points at. -/
def Reference.table (r : Reference) : Table :=
  ("refType", some (wordDocument r.kind)) :: r.target.table

lemma ReadsBack.reference (h : Arrangement arrange) (r : Reference) :
    ReadsBack arrange Reference.ofDocument? Reference.document r := by
  have hNames : r.table.names.Nodup := show ["refType", "id", "version"].Nodup by decide
  refine .object h hNames ?_ fun fields hHolds => ?_
  · simp [Reference.document, Reference.table, EntityRef.fields, EntityRef.table]
  · have hWord : fields.lookup "refType" = some (.string (Literal.literal r.kind)) := by
      rw [← h.string]
      exact hHolds ("refType", some (wordDocument r.kind)) List.mem_cons_self
    have hTarget := EntityRef.ofDocument?_of_holds (r := r.target) h hHolds
      (List.subset_cons_self _ _)
    refine Option.bind_eq_some_iff.2 ⟨Literal.literal r.kind, ?_, ?_⟩
    · rw [hWord]
      rfl
    · refine Option.bind_eq_some_iff.2 ⟨r.kind, Literal.ofLiteral?_literal _, ?_⟩
      exact Option.bind_eq_some_iff.2 ⟨r.target, hTarget, rfl⟩

lemma exists_slot_field (h : Arrangement arrange) {slot : Slot α}
    (hValue : ∀ a, slot = .value a → ReadsBack arrange read? write a) :
    ∃ name content, arrange (slot.document write) = .object [(name, content)] ∧
      (name = "value" ∧ (read? content).map .value = some slot ∨
        name = "ref" ∧ (EntityRef.ofDocument? content).map .ref = some slot) := by
  cases slot with
  | value a =>
    refine ⟨"value", arrange (write a), by rw [Slot.document, ReadsBack.single h], Or.inl ⟨rfl, ?_⟩⟩
    rw [(hValue a rfl).read, Option.map_some]
  | ref target =>
    refine ⟨"ref", arrange target.document, by rw [Slot.document, ReadsBack.single h],
      Or.inr ⟨rfl, ?_⟩⟩
    rw [(ReadsBack.entityRef h target).read, Option.map_some]

lemma ReadsBack.slot (h : Arrangement arrange) {slot : Slot α}
    (hValue : ∀ a, slot = .value a → ReadsBack arrange read? write a) :
    ReadsBack arrange (Slot.ofDocument? read?) (Slot.document write) slot := by
  obtain ⟨name, content, hObject, hSlot⟩ := exists_slot_field h hValue
  constructor <;> rw [hObject]
  · obtain ⟨rfl, hSlot⟩ | ⟨rfl, hSlot⟩ := hSlot
    · rw [Slot.ofDocument?, if_pos rfl, hSlot]
    · rw [Slot.ofDocument?, if_neg (by decide), if_pos rfl, hSlot]
  · exact Json.noConfusion

end PolicyText
