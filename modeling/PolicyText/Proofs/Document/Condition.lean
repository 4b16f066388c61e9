import PolicyText.Proofs.Document.Variable

/-!
# Documents of conditions

A condition of any depth is read back (`ReadsBack.condition`).  The reader goes from a combination
to the documents of its conditions by the same recursion by which these were written, so that the
proof is an induction on the condition, with the list of slots in between
(`conditionSlots?_documents`).
-/

namespace PolicyText

open Json

variable {arrange : Json → Json} (h : Arrangement arrange)

/-! ## Atomic conditions -/

/-- The fields of an atomic condition. -/
def AtomicCondition.table (c : AtomicCondition) : Table :=
  ("kind", some (.string "atomic")) :: c.metadata.table ++
    [("operation", some (wordDocument c.operation)),
      ("args", some (.array (c.args.map (Slot.document Variable.document)))),
      ("negate_result", c.negateResult.map .bool),
      ("string_ignore_case", c.stringIgnoreCase.map .bool),
      ("fields_strict_check", c.fieldsStrictCheck.map .bool),
      ("array_order_strict_check", c.arrayOrderStrictCheck.map .bool)]

include h in
/-- An atomic condition is read back. -/
lemma ReadsBack.atomicCondition {c : AtomicCondition} (hc : c.Meets (documentable arrange)) :
    ReadsBack arrange Condition.ofDocument? Condition.document (.atomic c) := by
  have hNames : c.table.names.Nodup :=
    show ["kind", "id", "version", "description", "labels", "operation", "args", "negate_result",
      "string_ignore_case", "fields_strict_check", "array_order_strict_check"].Nodup by decide
  refine .object h hNames
    (by simp [Condition.document, AtomicCondition.document, AtomicCondition.table])
    fun fields hHolds => ?_
  have hKind : kindOf? fields = some "atomic" :=
    kindOf?_of_holds h hHolds (by simp [AtomicCondition.table])
  rw [Condition.ofDocument?, hKind]
  refine Option.map_eq_some_iff.2 ⟨c, ?_, rfl⟩
  refine Option.bind_eq_some_iff.2
    ⟨c.metadata, Metadata.ofRecord?_of_holds h hHolds (by simp [AtomicCondition.table]), ?_⟩
  refine Record.bind_required? (a := c.operation) hHolds (by simp [AtomicCondition.table])
    (.word h _) ?_
  refine Record.bind_required? (a := c.args) hHolds (by simp [AtomicCondition.table])
    (.list h fun slot hSlot => .variableSlot h (hc.2.2 slot hSlot)) ?_
  refine Record.bind_flag? (b := c.negateResult) h hHolds (by simp [AtomicCondition.table]) ?_
  refine Record.bind_flag? (b := c.stringIgnoreCase) h hHolds (by simp [AtomicCondition.table]) ?_
  refine Record.bind_flag? (b := c.fieldsStrictCheck) h hHolds
      (by simp [AtomicCondition.table]) ?_
  refine Record.bind_flag? (b := c.arrayOrderStrictCheck) h hHolds
      (by simp [AtomicCondition.table]) ?_
  rfl

/-! ## Combinations of conditions -/

include h in
lemma conditionSlots?_documents {slots : List (Slot Condition)}
    (hValues : ∀ c, .value c ∈ slots →
      ReadsBack arrange Condition.ofDocument? Condition.document c) :
    conditionSlots? ((conditionDocuments slots).map arrange) = some slots := by
  rw [conditionDocuments_eq_map]
  induction slots with
  | nil => rw [List.map_nil, List.map_nil, conditionSlots?]
  | cons slot rest ih =>
    have hRest := ih fun c hc => hValues c (List.mem_cons_of_mem _ hc)
    obtain ⟨name, content, hObject, hSlot⟩ := exists_slot_field h
      fun c hc => hValues c (hc ▸ List.mem_cons_self)
    rw [List.map_cons, List.map_cons, hObject, conditionSlots?, hRest]
    obtain ⟨rfl, hSlot⟩ | ⟨rfl, hSlot⟩ := hSlot
    · rw [if_pos rfl, hSlot]
      rfl
    · rw [if_neg (by decide), if_pos rfl, hSlot]
      rfl

/-- The fields of a combination of conditions. -/
def compositeTable (metadata : Metadata) (logic : Logic) (conditions : List (Slot Condition))
    (settings : CompositeSettings) : Table :=
  ("kind", some (.string "composite")) :: metadata.table ++
    [("logic", some (wordDocument logic)),
      ("conditions", some (.array (conditionDocuments conditions))),
      ("minimum_conditions", settings.minimumConditions.map Text.Bounded.document),
      ("optimize", settings.optimize.map .bool),
      ("negate_result", settings.negateResult.map .bool),
      ("strict_check", settings.strictCheck.map .bool)]

include h in
/-- A combination of conditions is read back if the conditions are. -/
lemma ReadsBack.composite (metadata : Metadata) (logic : Logic) {conditions : List (Slot Condition)}
    (settings : CompositeSettings)
    (hValues : ∀ c, .value c ∈ conditions →
      ReadsBack arrange Condition.ofDocument? Condition.document c) :
    ReadsBack arrange Condition.ofDocument? Condition.document
      (.composite metadata logic conditions settings) := by
  have hNames : (compositeTable metadata logic conditions settings).names.Nodup :=
    show ["kind", "id", "version", "description", "labels", "logic", "conditions",
      "minimum_conditions", "optimize", "negate_result", "strict_check"].Nodup by decide
  refine .object h hNames
    (by simp [Condition.document, CompositeSettings.fields, compositeTable]) fun fields hHolds => ?_
  have hKind : kindOf? fields = some "composite" :=
    kindOf?_of_holds h hHolds (by simp [compositeTable])
  have hConditions : fields.lookup "conditions"
      = some (.array ((conditionDocuments conditions).map arrange)) := by
    rw [← h.array]
    exact hHolds ("conditions", some (.array (conditionDocuments conditions)))
      (by simp [compositeTable])
  have hRead : compositeOfRecord? (.named fields) conditions
      = some (.composite metadata logic conditions settings) := by
    refine Option.bind_eq_some_iff.2
      ⟨metadata, Metadata.ofRecord?_of_holds h hHolds (by simp [compositeTable]), ?_⟩
    refine Record.bind_required? (a := logic) hHolds (by simp [compositeTable]) (.word h _) ?_
    refine Option.bind_eq_some_iff.2 ⟨settings, ?_, rfl⟩
    refine Record.bind_optional? (a := settings.minimumConditions) hHolds
      (by simp [compositeTable]) (fun n _ => .integer h n) ?_
    refine Record.bind_flag? (b := settings.optimize) h hHolds (by simp [compositeTable]) ?_
    refine Record.bind_flag? (b := settings.negateResult) h hHolds (by simp [compositeTable]) ?_
    refine Record.bind_flag? (b := settings.strictCheck) h hHolds (by simp [compositeTable]) ?_
    rfl
  rw [Condition.ofDocument?, hKind]
  simp only
  -- the reader keeps the equation of the field that it reads, to see that what is inside is smaller
  split
  · rename_i items hItems
    rw [hConditions] at hItems
    cases hItems
    rw [conditionSlots?_documents h hValues]
    exact hRead
  · rename_i hNone
    exact absurd hConditions (hNone _)

/-! ## Conditions -/

/-- The fields of a constant with a word. -/
def constantTable (word : Json) : Table :=
  [("kind", some (.string "default")), ("value", some word)]

include h in
lemma ReadsBack.constant (value : ConstantCondition) :
    ReadsBack arrange Condition.ofDocument? Condition.document (.constant value) := by
  have hNames : (constantTable (wordDocument value)).names.Nodup :=
    show ["kind", "value"].Nodup by decide
  refine .object h hNames (by simp [Condition.document, constantTable]) fun fields hHolds => ?_
  have hKind : kindOf? fields = some "default" :=
    kindOf?_of_holds h hHolds (by simp [constantTable])
  rw [Condition.ofDocument?, hKind]
  exact Option.map_eq_some_iff.2 ⟨value, Record.required?_of_holds hHolds (by simp [constantTable])
    (.word h value), rfl⟩

include h in
lemma ReadsBack.condition {c : Condition} (hc : c.Meets (documentable arrange)) :
    ReadsBack arrange Condition.ofDocument? Condition.document c := by
  induction hc with
  | atomic hAtomic => exact atomicCondition h hAtomic
  | composite hMetadata hComposite hValues hReferences ih => exact composite h _ _ _ ih
  | constant value => exact constant h value

lemma ReadsBack.conditionSlot (h : Arrangement arrange) {slot : Slot Condition}
    (hSlot : slot.Meets (documentable arrange) (Condition.Meets (documentable arrange))) :
    ReadsBack arrange (Slot.ofDocument? Condition.ofDocument?) (Slot.document Condition.document)
      slot := by
  refine .slot h fun c hc => .condition h ?_
  rwa [hc] at hSlot

end PolicyText
