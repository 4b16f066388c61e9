import PolicyText.Proofs.Calendar.Duration
import PolicyText.Proofs.Calendar.Notation
import PolicyText.Proofs.Decimal
import PolicyText.Proofs.Document.Reading
import PolicyText.Proofs.Model.WellFormed

/-!
# Documents of variables

A static value is read back by the reader of its type (`StaticValue.ofContent?_content`).  Most
types come down to a text or a number; a period is an object of its own, and a value that is itself
an object or an array has to be kept by the arrangement, since whatever stands in it is part of the
value.  A number of a binary format has a document only if it is finite.

Resolvers and variables are read back as tables of fields (`ReadsBack.resolver`,
`ReadsBack.variable`).
-/

namespace PolicyText

open Json

variable {arrange : Json → Json} (h : Arrangement arrange)

/-! ## Static values -/

/-- The fields of a period. -/
def Period.table (p : Period) : Table :=
  [("years", some p.years.document), ("months", some p.months.document),
    ("days", some p.days.document)]

include h in
lemma ReadsBack.period (p : Period) :
    ReadsBack arrange Period.ofDocument? Period.document p := by
  have hNames : p.table.names.Nodup := show ["years", "months", "days"].Nodup by decide
  refine .object h hNames rfl fun fields hHolds => ?_
  refine Record.bind_required? (a := p.years) hHolds (by simp [Period.table]) (.integer h _) ?_
  refine Record.bind_required? (a := p.months) hHolds (by simp [Period.table]) (.integer h _) ?_
  refine Record.bind_required? (a := p.days) hHolds (by simp [Period.table]) (.integer h _) ?_
  rfl

include h in
/-- The content of a static value is read back as a value of its type. -/
lemma StaticValue.ofContent?_content {v : StaticValue} (hFinite : v.IsFinite)
    (hKept : v.KeptBy arrange) : ofContent? (arrange v.content) v.type = some v := by
  cases v with
  | string s =>
    rw [content, h.string]
    rfl
  | date d =>
    rw [content, h.string, type, ofContent?, Date.ofDocument?, String.toList_ofList, d.parse_text]
    rfl
  | dateTime dt =>
    rw [content, h.string, type, ofContent?, DateTime.ofDocument?, String.toList_ofList,
      dt.parse_text]
    rfl
  | time t =>
    rw [content, h.string, type, ofContent?, TimeOfDay.ofDocument?, String.toList_ofList,
      t.parse_text]
    rfl
  | period p =>
    rw [content, type, ofContent?, (ReadsBack.period h p).read]
    rfl
  | duration d =>
    rw [content, h.string, type, ofContent?, Duration.ofDocument?, String.toList_ofList,
      d.parse?_text]
    rfl
  | int n =>
    rw [content, type, ofContent?, (ReadsBack.integer h n).read]
    rfl
  | long n =>
    rw [content, type, ofContent?, (ReadsBack.integer h n).read]
    rfl
  | number x =>
    rw [content, numberDocument, if_pos (show x.isFinite = true from hFinite), h.number]
    rfl
  | float x =>
    rw [content, numberDocument, if_pos (show x.isFinite = true from hFinite), h.number]
    rfl
  | bigDecimal d =>
    rw [content, h.string, type, ofContent?, Decimal.ofDocument?, String.toList_ofList,
      d.readPlain_text]
    rfl
  | boolean b =>
    rw [content, h.bool]
    rfl
  | object fields =>
    rw [content, hKept]
    rfl
  | array items =>
    rw [content, hKept]
    rfl

/-- The fields of a static value. -/
def StaticValue.table (v : StaticValue) : Table :=
  [("type", some (wordDocument v.type)), ("value", some v.content)]

include h in
lemma ReadsBack.staticValue {v : StaticValue} (hFinite : v.IsFinite) (hKept : v.KeptBy arrange) :
    ReadsBack arrange StaticValue.ofDocument? StaticValue.document v := by
  have hNames : v.table.names.Nodup := show ["type", "value"].Nodup by decide
  refine .object h hNames rfl fun fields hHolds => ?_
  refine Record.bind_required? (a := v.type) hHolds (by simp [StaticValue.table]) (.word h _) ?_
  have hContent : fields.lookup "value" = some (arrange v.content) :=
    hHolds ("value", some v.content) (by simp [StaticValue.table])
  exact Option.bind_eq_some_iff.2 ⟨_, hContent, v.ofContent?_content h hFinite hKept⟩

/-! ## Resolvers -/

/-- The fields of a resolver. -/
def Resolver.table (r : Resolver) : Table :=
  r.metadata.table ++
    [("engine", some (wordDocument r.engine)), ("expression", some (.string r.expression)),
      ("source", r.source.map wordDocument), ("key", r.key.map .string)]

include h in
lemma ReadsBack.resolver (r : Resolver) :
    ReadsBack arrange Resolver.ofDocument? Resolver.document r := by
  have hNames : r.table.names.Nodup :=
    show ["id", "version", "description", "labels", "engine", "expression", "source", "key"].Nodup
    by decide
  refine .object h hNames (by simp [Resolver.document, Resolver.table]) fun fields hHolds => ?_
  refine Option.bind_eq_some_iff.2
    ⟨r.metadata, Metadata.ofRecord?_of_holds h hHolds (by simp [Resolver.table]), ?_⟩
  refine Record.bind_required? (a := r.engine) hHolds (by simp [Resolver.table]) (.word h _) ?_
  refine Record.bind_required? (a := r.expression) hHolds (by simp [Resolver.table])
    (.string h _) ?_
  refine Record.bind_optional? (a := r.source) hHolds (by simp [Resolver.table])
    (fun source _ => .word h source) ?_
  refine Record.bind_optional? (a := r.key) hHolds (by simp [Resolver.table])
    (fun key _ => .string h key) ?_
  rfl

/-! ## Variables -/

/-- What is demanded of an entity whose document is to hold it: numbers are finite, and a value that
is an object or an array is kept by the arrangement. -/
def documentable (arrange : Json → Json) : Demands where
  staticVariable v := v.value.IsFinite ∧ v.value.KeptBy arrange

/-- The fields of a static variable. -/
def StaticVariable.table (v : StaticVariable) : Table :=
  ("kind", some (.string "static")) :: v.metadata.table ++
    [("value", some v.value.document), ("format", v.format.map .string),
      ("is_json", v.isJson.map .bool)]

/-- The fields of a dynamic variable. -/
def DynamicVariable.table (v : DynamicVariable) : Table :=
  ("kind", some (.string "dynamic")) :: v.metadata.table ++
    [("resolvers", some (.array (v.resolvers.map (Slot.document Resolver.document)))),
      ("type", v.type.map wordDocument), ("format", v.format.map .string)]

include h in
lemma ReadsBack.staticVariable {v : StaticVariable} (hv : v.Meets (documentable arrange)) :
    ReadsBack arrange Variable.ofDocument? Variable.document (.static v) := by
  have hNames : v.table.names.Nodup :=
    show ["kind", "id", "version", "description", "labels", "value", "format", "is_json"].Nodup
    by decide
  refine .object h hNames (by simp [Variable.document, StaticVariable.table])
    fun fields hHolds => ?_
  have hKind : kindOf? fields = some "static" :=
    kindOf?_of_holds h hHolds (by simp [StaticVariable.table])
  rw [Variable.ofDocument?, hKind]
  refine Option.map_eq_some_iff.2 ⟨v, ?_, rfl⟩
  refine Option.bind_eq_some_iff.2
    ⟨v.metadata, Metadata.ofRecord?_of_holds h hHolds (by simp [StaticVariable.table]), ?_⟩
  refine Record.bind_required? (a := v.value) hHolds (by simp [StaticVariable.table])
    (.staticValue h hv.2.1 hv.2.2) ?_
  refine Record.bind_optional? (a := v.format) hHolds (by simp [StaticVariable.table])
    (fun format _ => .string h format) ?_
  refine Record.bind_flag? (b := v.isJson) h hHolds (by simp [StaticVariable.table]) ?_
  rfl

include h in
/-- A dynamic variable is read back. -/
lemma ReadsBack.dynamicVariable (v : DynamicVariable) :
    ReadsBack arrange Variable.ofDocument? Variable.document (.dynamic v) := by
  have hNames : v.table.names.Nodup :=
    show ["kind", "id", "version", "description", "labels", "resolvers", "type", "format"].Nodup
    by decide
  refine .object h hNames (by simp [Variable.document, DynamicVariable.table])
    fun fields hHolds => ?_
  have hKind : kindOf? fields = some "dynamic" :=
    kindOf?_of_holds h hHolds (by simp [DynamicVariable.table])
  rw [Variable.ofDocument?, hKind]
  refine Option.map_eq_some_iff.2 ⟨v, ?_, rfl⟩
  refine Option.bind_eq_some_iff.2
    ⟨v.metadata, Metadata.ofRecord?_of_holds h hHolds (by simp [DynamicVariable.table]), ?_⟩
  refine Record.bind_required? (a := v.resolvers) hHolds (by simp [DynamicVariable.table])
    (.list h fun slot _ => .slot h fun r _ => .resolver h r) ?_
  refine Record.bind_optional? (a := v.type) hHolds (by simp [DynamicVariable.table])
    (fun type _ => .word h type) ?_
  refine Record.bind_optional? (a := v.format) hHolds (by simp [DynamicVariable.table])
    (fun format _ => .string h format) ?_
  rfl

include h in
lemma ReadsBack.variable {v : Variable} (hv : v.Meets (documentable arrange)) :
    ReadsBack arrange Variable.ofDocument? Variable.document v := by
  cases v with
  | static v => exact staticVariable h hv
  | dynamic v => exact dynamicVariable h v

include h in
lemma ReadsBack.variableSlot {slot : Slot Variable}
    (hSlot : slot.Meets (documentable arrange) (Variable.Meets (documentable arrange))) :
    ReadsBack arrange (Slot.ofDocument? Variable.ofDocument?) (Slot.document Variable.document)
      slot := by
  refine .slot h fun v hv => .variable h ?_
  rwa [hv] at hSlot

end PolicyText
