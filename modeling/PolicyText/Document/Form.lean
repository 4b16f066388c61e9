import PolicyText.Json.Basic
import PolicyText.Model.Policy

/-!
# Documents

Every entity has a document form, a JSON value.  A field without a value is left out, and so is an
empty list of actions.  The fields of the metadata stand among those of the entity; where there are
several kinds of an entity, the first field tells which one it is (`kind`, or `refType` of a
reference).  A slot is an object with exactly one field, `value` or `ref`.

`document` gives the form of every type, and fields are in the order in which they are declared.
-/

namespace PolicyText

/-- A word as a document. -/
def wordDocument {α : Type} [Literal α] (a : α) : Json :=
  .string (Literal.literal a)

/-- The fields of the identity data of an entity. -/
def Metadata.fields (m : Metadata) : List (String × Json) :=
  Json.optionalField "id" .string m.id ++
    Json.optionalField "version" (fun v : Version => .string v.text) m.version ++
    Json.optionalField "description" .string m.description ++
    Json.optionalField "labels" (fun labels : List String => .array (labels.map .string)) m.labels

/-- The identity data as a document of its own. -/
def Metadata.document (m : Metadata) : Json :=
  .object m.fields

/-- The fields of a pointer. -/
def EntityRef.fields (r : EntityRef) : List (String × Json) :=
  ("id", .string r.id) ::
    Json.optionalField "version" (fun v : Version => .string v.text) r.version

/-- The document of a pointer. -/
def EntityRef.document (r : EntityRef) : Json :=
  .object r.fields

/-- The document of a pointer that says what it points at. -/
def Reference.document (r : Reference) : Json :=
  .object (("refType", wordDocument r.kind) :: r.target.fields)

/-- The document of a slot. -/
def Slot.document {α : Type} (entity : α → Json) : Slot α → Json
  | .value a => .object [("value", entity a)]
  | .ref target => .object [("ref", target.document)]

/-- An integer of a range as a document. -/
def Text.Bounded.document {range : Text.IntegerRange} (n : Text.Bounded range) : Json :=
  .int n.value

/-! ## Variables -/

/-- The document of a period. -/
def Period.document (p : Period) : Json :=
  .object
    [("years", p.years.document), ("months", p.months.document), ("days", p.days.document)]

/-- A number as a document; infinity has none of its own and is written as the null value. -/
def numberDocument {format : BinaryFormat} (write : Binary format → JsonNumber)
    (x : Binary format) : Json :=
  if x.isFinite then .number (write x) else .null

/-- The document of a static value without its type. -/
def StaticValue.content : StaticValue → Json
  | .string s => .string s
  | .date d => .string (String.ofList d.text)
  | .dateTime dt => .string (String.ofList dt.text)
  | .time t => .string (String.ofList t.text)
  | .period p => p.document
  | .duration d => .string (String.ofList d.text)
  | .int n => n.document
  | .long n => n.document
  | .number x => numberDocument .double x
  | .float x => numberDocument .single x
  | .bigDecimal d => .string (String.ofList d.text)
  | .boolean b => .bool b
  | .object fields => .object fields
  | .array items => .array items

/-- The document of a static value. -/
def StaticValue.document (v : StaticValue) : Json :=
  .object [("type", wordDocument v.type), ("value", v.content)]

/-- The document of a resolver. -/
def Resolver.document (r : Resolver) : Json :=
  .object
    (r.metadata.fields ++
      [("engine", wordDocument r.engine), ("expression", .string r.expression)] ++
      Json.optionalField "source" wordDocument r.source ++
      Json.optionalField "key" .string r.key)

/-- The document of a variable. -/
def Variable.document : Variable → Json
  | .static v =>
    .object
      (("kind", .string "static") :: v.metadata.fields ++ ("value", v.value.document) ::
        Json.optionalField "format" .string v.format ++
        Json.optionalField "is_json" .bool v.isJson)
  | .dynamic v =>
    .object
      (("kind", .string "dynamic") :: v.metadata.fields ++
        ("resolvers", .array (v.resolvers.map (Slot.document Resolver.document))) ::
        Json.optionalField "type" wordDocument v.type ++
        Json.optionalField "format" .string v.format)

/-! ## Conditions -/

/-- The document of an atomic condition. -/
def AtomicCondition.document (c : AtomicCondition) : Json :=
  .object
    (("kind", .string "atomic") :: c.metadata.fields ++
      [("operation", wordDocument c.operation),
        ("args", .array (c.args.map (Slot.document Variable.document)))] ++
      Json.optionalField "negate_result" .bool c.negateResult ++
      Json.optionalField "string_ignore_case" .bool c.stringIgnoreCase ++
      Json.optionalField "fields_strict_check" .bool c.fieldsStrictCheck ++
      Json.optionalField "array_order_strict_check" .bool c.arrayOrderStrictCheck)

/-- The fields of the settings of a combination of conditions. -/
def CompositeSettings.fields (s : CompositeSettings) : List (String × Json) :=
  Json.optionalField "minimum_conditions" Text.Bounded.document s.minimumConditions ++
    Json.optionalField "optimize" .bool s.optimize ++
    Json.optionalField "negate_result" .bool s.negateResult ++
    Json.optionalField "strict_check" .bool s.strictCheck

mutual

/-- The document of a condition. -/
def Condition.document : Condition → Json
  | .atomic c => c.document
  | .composite metadata logic conditions settings =>
    .object
      (("kind", .string "composite") :: metadata.fields ++
        [("logic", wordDocument logic), ("conditions", .array (conditionDocuments conditions))] ++
        settings.fields)
  | .constant value => .object [("kind", .string "default"), ("value", wordDocument value)]

/-- The documents of a list of slots for conditions. -/
def conditionDocuments : List (Slot Condition) → List Json
  | [] => []
  | .value condition :: rest =>
    .object [("value", condition.document)] :: conditionDocuments rest
  | .ref target :: rest => .object [("ref", target.document)] :: conditionDocuments rest

end

theorem conditionDocuments_eq_map (slots : List (Slot Condition)) :
    conditionDocuments slots = slots.map (Slot.document Condition.document) := by
  induction slots with
  | nil => simp [conditionDocuments]
  | cons slot rest ih => cases slot <;> simp [conditionDocuments, Slot.document, ih]

/-- The field of a constraint. -/
def constraintField (constraint : Option (Slot Condition)) : List (String × Json) :=
  Json.optionalField "constraint" (Slot.document Condition.document) constraint

/-! ## Actions -/

/-- The fields of an effect. -/
def Effect.fields (effect : Effect) : List (String × Json) :=
  ("type", wordDocument effect.type) ::
    match effect with
    | .save value failOnExistingKey =>
      ("value", value.document Variable.document) ::
        Json.optionalField "fail_on_existing_key" .bool failOnExistingKey
    | .clear failOnMissingKey =>
      Json.optionalField "fail_on_missing_key" .bool failOnMissingKey
    | .patch source change castNullSourceToArray failOnMissingKey failOnNullSource =>
      ("source", source.document Variable.document) ::
        ("patch", change.document Variable.document) ::
        Json.optionalField "cast_null_source_to_array" .bool castNullSourceToArray ++
        Json.optionalField "fail_on_missing_key" .bool failOnMissingKey ++
        Json.optionalField "fail_on_null_source" .bool failOnNullSource
    | .merge source other failOnMissingKey failOnExistingKey failOnNullSource failOnNullMerge =>
      ("source", source.document Variable.document) ::
        ("merge", other.document Variable.document) ::
        Json.optionalField "fail_on_missing_key" .bool failOnMissingKey ++
        Json.optionalField "fail_on_existing_key" .bool failOnExistingKey ++
        Json.optionalField "fail_on_null_source" .bool failOnNullSource ++
        Json.optionalField "fail_on_null_merge" .bool failOnNullMerge

/-- The document of an action. -/
def Action.document (a : Action) : Json :=
  .object (a.metadata.fields ++ ("key", .string a.key) :: a.effect.fields)

/-! ## Policies -/

/-- The document of a set of execution modes. -/
def ExecutionModes.document (modes : ExecutionModes) : Json :=
  .array (modes.toList.map wordDocument)

/-- The document of the part that an action has in a policy. -/
def ActionLink.document (link : ActionLink) : Json :=
  .object
    (("action", link.action.document Action.document) :: constraintField link.constraint ++
      Json.optionalField "execution_mode" ExecutionModes.document link.executionMode ++
      Json.optionalField "priority" Text.Bounded.document link.priority)

/-- The field of the actions, which is left out where there are none. -/
def actionsField (actions : List ActionLink) : List (String × Json) :=
  if actions.isEmpty then [] else [("actions", .array (actions.map ActionLink.document))]

/-- The document of a basic policy. -/
def BasicPolicy.document (p : BasicPolicy) : Json :=
  .object
    (("kind", .string "policy") :: p.metadata.fields ++
      [("target_effect", wordDocument p.targetEffect),
        ("condition", p.condition.document Condition.document)] ++
      constraintField p.constraint ++ actionsField p.actions ++
      Json.optionalField "strict_target_effect" .bool p.strictTargetEffect ++
      Json.optionalField "lenient_constraints" .bool p.lenientConstraints ++
      Json.optionalField "action_execution_strategy" wordDocument p.actionExecutionStrategy ++
      Json.optionalField "ignore_errors" .bool p.ignoreErrors ++
      Json.optionalField "skip_cache" .bool p.skipCache)

/-- The fields of what is said about a set besides its members. -/
def SetSettings.fields (s : SetSettings) : List (String × Json) :=
  constraintField s.constraint ++ actionsField s.actions ++
    Json.optionalField "lenient_constraints" .bool s.lenientConstraints ++
    Json.optionalField "action_execution_strategy" wordDocument s.actionExecutionStrategy ++
    Json.optionalField "ignore_errors" .bool s.ignoreErrors ++
    Json.optionalField "skip_cache" .bool s.skipCache ++
    Json.optionalField "run_child_actions" .bool s.runChildActions ++
    Json.optionalField "indeterminate_on_action_fail" .bool s.indeterminateOnActionFail ++
    Json.optionalField "strict_unless_logic" .bool s.strictUnlessLogic

/-- The document of the part that a policy has in a set, given that of the policy. -/
def memberDocument (policy : Json) (constraint : Option (Slot Condition))
    (runAction : Option Bool) (priority : Option Text.Integer32) : Json :=
  .object
    (("policy", policy) :: constraintField constraint ++
      Json.optionalField "run_action" .bool runAction ++
      Json.optionalField "priority" Text.Bounded.document priority)

mutual

/-- The document of a policy. -/
def Policy.document : Policy → Json
  | .basic policy => policy.document
  | .set metadata logic members settings =>
    .object
      (("kind", .string "set") :: metadata.fields ++
        [("logic", wordDocument logic), ("policies", .array (memberDocuments members))] ++
        settings.fields)
  | .default decision => .object [("kind", .string "default"), ("value", wordDocument decision)]

/-- The documents of the members of a set. -/
def memberDocuments : List (Member Policy) → List Json
  | [] => []
  | ⟨.value policy, constraint, runAction, priority⟩ :: rest =>
    memberDocument (.object [("value", policy.document)]) constraint runAction priority ::
      memberDocuments rest
  | ⟨.ref target, constraint, runAction, priority⟩ :: rest =>
    memberDocument (.object [("ref", target.document)]) constraint runAction priority ::
      memberDocuments rest

end

/-- The document of a member of a set. -/
def Member.document (m : Member Policy) : Json :=
  memberDocument (m.policy.document Policy.document) m.constraint m.runAction m.priority

theorem memberDocuments_eq_map (members : List (Member Policy)) :
    memberDocuments members = members.map Member.document := by
  induction members with
  | nil => simp [memberDocuments]
  | cons member rest ih =>
    rcases member with ⟨_ | _, _, _, _⟩ <;>
      simp [memberDocuments, Member.document, Slot.document, ih]

end PolicyText
