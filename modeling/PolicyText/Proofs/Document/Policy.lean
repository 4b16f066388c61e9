import PolicyText.Proofs.Document.Condition

/-!
# Documents of actions and policies

The fields of an effect stand among those of the action (`Effect.ofRecord?_of_holds`), so that the
names of both are in one table; the same is true of a policy and what is said about the actions in
it.  A policy of any depth is read back by induction on the policy (`ReadsBack.policy`), with the
members of a set in between (`members?_documents`).
-/

namespace PolicyText

open Json

variable {arrange : Json → Json} (h : Arrangement arrange)

/-! ## Actions -/

/-- The fields of an effect. -/
def Effect.table (effect : Effect) : Table :=
  ("type", some (wordDocument effect.type)) ::
    match effect with
    | .save value failOnExistingKey =>
      [("value", some (value.document Variable.document)),
        ("fail_on_existing_key", failOnExistingKey.map .bool)]
    | .clear failOnMissingKey => [("fail_on_missing_key", failOnMissingKey.map .bool)]
    | .patch source change castNullSourceToArray failOnMissingKey failOnNullSource =>
      [("source", some (source.document Variable.document)),
        ("patch", some (change.document Variable.document)),
        ("cast_null_source_to_array", castNullSourceToArray.map .bool),
        ("fail_on_missing_key", failOnMissingKey.map .bool),
        ("fail_on_null_source", failOnNullSource.map .bool)]
    | .merge source other failOnMissingKey failOnExistingKey failOnNullSource failOnNullMerge =>
      [("source", some (source.document Variable.document)),
        ("merge", some (other.document Variable.document)),
        ("fail_on_missing_key", failOnMissingKey.map .bool),
        ("fail_on_existing_key", failOnExistingKey.map .bool),
        ("fail_on_null_source", failOnNullSource.map .bool),
        ("fail_on_null_merge", failOnNullMerge.map .bool)]

@[simp] lemma Effect.fields_eq (effect : Effect) : effect.fields = effect.table.present := by
  cases effect <;> simp [fields, table]

include h in
/-- An effect is read from the fields of an object that has other fields besides. -/
lemma Effect.ofRecord?_of_holds {effect : Effect} {table : Table} {fields : List (String × Json)}
    (hHolds : table.Holds arrange fields) (hTable : effect.table ⊆ table)
    (hOperands : ∀ slot ∈ effect.operands,
      slot.Meets (documentable arrange) (Variable.Meets (documentable arrange))) :
    ofRecord? (.named fields) effect.type = some effect := by
  replace hHolds : effect.table.Holds arrange fields :=
    fun entry hEntry => hHolds entry (hTable hEntry)
  cases effect with
  | save value failOnExistingKey =>
    refine Record.bind_required? (a := value) hHolds (by simp [Effect.table])
      (.variableSlot h (hOperands _ (by simp [operands]))) ?_
    refine Record.bind_flag? (b := failOnExistingKey) h hHolds (by simp [Effect.table]) ?_
    rfl
  | clear failOnMissingKey =>
    refine Record.bind_flag? (b := failOnMissingKey) h hHolds (by simp [Effect.table]) ?_
    rfl
  | patch source change castNullSourceToArray failOnMissingKey failOnNullSource =>
    refine Record.bind_required? (a := source) hHolds (by simp [Effect.table])
      (.variableSlot h (hOperands _ (by simp [operands]))) ?_
    refine Record.bind_required? (a := change) hHolds (by simp [Effect.table])
      (.variableSlot h (hOperands _ (by simp [operands]))) ?_
    refine Record.bind_flag? (b := castNullSourceToArray) h hHolds (by simp [Effect.table]) ?_
    refine Record.bind_flag? (b := failOnMissingKey) h hHolds (by simp [Effect.table]) ?_
    refine Record.bind_flag? (b := failOnNullSource) h hHolds (by simp [Effect.table]) ?_
    rfl
  | merge source other failOnMissingKey failOnExistingKey failOnNullSource failOnNullMerge =>
    refine Record.bind_required? (a := source) hHolds (by simp [Effect.table])
      (.variableSlot h (hOperands _ (by simp [operands]))) ?_
    refine Record.bind_required? (a := other) hHolds (by simp [Effect.table])
      (.variableSlot h (hOperands _ (by simp [operands]))) ?_
    refine Record.bind_flag? (b := failOnMissingKey) h hHolds (by simp [Effect.table]) ?_
    refine Record.bind_flag? (b := failOnExistingKey) h hHolds (by simp [Effect.table]) ?_
    refine Record.bind_flag? (b := failOnNullSource) h hHolds (by simp [Effect.table]) ?_
    refine Record.bind_flag? (b := failOnNullMerge) h hHolds (by simp [Effect.table]) ?_
    rfl

/-- The fields of an action. -/
def Action.table (a : Action) : Table :=
  a.metadata.table ++ ("key", some (.string a.key)) :: a.effect.table

lemma Action.nodup_names (a : Action) : a.table.names.Nodup := by
  obtain ⟨metadata, key, effect⟩ := a
  cases effect with
  | save =>
    exact show ["id", "version", "description", "labels", "key", "type", "value",
      "fail_on_existing_key"].Nodup by decide
  | clear =>
    exact show ["id", "version", "description", "labels", "key", "type",
      "fail_on_missing_key"].Nodup by decide
  | patch =>
    exact show ["id", "version", "description", "labels", "key", "type", "source", "patch",
      "cast_null_source_to_array", "fail_on_missing_key", "fail_on_null_source"].Nodup by decide
  | merge =>
    exact show ["id", "version", "description", "labels", "key", "type", "source", "merge",
      "fail_on_missing_key", "fail_on_existing_key", "fail_on_null_source",
      "fail_on_null_merge"].Nodup by decide

include h in
lemma ReadsBack.action {a : Action} (ha : a.Meets (documentable arrange)) :
    ReadsBack arrange Action.ofDocument? Action.document a := by
  refine .object h a.nodup_names (by simp [Action.document, Action.table]) fun fields hHolds => ?_
  refine Option.bind_eq_some_iff.2
    ⟨a.metadata, Metadata.ofRecord?_of_holds h hHolds (by simp [Action.table]), ?_⟩
  refine Record.bind_required? (a := a.key) hHolds (by simp [Action.table]) (.string h _) ?_
  have hType : (Record.named fields).required? 0 "type" Json.string?
      = some (Literal.literal a.effect.type) :=
    Record.required?_of_holds hHolds (by simp [Action.table, Effect.table, wordDocument])
      (.string h _)
  refine Option.bind_eq_some_iff.2
    ⟨a.effect.type, Option.bind_eq_some_iff.2 ⟨_, hType, Literal.ofLiteral?_literal _⟩, ?_⟩
  refine Option.bind_eq_some_iff.2
    ⟨a.effect, Effect.ofRecord?_of_holds h hHolds (by simp [Action.table]) ha.2.2, ?_⟩
  rfl

/-! ## Actions of policies -/

include h in
lemma constraintOf?_of_holds {table : Table} {fields : List (String × Json)} {place : Nat}
    {constraint : Option (Slot Condition)} (hHolds : table.Holds arrange fields)
    (hField : ("constraint", constraint.map (Slot.document Condition.document)) ∈ table)
    (hConstraint : ConstraintMeets (documentable arrange) constraint) :
    constraintOf? place (.named fields) = some constraint :=
  Record.optional?_of_holds hHolds hField fun slot hSlot =>
    .conditionSlot h (hConstraint slot hSlot)

include h in
lemma ReadsBack.executionModes (modes : ExecutionModes) :
    ReadsBack arrange ExecutionModes.ofDocument? ExecutionModes.document modes := by
  have hList : ReadsBack arrange (Json.list? Json.literal?)
      (fun modes : List ExecutionMode => .array (modes.map wordDocument)) modes.toList :=
    .list h fun mode _ => .word h mode
  refine ⟨?_, hList.ne_null⟩
  rw [ExecutionModes.ofDocument?]
  exact Option.map_eq_some_iff.2 ⟨modes.toList, hList.read, modes.ofList_toList⟩

/-- The fields of the part that an action has in a policy. -/
def ActionLink.table (link : ActionLink) : Table :=
  [("action", some (link.action.document Action.document)),
    ("constraint", link.constraint.map (Slot.document Condition.document)),
    ("execution_mode", link.executionMode.map ExecutionModes.document),
    ("priority", link.priority.map Text.Bounded.document)]

include h in
lemma ReadsBack.actionLink {link : ActionLink} (hLink : link.Meets (documentable arrange)) :
    ReadsBack arrange ActionLink.ofDocument? ActionLink.document link := by
  have hNames : link.table.names.Nodup :=
    show ["action", "constraint", "execution_mode", "priority"].Nodup by decide
  obtain ⟨-, hAction, hConstraint⟩ := hLink
  refine .object h hNames (by simp [ActionLink.document, ActionLink.table, constraintField])
    fun fields hHolds => ?_
  refine Record.bind_required? (a := link.action) hHolds (by simp [ActionLink.table])
    (.slot h fun a ha => .action h ?_) ?_
  · rwa [ha] at hAction
  refine Option.bind_eq_some_iff.2 ⟨link.constraint,
    constraintOf?_of_holds h hHolds (by simp [ActionLink.table]) hConstraint, ?_⟩
  refine Record.bind_optional? (a := link.executionMode) hHolds (by simp [ActionLink.table])
    (fun modes _ => .executionModes h modes) ?_
  refine Record.bind_optional? (a := link.priority) hHolds (by simp [ActionLink.table])
    (fun n _ => .integer h n) ?_
  rfl

/-- The value of the field of the actions of a policy. -/
def actionsValue (actions : List ActionLink) : Option Json :=
  if actions.isEmpty then none else some (.array (actions.map ActionLink.document))

@[simp] lemma present_cons_actions (actions : List ActionLink) (table : Table) :
    Table.present (("actions", actionsValue actions) :: table)
      = actionsField actions ++ table.present := by
  cases actions <;> rfl

include h in
lemma actionsOf?_of_holds {table : Table} {fields : List (String × Json)}
    {actions : List ActionLink} (hHolds : table.Holds arrange fields)
    (hField : ("actions", actionsValue actions) ∈ table)
    (hActions : ∀ link ∈ actions, link.Meets (documentable arrange)) :
    actionsOf? (.named fields) = some actions := by
  have hLookup : fields.lookup "actions" = (actionsValue actions).map arrange := hHolds _ hField
  have hRead := ReadsBack.list h fun link hLink => .actionLink h (hActions link hLink)
  rw [actionsOf?, Record.value?, hLookup]
  cases actions with
  | nil => rfl
  | cons link rest => exact hRead.read

/-! ## Basic policies -/

/-- The fields of a basic policy. -/
def BasicPolicy.table (p : BasicPolicy) : Table :=
  ("kind", some (.string "policy")) :: p.metadata.table ++
    [("target_effect", some (wordDocument p.targetEffect)),
      ("condition", some (p.condition.document Condition.document)),
      ("constraint", p.constraint.map (Slot.document Condition.document)),
      ("actions", actionsValue p.actions), ("strict_target_effect", p.strictTargetEffect.map .bool),
      ("lenient_constraints", p.lenientConstraints.map .bool),
      ("action_execution_strategy", p.actionExecutionStrategy.map wordDocument),
      ("ignore_errors", p.ignoreErrors.map .bool), ("skip_cache", p.skipCache.map .bool)]

include h in
/-- A basic policy is read back. -/
lemma ReadsBack.basicPolicy {p : BasicPolicy} (hp : p.Meets (documentable arrange)) :
    ReadsBack arrange Policy.ofDocument? Policy.document (.basic p) := by
  have hNames : p.table.names.Nodup :=
    show ["kind", "id", "version", "description", "labels", "target_effect", "condition",
      "constraint", "actions", "strict_target_effect", "lenient_constraints",
      "action_execution_strategy", "ignore_errors", "skip_cache"].Nodup by decide
  obtain ⟨-, hCondition, hConstraint, hActions⟩ := hp
  refine .object h hNames
    (by simp [Policy.document, BasicPolicy.document, BasicPolicy.table, constraintField])
    fun fields hHolds => ?_
  have hKind : kindOf? fields = some "policy" :=
    kindOf?_of_holds h hHolds (by simp [BasicPolicy.table])
  rw [Policy.ofDocument?, hKind]
  refine Option.map_eq_some_iff.2 ⟨p, ?_, rfl⟩
  refine Option.bind_eq_some_iff.2
    ⟨p.metadata, Metadata.ofRecord?_of_holds h hHolds (by simp [BasicPolicy.table]), ?_⟩
  refine Record.bind_required? (a := p.targetEffect) hHolds (by simp [BasicPolicy.table])
    (.word h _) ?_
  refine Record.bind_required? (a := p.condition) hHolds (by simp [BasicPolicy.table])
    (.conditionSlot h hCondition) ?_
  refine Option.bind_eq_some_iff.2 ⟨p.constraint,
    constraintOf?_of_holds h hHolds (by simp [BasicPolicy.table]) hConstraint, ?_⟩
  refine Option.bind_eq_some_iff.2 ⟨p.actions,
    actionsOf?_of_holds h hHolds (by simp [BasicPolicy.table]) hActions, ?_⟩
  refine Record.bind_flag? (b := p.strictTargetEffect) h hHolds (by simp [BasicPolicy.table]) ?_
  refine Record.bind_flag? (b := p.lenientConstraints) h hHolds (by simp [BasicPolicy.table]) ?_
  refine Record.bind_optional? (a := p.actionExecutionStrategy) hHolds
    (by simp [BasicPolicy.table]) (fun strategy _ => .word h strategy) ?_
  refine Record.bind_flag? (b := p.ignoreErrors) h hHolds (by simp [BasicPolicy.table]) ?_
  refine Record.bind_flag? (b := p.skipCache) h hHolds (by simp [BasicPolicy.table]) ?_
  rfl

/-! ## Sets of policies -/

/-- The fields of a member of a set. -/
def Member.table (m : Member Policy) : Table :=
  [("policy", some (m.policy.document Policy.document)),
    ("constraint", m.constraint.map (Slot.document Condition.document)),
    ("run_action", m.runAction.map .bool), ("priority", m.priority.map Text.Bounded.document)]

include h in
/-- A member of a set is read back if the policy is. -/
lemma ReadsBack.member {m : Member Policy}
    (hPolicy : ∀ p, m.policy = .value p → ReadsBack arrange Policy.ofDocument? Policy.document p)
    (hConstraint : ConstraintMeets (documentable arrange) m.constraint) :
    ReadsBack arrange Member.ofDocument? Member.document m := by
  have hNames : m.table.names.Nodup :=
    show ["policy", "constraint", "run_action", "priority"].Nodup by decide
  refine .object h hNames
    (by simp [Member.document, memberDocument, Member.table, constraintField])
    fun fields hHolds => ?_
  obtain ⟨name, content, hObject, hSlot⟩ := exists_slot_field h hPolicy
  have hLookup : fields.lookup "policy" = some (.object [(name, content)]) := by
    rw [← hObject]
    exact hHolds ("policy", some (m.policy.document Policy.document)) (by simp [Member.table])
  have hRead : memberOfRecord? (.named fields) m.policy = some m := by
    refine Option.bind_eq_some_iff.2 ⟨m.constraint,
      constraintOf?_of_holds h hHolds (by simp [Member.table]) hConstraint, ?_⟩
    refine Record.bind_flag? (b := m.runAction) h hHolds (by simp [Member.table]) ?_
    refine Record.bind_optional? (a := m.priority) hHolds (by simp [Member.table])
      (fun n _ => .integer h n) ?_
    rfl
  rw [Member.ofDocument?]
  -- the reader keeps the equations of what it reads, to see that the policy inside is smaller
  split
  · rename_i hNone
    cases hNone
  rename_i record hRecord
  cases hRecord
  split
  · rename_i hValue
    cases hLookup.symm.trans hValue
    obtain ⟨rfl, hSlot⟩ | ⟨rfl, hSlot⟩ := hSlot
    · rw [if_pos rfl, hSlot]
      exact hRead
    · rw [if_neg (by decide), if_pos rfl, hSlot]
      exact hRead
  · rename_i hNone
    exact absurd hLookup (hNone _ _)

lemma members?_documents {members : List (Member Policy)}
    (hMembers : ∀ m ∈ members, ReadsBack arrange Member.ofDocument? Member.document m) :
    members? ((memberDocuments members).map arrange) = some members := by
  rw [memberDocuments_eq_map]
  induction members with
  | nil => rw [List.map_nil, List.map_nil, members?]
  | cons m rest ih =>
    obtain ⟨hm, hRest⟩ := List.forall_mem_cons.1 hMembers
    rw [List.map_cons, List.map_cons, members?, hm.read, ih hRest]
    rfl

/-- The fields of what is said about a set besides its members. -/
def SetSettings.table (s : SetSettings) : Table :=
  [("constraint", s.constraint.map (Slot.document Condition.document)),
    ("actions", actionsValue s.actions), ("lenient_constraints", s.lenientConstraints.map .bool),
    ("action_execution_strategy", s.actionExecutionStrategy.map wordDocument),
    ("ignore_errors", s.ignoreErrors.map .bool), ("skip_cache", s.skipCache.map .bool),
    ("run_child_actions", s.runChildActions.map .bool),
    ("indeterminate_on_action_fail", s.indeterminateOnActionFail.map .bool),
    ("strict_unless_logic", s.strictUnlessLogic.map .bool)]

@[simp] lemma SetSettings.fields_eq (s : SetSettings) : s.fields = s.table.present := by
  simp [fields, table, constraintField]

include h in
/-- What is said about a set is read from the fields of an object that has other fields besides. -/
lemma SetSettings.ofRecord?_of_holds {s : SetSettings} {table : Table}
    {fields : List (String × Json)} (hHolds : table.Holds arrange fields)
    (hTable : s.table ⊆ table) (hConstraint : ConstraintMeets (documentable arrange) s.constraint)
    (hActions : ∀ link ∈ s.actions, link.Meets (documentable arrange)) :
    ofRecord? (.named fields) = some s := by
  replace hHolds : s.table.Holds arrange fields :=
    fun entry hEntry => hHolds entry (hTable hEntry)
  refine Option.bind_eq_some_iff.2 ⟨s.constraint,
    constraintOf?_of_holds h hHolds (by simp [SetSettings.table]) hConstraint, ?_⟩
  refine Option.bind_eq_some_iff.2 ⟨s.actions,
    actionsOf?_of_holds h hHolds (by simp [SetSettings.table]) hActions, ?_⟩
  refine Record.bind_flag? (b := s.lenientConstraints) h hHolds (by simp [SetSettings.table]) ?_
  refine Record.bind_optional? (a := s.actionExecutionStrategy) hHolds
    (by simp [SetSettings.table]) (fun strategy _ => .word h strategy) ?_
  refine Record.bind_flag? (b := s.ignoreErrors) h hHolds (by simp [SetSettings.table]) ?_
  refine Record.bind_flag? (b := s.skipCache) h hHolds (by simp [SetSettings.table]) ?_
  refine Record.bind_flag? (b := s.runChildActions) h hHolds (by simp [SetSettings.table]) ?_
  refine Record.bind_flag? (b := s.indeterminateOnActionFail) h hHolds
      (by simp [SetSettings.table]) ?_
  refine Record.bind_flag? (b := s.strictUnlessLogic) h hHolds (by simp [SetSettings.table]) ?_
  rfl

/-- The fields of a set of policies. -/
def setTable (metadata : Metadata) (logic : CombinationLogic) (members : List (Member Policy))
    (settings : SetSettings) : Table :=
  ("kind", some (.string "set")) :: metadata.table ++
    [("logic", some (wordDocument logic)),
      ("policies", some (.array (memberDocuments members)))] ++ settings.table

include h in
/-- A set of policies is read back if its members are. -/
lemma ReadsBack.set (metadata : Metadata) (logic : CombinationLogic)
    {members : List (Member Policy)} {settings : SetSettings}
    (hMembers : ∀ m ∈ members, ReadsBack arrange Member.ofDocument? Member.document m)
    (hConstraint : ConstraintMeets (documentable arrange) settings.constraint)
    (hActions : ∀ link ∈ settings.actions, link.Meets (documentable arrange)) :
    ReadsBack arrange Policy.ofDocument? Policy.document
      (.set metadata logic members settings) := by
  have hNames : (setTable metadata logic members settings).names.Nodup :=
    show ["kind", "id", "version", "description", "labels", "logic", "policies", "constraint",
      "actions", "lenient_constraints", "action_execution_strategy", "ignore_errors", "skip_cache",
      "run_child_actions", "indeterminate_on_action_fail", "strict_unless_logic"].Nodup by decide
  refine .object h hNames (by simp [Policy.document, setTable]) fun fields hHolds => ?_
  have hKind : kindOf? fields = some "set" := kindOf?_of_holds h hHolds (by simp [setTable])
  have hPolicies : fields.lookup "policies"
      = some (.array ((memberDocuments members).map arrange)) := by
    rw [← h.array]
    exact hHolds ("policies", some (.array (memberDocuments members))) (by simp [setTable])
  have hRead : setOfRecord? (.named fields) members
      = some (.set metadata logic members settings) := by
    refine Option.bind_eq_some_iff.2
      ⟨metadata, Metadata.ofRecord?_of_holds h hHolds (by simp [setTable]), ?_⟩
    refine Record.bind_required? (a := logic) hHolds (by simp [setTable]) (.word h _) ?_
    exact Option.bind_eq_some_iff.2 ⟨settings,
      SetSettings.ofRecord?_of_holds h hHolds (List.subset_append_right _ _) hConstraint hActions,
      rfl⟩
  rw [Policy.ofDocument?, hKind]
  simp only
  split
  · rename_i items hItems
    rw [hPolicies] at hItems
    cases hItems
    rw [members?_documents hMembers]
    exact hRead
  · rename_i hNone
    exact absurd hPolicies (hNone _)

/-! ## Policies -/

include h in
lemma ReadsBack.default (decision : DefaultPolicy) :
    ReadsBack arrange Policy.ofDocument? Policy.document (.default decision) := by
  have hNames : (constantTable (wordDocument decision)).names.Nodup :=
    show ["kind", "value"].Nodup by decide
  refine .object h hNames (by simp [Policy.document, constantTable]) fun fields hHolds => ?_
  have hKind : kindOf? fields = some "default" :=
    kindOf?_of_holds h hHolds (by simp [constantTable])
  rw [Policy.ofDocument?, hKind]
  exact Option.map_eq_some_iff.2 ⟨decision,
    Record.required?_of_holds hHolds (by simp [constantTable]) (.word h decision), rfl⟩

include h in
lemma ReadsBack.policy {p : Policy} (hp : p.Meets (documentable arrange)) :
    ReadsBack arrange Policy.ofDocument? Policy.document p := by
  induction hp with
  | basic hBasic => exact basicPolicy h hBasic
  | set hMetadata hSet hValues hReferences hConstraints hConstraint hActions ih =>
    refine set h _ _ (fun m hm => member h (fun p hPolicy => ?_) (hConstraints m hm)) hConstraint
      hActions
    exact ih m hm p hPolicy
  | default decision => exact default h decision

end PolicyText
