import PolicyText.Document.Reader
import PolicyText.Proofs.Binary.Finite
import PolicyText.Proofs.Json.Tree
import PolicyText.Proofs.Model.WellFormed

/-!
# What is read from trees

The documents of a type are many more than those that are written for its values, and what is read
from them need not be anything that could be read from a text.  But whatever is read from a tree
holds trees where it holds objects and arrays, and finite numbers where it holds numbers of 64 bits
(`StaticValue.FromTree`), at every depth (`fromTree`).  Numbers of 32 bits can be infinite.

There is one lemma for each reader.  Those of conditions and of policies follow the recursion of the
readers.
-/

namespace PolicyText

/-! ## Static values -/

/-- A value is one that can be read from a tree: a number of 64 bits is finite, and an object or an
array is a tree. -/
def StaticValue.FromTree : StaticValue → Prop
  | .number x => x.isFinite = true
  | .object fields => (Json.object fields).ordered = .object fields
  | .array items => (Json.array items).ordered = .array items
  | _ => True

/-- What is demanded of an entity that has been read from a tree. -/
def fromTree : Demands where
  staticVariable v := v.value.FromTree

lemma readsOnly_double? : ReadsOnly double? fun x => x.isFinite = true := by
  intro d x hTree hRead
  cases hTree with
  | @number n hNumber =>
    cases n with
    | integer n =>
      cases hRead
      obtain ⟨hLeast, hMost⟩ := hNumber
      exact Binary.isFinite_ofInt_double (by omega)
    | double y =>
      cases hRead
      exact hNumber
    | single y =>
      cases hRead
      exact Binary.isFinite_convert_double hNumber
  | _ => cases hRead

/-- The content of a static value is read from a tree. -/
lemma StaticValue.fromTree_of_ofContent? {content : Json} {type : ValueType} {v : StaticValue}
    (hTree : content.IsTree) (h : ofContent? content type = some v) : v.FromTree := by
  cases type with
  | number =>
    obtain ⟨x, hx, rfl⟩ := Option.map_eq_some_iff.1 h
    exact readsOnly_double? content x hTree hx
  | object =>
    cases content with
    | object fields =>
      cases h
      exact hTree.ordered_eq
    | _ => cases h
  | array =>
    cases content with
    | array items =>
      cases h
      exact hTree.ordered_eq
    | _ => cases h
  | _ =>
    obtain ⟨x, -, rfl⟩ := Option.map_eq_some_iff.1 h
    trivial

lemma readsOnly_staticValue : ReadsOnly StaticValue.ofDocument? StaticValue.FromTree := by
  intro d v hTree hRead
  obtain ⟨record, hRecord, hRead⟩ := Option.bind_eq_some_iff.1 hRead
  obtain ⟨type, -, hRead⟩ := Option.bind_eq_some_iff.1 hRead
  obtain ⟨content, hContent, hRead⟩ := Option.bind_eq_some_iff.1 hRead
  exact StaticValue.fromTree_of_ofContent?
    ((Record.isTree_of_ofDocument? hTree hRecord).value? hContent) hRead

/-! ## Slots -/

lemma Slot.exists_of_ofDocument? {α : Type} {entity? : Json → Option α} {d : Json} {a : α}
    (hTree : d.IsTree) (hRead : Slot.ofDocument? entity? d = some (.value a)) :
    ∃ content, content.IsTree ∧ sizeOf content < sizeOf d ∧ entity? content = some a := by
  unfold Slot.ofDocument? at hRead
  split at hRead
  · rename_i name content
    refine ⟨content, hTree.field List.mem_cons_self, by simp; omega, ?_⟩
    split at hRead
    · obtain ⟨b, hb, hSame⟩ := Option.map_eq_some_iff.1 hRead
      cases hSame
      exact hb
    · split at hRead
      · obtain ⟨target, -, hSame⟩ := Option.map_eq_some_iff.1 hRead
        cases hSame
      · cases hRead
  · cases hRead

lemma ReadsOnly.slot {α : Type} {entity? : Json → Option α} {property : α → Prop}
    (h : ReadsOnly entity? property) :
    ReadsOnly (Slot.ofDocument? entity?) fun slot => slot.Meets fromTree property := by
  rintro d (a | target) hTree hRead
  · obtain ⟨content, hContent, -, ha⟩ := Slot.exists_of_ofDocument? hTree hRead
    exact h content a hContent ha
  · trivial

/-! ## Variables -/

lemma readsOnly_resolver : ReadsOnly Resolver.ofDocument? (Resolver.Meets fromTree) :=
  fun _ _ _ _ => ⟨trivial, trivial⟩

lemma StaticVariable.meets_of_ofRecord? {record : Record} {v : StaticVariable}
    (hTree : record.IsTree) (h : ofRecord? record = some v) : v.Meets fromTree := by
  obtain ⟨metadata, -, h⟩ := Option.bind_eq_some_iff.1 h
  obtain ⟨value, hValue, h⟩ := Option.bind_eq_some_iff.1 h
  obtain ⟨format, -, h⟩ := Option.bind_eq_some_iff.1 h
  obtain ⟨isJson, -, h⟩ := Option.bind_eq_some_iff.1 h
  cases h
  exact ⟨trivial, hTree.required? readsOnly_staticValue hValue⟩

lemma DynamicVariable.meets_of_ofRecord? {record : Record} {v : DynamicVariable}
    (hTree : record.IsTree) (h : ofRecord? record = some v) : v.Meets fromTree := by
  obtain ⟨metadata, -, h⟩ := Option.bind_eq_some_iff.1 h
  obtain ⟨resolvers, hResolvers, h⟩ := Option.bind_eq_some_iff.1 h
  obtain ⟨type, -, h⟩ := Option.bind_eq_some_iff.1 h
  obtain ⟨format, -, h⟩ := Option.bind_eq_some_iff.1 h
  cases h
  exact ⟨trivial, trivial, hTree.required? readsOnly_resolver.slot.list hResolvers⟩

lemma readsOnly_variable : ReadsOnly Variable.ofDocument? (Variable.Meets fromTree) := by
  intro d v hTree hRead
  unfold Variable.ofDocument? at hRead
  split at hRead
  · rename_i fields
    have hRecord : (Record.named fields).IsTree := Record.isTree_named hTree
    split at hRead
    · obtain ⟨v, hv, rfl⟩ := Option.map_eq_some_iff.1 hRead
      exact StaticVariable.meets_of_ofRecord? hRecord hv
    · obtain ⟨v, hv, rfl⟩ := Option.map_eq_some_iff.1 hRead
      exact DynamicVariable.meets_of_ofRecord? hRecord hv
    · cases hRead
  · cases hRead

/-! ## Conditions -/

lemma AtomicCondition.meets_of_ofRecord? {record : Record} {c : AtomicCondition}
    (hTree : record.IsTree) (h : ofRecord? record = some c) : c.Meets fromTree := by
  obtain ⟨metadata, -, h⟩ := Option.bind_eq_some_iff.1 h
  obtain ⟨operation, -, h⟩ := Option.bind_eq_some_iff.1 h
  obtain ⟨args, hArgs, h⟩ := Option.bind_eq_some_iff.1 h
  obtain ⟨negateResult, -, h⟩ := Option.bind_eq_some_iff.1 h
  obtain ⟨stringIgnoreCase, -, h⟩ := Option.bind_eq_some_iff.1 h
  obtain ⟨fieldsStrictCheck, -, h⟩ := Option.bind_eq_some_iff.1 h
  obtain ⟨arrayOrderStrictCheck, -, h⟩ := Option.bind_eq_some_iff.1 h
  cases h
  exact ⟨trivial, trivial, hTree.required? readsOnly_variable.slot.list hArgs⟩

lemma Condition.meets_of_compositeOfRecord? {record : Record} {conditions : List (Slot Condition)}
    {c : Condition} (hConditions : ∀ c, .value c ∈ conditions → c.Meets fromTree)
    (h : compositeOfRecord? record conditions = some c) : c.Meets fromTree := by
  obtain ⟨metadata, -, h⟩ := Option.bind_eq_some_iff.1 h
  obtain ⟨logic, -, h⟩ := Option.bind_eq_some_iff.1 h
  obtain ⟨settings, -, h⟩ := Option.bind_eq_some_iff.1 h
  cases h
  exact .composite trivial trivial hConditions fun _ _ => trivial

/-- The slots of a list are read one after the other. -/
lemma conditionSlots?_cons (document : Json) (rest : List Json) :
    conditionSlots? (document :: rest) = (do
      let slot ← Slot.ofDocument? Condition.ofDocument? document
      let slots ← conditionSlots? rest
      some (slot :: slots)) := by
  unfold Slot.ofDocument?
  split
  · rw [conditionSlots?]
    split
    · rfl
    · split <;> rfl
  · rename_i hOther
    unfold conditionSlots?
    split
    · rename_i hEq
      cases hEq
    · rename_i hEq
      cases hEq
      exact absurd rfl (hOther _ _)
    · rfl

mutual

/-- A condition is read from a tree. -/
lemma Condition.meets_of_ofDocument? (d : Json) {c : Condition} (hTree : d.IsTree)
    (h : Condition.ofDocument? d = some c) : c.Meets fromTree := by
  match d with
  | .object fields =>
    have hRecord : (Record.named fields).IsTree := Record.isTree_named hTree
    unfold Condition.ofDocument? at h
    split at h
    · obtain ⟨c, hc, rfl⟩ := Option.map_eq_some_iff.1 h
      exact .atomic (AtomicCondition.meets_of_ofRecord? hRecord hc)
    · split at h
      · rename_i items hItems
        obtain ⟨slots, hSlots, h⟩ := Option.bind_eq_some_iff.1 h
        have hTrees : (Json.array items).IsTree := hRecord _ (List.mem_of_lookup hItems)
        exact meets_of_compositeOfRecord? (meets_of_conditionSlots? items hTrees hSlots) h
      · cases h
    · obtain ⟨constant, -, rfl⟩ := Option.map_eq_some_iff.1 h
      exact .constant constant
    · cases h
  | .array items =>
    unfold Condition.ofDocument? at h
    split at h
    · rename_i hEq
      cases hEq
    · obtain ⟨constant, -, rfl⟩ := Option.map_eq_some_iff.1 h
      exact .constant constant
    · cases h
  | .null | .bool _ | .number _ | .string _ =>
    unfold Condition.ofDocument? at h
    cases h
termination_by sizeOf d
decreasing_by
  have := sizeOf_lookup_lt ‹_›
  simp at this ⊢
  omega

/-- The conditions in a list of slots are read from a tree. -/
lemma Condition.meets_of_conditionSlots? (items : List Json) {slots : List (Slot Condition)}
    (hTree : (Json.array items).IsTree) (h : conditionSlots? items = some slots) :
    ∀ c, .value c ∈ slots → c.Meets fromTree := by
  match items with
  | [] =>
    rw [conditionSlots?] at h
    cases h
    rintro c ⟨⟩
  | document :: rest =>
    obtain ⟨hDocument, hRest⟩ := hTree.cons
    rw [conditionSlots?_cons] at h
    obtain ⟨slot, hSlot, h⟩ := Option.bind_eq_some_iff.1 h
    obtain ⟨others, hOthers, h⟩ := Option.bind_eq_some_iff.1 h
    cases h
    rintro c hMem
    obtain rfl | hMem := List.mem_cons.1 hMem
    · obtain ⟨content, hContent, hSmaller, hc⟩ := Slot.exists_of_ofDocument? hDocument hSlot
      exact meets_of_ofDocument? content hContent hc
    · exact meets_of_conditionSlots? rest hRest hOthers c hMem
termination_by sizeOf items
decreasing_by
  · simp
    omega
  · simp

end

lemma readsOnly_condition : ReadsOnly Condition.ofDocument? (Condition.Meets fromTree) :=
  fun d _ hTree hRead => Condition.meets_of_ofDocument? d hTree hRead

lemma constraintMeets_of_constraintOf? {record : Record} {place : Nat}
    {constraint : Option (Slot Condition)} (hTree : record.IsTree)
    (h : constraintOf? place record = some constraint) : ConstraintMeets fromTree constraint :=
  hTree.optional? readsOnly_condition.slot h

/-! ## Actions -/

lemma meets_of_operand? {record : Record} {name : String} {slot : Slot Variable}
    (hTree : record.IsTree) (h : operand? name record = some slot) :
    slot.Meets fromTree (Variable.Meets fromTree) :=
  hTree.required? readsOnly_variable.slot h

/-- The operands of an effect are read from a tree. -/
lemma Effect.meets_of_ofRecord? {record : Record} {type : ActionType} {effect : Effect}
    (hTree : record.IsTree) (h : ofRecord? record type = some effect) :
    ∀ slot ∈ effect.operands, slot.Meets fromTree (Variable.Meets fromTree) := by
  cases type with
  | save =>
    obtain ⟨value, hValue, h⟩ := Option.bind_eq_some_iff.1 h
    obtain ⟨failOnExistingKey, -, h⟩ := Option.bind_eq_some_iff.1 h
    cases h
    exact List.forall_mem_singleton.2 (meets_of_operand? hTree hValue)
  | clear =>
    obtain ⟨failOnMissingKey, -, h⟩ := Option.bind_eq_some_iff.1 h
    cases h
    exact List.forall_mem_nil _
  | patch =>
    obtain ⟨source, hSource, h⟩ := Option.bind_eq_some_iff.1 h
    obtain ⟨change, hChange, h⟩ := Option.bind_eq_some_iff.1 h
    obtain ⟨castNullSourceToArray, -, h⟩ := Option.bind_eq_some_iff.1 h
    obtain ⟨failOnMissingKey, -, h⟩ := Option.bind_eq_some_iff.1 h
    obtain ⟨failOnNullSource, -, h⟩ := Option.bind_eq_some_iff.1 h
    cases h
    exact List.forall_mem_cons.2 ⟨meets_of_operand? hTree hSource,
      List.forall_mem_singleton.2 (meets_of_operand? hTree hChange)⟩
  | merge =>
    obtain ⟨source, hSource, h⟩ := Option.bind_eq_some_iff.1 h
    obtain ⟨other, hOther, h⟩ := Option.bind_eq_some_iff.1 h
    obtain ⟨failOnMissingKey, -, h⟩ := Option.bind_eq_some_iff.1 h
    obtain ⟨failOnExistingKey, -, h⟩ := Option.bind_eq_some_iff.1 h
    obtain ⟨failOnNullSource, -, h⟩ := Option.bind_eq_some_iff.1 h
    obtain ⟨failOnNullMerge, -, h⟩ := Option.bind_eq_some_iff.1 h
    cases h
    exact List.forall_mem_cons.2 ⟨meets_of_operand? hTree hSource,
      List.forall_mem_singleton.2 (meets_of_operand? hTree hOther)⟩

lemma readsOnly_action : ReadsOnly Action.ofDocument? (Action.Meets fromTree) := by
  intro d a hTree hRead
  unfold Action.ofDocument? at hRead
  split at hRead
  · obtain ⟨metadata, -, hRead⟩ := Option.bind_eq_some_iff.1 hRead
    obtain ⟨key, -, hRead⟩ := Option.bind_eq_some_iff.1 hRead
    obtain ⟨type, -, hRead⟩ := Option.bind_eq_some_iff.1 hRead
    obtain ⟨effect, hEffect, hRead⟩ := Option.bind_eq_some_iff.1 hRead
    cases hRead
    exact ⟨trivial, trivial, Effect.meets_of_ofRecord? (Record.isTree_named hTree) hEffect⟩
  · cases hRead

lemma readsOnly_actionLink : ReadsOnly ActionLink.ofDocument? (ActionLink.Meets fromTree) := by
  intro d link hTree hRead
  obtain ⟨record, hRecord, hRead⟩ := Option.bind_eq_some_iff.1 hRead
  obtain ⟨action, hAction, hRead⟩ := Option.bind_eq_some_iff.1 hRead
  obtain ⟨constraint, hConstraint, hRead⟩ := Option.bind_eq_some_iff.1 hRead
  obtain ⟨executionMode, -, hRead⟩ := Option.bind_eq_some_iff.1 hRead
  obtain ⟨priority, -, hRead⟩ := Option.bind_eq_some_iff.1 hRead
  cases hRead
  have hFields := Record.isTree_of_ofDocument? hTree hRecord
  exact ⟨trivial, hFields.required? readsOnly_action.slot hAction,
    constraintMeets_of_constraintOf? hFields hConstraint⟩

lemma meets_of_actionsOf? {record : Record} {actions : List ActionLink} (hTree : record.IsTree)
    (h : actionsOf? record = some actions) : ∀ link ∈ actions, link.Meets fromTree := by
  unfold actionsOf? at h
  split at h
  · cases h
    exact List.forall_mem_nil _
  · rename_i d hValue
    exact readsOnly_actionLink.list d actions (hTree.value? hValue) h

/-! ## Policies -/

lemma BasicPolicy.meets_of_ofRecord? {record : Record} {p : BasicPolicy} (hTree : record.IsTree)
    (h : ofRecord? record = some p) : p.Meets fromTree := by
  obtain ⟨metadata, -, h⟩ := Option.bind_eq_some_iff.1 h
  obtain ⟨targetEffect, -, h⟩ := Option.bind_eq_some_iff.1 h
  obtain ⟨condition, hCondition, h⟩ := Option.bind_eq_some_iff.1 h
  obtain ⟨constraint, hConstraint, h⟩ := Option.bind_eq_some_iff.1 h
  obtain ⟨actions, hActions, h⟩ := Option.bind_eq_some_iff.1 h
  obtain ⟨strictTargetEffect, -, h⟩ := Option.bind_eq_some_iff.1 h
  obtain ⟨lenientConstraints, -, h⟩ := Option.bind_eq_some_iff.1 h
  obtain ⟨strategy, -, h⟩ := Option.bind_eq_some_iff.1 h
  obtain ⟨ignoreErrors, -, h⟩ := Option.bind_eq_some_iff.1 h
  obtain ⟨skipCache, -, h⟩ := Option.bind_eq_some_iff.1 h
  cases h
  exact ⟨trivial, hTree.required? readsOnly_condition.slot hCondition,
    constraintMeets_of_constraintOf? hTree hConstraint, meets_of_actionsOf? hTree hActions⟩

lemma SetSettings.meets_of_ofRecord? {record : Record} {s : SetSettings} (hTree : record.IsTree)
    (h : ofRecord? record = some s) :
    ConstraintMeets fromTree s.constraint ∧ ∀ link ∈ s.actions, link.Meets fromTree := by
  obtain ⟨constraint, hConstraint, h⟩ := Option.bind_eq_some_iff.1 h
  obtain ⟨actions, hActions, h⟩ := Option.bind_eq_some_iff.1 h
  obtain ⟨lenientConstraints, -, h⟩ := Option.bind_eq_some_iff.1 h
  obtain ⟨strategy, -, h⟩ := Option.bind_eq_some_iff.1 h
  obtain ⟨ignoreErrors, -, h⟩ := Option.bind_eq_some_iff.1 h
  obtain ⟨skipCache, -, h⟩ := Option.bind_eq_some_iff.1 h
  obtain ⟨runChildActions, -, h⟩ := Option.bind_eq_some_iff.1 h
  obtain ⟨indeterminateOnActionFail, -, h⟩ := Option.bind_eq_some_iff.1 h
  obtain ⟨strictUnlessLogic, -, h⟩ := Option.bind_eq_some_iff.1 h
  cases h
  exact ⟨constraintMeets_of_constraintOf? hTree hConstraint, meets_of_actionsOf? hTree hActions⟩

lemma Policy.meets_of_setOfRecord? {record : Record} {members : List (Member Policy)} {p : Policy}
    (hTree : record.IsTree) (hMembers : ∀ m ∈ members, m.Meets fromTree)
    (h : setOfRecord? record members = some p) : p.Meets fromTree := by
  obtain ⟨metadata, -, h⟩ := Option.bind_eq_some_iff.1 h
  obtain ⟨logic, -, h⟩ := Option.bind_eq_some_iff.1 h
  obtain ⟨settings, hSettings, h⟩ := Option.bind_eq_some_iff.1 h
  cases h
  obtain ⟨hConstraint, hActions⟩ := SetSettings.meets_of_ofRecord? hTree hSettings
  exact .of_members trivial trivial hMembers hConstraint hActions

lemma Member.meets_of_memberOfRecord? {record : Record} {policy : Slot Policy} {m : Member Policy}
    (hTree : record.IsTree) (hPolicy : policy.Meets fromTree (Policy.Meets fromTree))
    (h : memberOfRecord? record policy = some m) : m.Meets fromTree := by
  obtain ⟨constraint, hConstraint, h⟩ := Option.bind_eq_some_iff.1 h
  obtain ⟨runAction, -, h⟩ := Option.bind_eq_some_iff.1 h
  obtain ⟨priority, -, h⟩ := Option.bind_eq_some_iff.1 h
  cases h
  exact ⟨hPolicy, constraintMeets_of_constraintOf? hTree hConstraint⟩

/-- A member of a set is read from a record, its policy first. -/
lemma Member.ofDocument?_eq (document : Json) :
    Member.ofDocument? document = (do
      let record ← Record.ofDocument? 4 document
      let policy ← record.required? 0 "policy" (Slot.ofDocument? Policy.ofDocument?)
      memberOfRecord? record policy) := by
  rw [Member.ofDocument?]
  split
  · rename_i hRecord
    rw [hRecord]
    rfl
  rename_i record hRecord
  rw [hRecord]
  change _ = record.value? 0 "policy" >>= (Slot.ofDocument? Policy.ofDocument?) >>=
    memberOfRecord? record
  split
  · rename_i name content hValue
    rw [hValue]
    change _ = Slot.ofDocument? Policy.ofDocument? (.object [(name, content)]) >>=
      memberOfRecord? record
    rw [Slot.ofDocument?]
    split
    · rfl
    · split <;> rfl
  · rename_i hOther
    cases hValue : record.value? 0 "policy" with
    | none => rfl
    | some value =>
      change _ = Slot.ofDocument? Policy.ofDocument? value >>= memberOfRecord? record
      unfold Slot.ofDocument?
      split
      · exact absurd hValue (hOther _ _)
      · rfl

mutual

/-- A policy is read from a tree. -/
lemma Policy.meets_of_ofDocument? (d : Json) {p : Policy} (hTree : d.IsTree)
    (h : Policy.ofDocument? d = some p) : p.Meets fromTree := by
  match d with
  | .object fields =>
    have hRecord : (Record.named fields).IsTree := Record.isTree_named hTree
    unfold Policy.ofDocument? at h
    split at h
    · obtain ⟨p, hp, rfl⟩ := Option.map_eq_some_iff.1 h
      exact .basic (BasicPolicy.meets_of_ofRecord? hRecord hp)
    · split at h
      · rename_i items hItems
        obtain ⟨members, hMembers, h⟩ := Option.bind_eq_some_iff.1 h
        have hTrees : (Json.array items).IsTree := hRecord _ (List.mem_of_lookup hItems)
        exact meets_of_setOfRecord? hRecord (meets_of_members? items hTrees hMembers) h
      · cases h
    · obtain ⟨decision, -, rfl⟩ := Option.map_eq_some_iff.1 h
      exact .default decision
    · cases h
  | .array items =>
    unfold Policy.ofDocument? at h
    split at h
    · rename_i hEq
      cases hEq
    · obtain ⟨decision, -, rfl⟩ := Option.map_eq_some_iff.1 h
      exact .default decision
    · cases h
  | .null | .bool _ | .number _ | .string _ =>
    unfold Policy.ofDocument? at h
    cases h
termination_by sizeOf d
decreasing_by
  have := sizeOf_lookup_lt ‹_›
  simp at this ⊢
  omega

lemma Policy.meets_of_members? (items : List Json) {members : List (Member Policy)}
    (hTree : (Json.array items).IsTree) (h : members? items = some members) :
    ∀ m ∈ members, m.Meets fromTree := by
  match items with
  | [] =>
    rw [members?] at h
    cases h
    exact List.forall_mem_nil _
  | document :: rest =>
    obtain ⟨hDocument, hRest⟩ := hTree.cons
    rw [members?] at h
    obtain ⟨member, hMember, h⟩ := Option.bind_eq_some_iff.1 h
    obtain ⟨others, hOthers, h⟩ := Option.bind_eq_some_iff.1 h
    cases h
    refine List.forall_mem_cons.2 ⟨?_, meets_of_members? rest hRest hOthers⟩
    exact meets_of_member document hDocument hMember
termination_by sizeOf items

lemma Policy.meets_of_member (d : Json) {m : Member Policy} (hTree : d.IsTree)
    (h : Member.ofDocument? d = some m) : m.Meets fromTree := by
  rw [Member.ofDocument?_eq] at h
  obtain ⟨record, hRecord, h⟩ := Option.bind_eq_some_iff.1 h
  obtain ⟨policy, hPolicy, h⟩ := Option.bind_eq_some_iff.1 h
  obtain ⟨value, hValue, hSlot⟩ := Option.bind_eq_some_iff.1 hPolicy
  have hFields := Record.isTree_of_ofDocument? hTree hRecord
  refine Member.meets_of_memberOfRecord? hFields ?_ h
  cases policy with
  | value p =>
    obtain ⟨content, hContent, hSmaller, hp⟩ :=
      Slot.exists_of_ofDocument? (hFields.value? hValue) hSlot
    have hPart := Record.sizeOf_value?_lt hRecord hValue
    exact meets_of_ofDocument? content hContent hp
  | ref target => trivial
termination_by sizeOf d

end

lemma readsOnly_policy : ReadsOnly Policy.ofDocument? (Policy.Meets fromTree) :=
  fun d _ hTree hRead => Policy.meets_of_ofDocument? d hTree hRead

lemma readsOnly_member : ReadsOnly Member.ofDocument? (Member.Meets fromTree) :=
  fun d _ hTree hRead => Policy.meets_of_member d hTree hRead

end PolicyText
