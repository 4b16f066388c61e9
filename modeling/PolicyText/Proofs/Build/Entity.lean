import PolicyText.Build.Entity
import PolicyText.Proofs.Build.Arguments
import PolicyText.Proofs.Json.Ordered

/-!
# What the builders guarantee

Every builder makes a well-formed entity of sound arguments (`Command.build_meets`), and the entity
is of the kind that the grammar gives to the command (`Command.kind_of_build`).  No builder does
this alone: that a dynamic variable has a resolver and that a negation has exactly one condition
follows from the bounds of the grammar, which are checked before, together with the shape of the
arguments that the builder asks for.
-/

namespace PolicyText

variable {args : Collected}

/-! ## Variables and resolvers -/

lemma mapFault_map_eq_ok {ε φ α β : Type} {fault : ε → φ} {change : α → β} {read : Except ε α}
    {b : β} (h : (mapFault fault read).map change = .ok b) :
    ∃ a, read = .ok a ∧ change a = b := by
  cases read with
  | error e => cases h
  | ok a => exact ⟨a, rfl, Except.ok.inj h⟩

lemma Binary.isFinite_of_read {format : BinaryFormat} {text : List Char} {x : Binary format}
    (h : Binary.read format text = .ok x) : x.isFinite = true := by
  unfold Binary.read at h
  split at h
  split at h
  · cases h
  split at h
  · dsimp only at h
    split at h
    · cases h
      assumption
    · cases h
  · split at h <;> cases h

lemma Json.ordered_of_parse {text : List Char} {j : Json} (h : Json.parse text = .ok j) :
    j.ordered = j := by
  obtain ⟨written, -, rfl⟩ := Except.map_eq_ok.1 h
  exact Json.ordered_ordered written

/-- A static value is of the type as which it was read, and it is finite and a tree. -/
lemma StaticValue.of_read {options : Options} {raw : String} {type : ValueType}
    {value : StaticValue} (h : StaticValue.read options raw type = .ok value) :
    value.type = type ∧ value.IsFinite ∧ value.IsTree := by
  cases type with
  | string =>
    cases h
    exact ⟨rfl, trivial, trivial⟩
  | number =>
    obtain ⟨x, hRead, rfl⟩ := mapFault_map_eq_ok h
    exact ⟨rfl, Binary.isFinite_of_read hRead, trivial⟩
  | float =>
    obtain ⟨x, hRead, rfl⟩ := mapFault_map_eq_ok h
    exact ⟨rfl, Binary.isFinite_of_read hRead, trivial⟩
  | boolean =>
    unfold StaticValue.read at h
    simp only at h
    split at h <;> cases h
    exact ⟨rfl, trivial, trivial⟩
  | object =>
    unfold StaticValue.read readObject at h
    simp only at h
    split at h <;> cases h
    exact ⟨rfl, trivial, Json.ordered_of_parse ‹_›⟩
  | array =>
    unfold StaticValue.read readArray at h
    simp only at h
    split at h <;> cases h
    exact ⟨rfl, trivial, Json.ordered_of_parse ‹_›⟩
  | _ =>
    obtain ⟨a, -, rfl⟩ := mapFault_map_eq_ok h
    exact ⟨rfl, trivial, trivial⟩

lemma Options.Sound.formatFor {o : Options} (h : o.Sound) (type : ValueType) :
    ∀ text ∈ o.formatFor type, text ≠ "" ∧ type.IsTemporal := by
  intro text hText
  cases type with
  | date => exact ⟨h.text o.dateFormat (by simp) text hText, Or.inl rfl⟩
  | dateTime => exact ⟨h.text o.dateTimeFormat (by simp) text hText, Or.inr (Or.inl rfl)⟩
  | time => exact ⟨h.text o.timeFormat (by simp) text hText, Or.inr (Or.inr rfl)⟩
  | _ => cases hText

lemma buildStaticVariable_meets {type : ValueType} {v : StaticVariable} (hArgs : args.Sound)
    (h : buildStaticVariable (.staticVariable type) args = .ok v) : v.Meets wellFormed := by
  obtain ⟨⟨⟩, -, h⟩ := Except.bind_eq_ok.1 h
  obtain ⟨⟨⟩, -, h⟩ := Except.bind_eq_ok.1 h
  obtain ⟨raw, -, h⟩ := Except.bind_eq_ok.1 h
  obtain ⟨_, ⟨⟩, h⟩ := Except.bind_eq_ok.1 h
  simp only at h
  split at h
  · cases h
  rename_i value hRead
  cases h
  obtain ⟨rfl, hFinite, hTree⟩ := StaticValue.of_read hRead
  refine ⟨hArgs.metadata, hFinite, hTree, hArgs.settings.formatFor value.type, fun hJson => ?_⟩
  by_contra hString
  exact hJson (if_neg hString)

lemma buildResolver_meets {engine : Engine} {r : Resolver} (hArgs : args.Sound)
    (h : buildResolver (.resolver engine) args = .ok r) : r.Meets wellFormed := by
  obtain ⟨⟨⟩, -, h⟩ := Except.bind_eq_ok.1 h
  obtain ⟨⟨⟩, -, h⟩ := Except.bind_eq_ok.1 h
  obtain ⟨expression, -, h⟩ := Except.bind_eq_ok.1 h
  obtain ⟨_, ⟨⟩, h⟩ := Except.bind_eq_ok.1 h
  cases h
  exact ⟨hArgs.metadata, hArgs.settings.text args.settings.key (by simp)⟩

lemma buildDynamicVariable_meets {v : DynamicVariable} (hArgs : args.Sound)
    (hCount : Command.dynamicVariable.checkCount args = .ok ())
    (h : buildDynamicVariable .dynamicVariable args = .ok v) : v.Meets wellFormed := by
  obtain ⟨⟨⟩, hContents, h⟩ := Except.bind_eq_ok.1 h
  obtain ⟨⟨⟩, -, h⟩ := Except.bind_eq_ok.1 h
  obtain ⟨resolvers, hResolvers, h⟩ := Except.bind_eq_ok.1 h
  cases h
  obtain ⟨hLength, hSlots⟩ := forall_meets_of_mapM hArgs.children
    (fun _ _ hNode hSlot => hNode.resolverSlot hSlot) hResolvers
  have hLeast : 1 ≤ args.count := (Command.bounds_of_checkCount hCount).1
  rw [← Collected.length_children hContents, ← hLength] at hLeast
  exact ⟨hArgs.metadata, ⟨List.length_pos_iff.1 hLeast,
    hArgs.settings.text args.settings.format (by simp)⟩, hSlots⟩

/-! ## Conditions -/

lemma buildAtomic_meets {operation : Operation} {c : AtomicCondition} (hArgs : args.Sound)
    (h : buildAtomic (.atomic operation) args = .ok c) : c.Meets wellFormed := by
  obtain ⟨⟨⟩, -, h⟩ := Except.bind_eq_ok.1 h
  obtain ⟨⟨⟩, -, h⟩ := Except.bind_eq_ok.1 h
  obtain ⟨_, ⟨⟩, h⟩ := Except.bind_eq_ok.1 h
  simp only at h
  split at h
  · cases h
  rename_i hArity
  obtain ⟨slots, hMap, h⟩ := Except.bind_eq_ok.1 h
  cases h
  obtain ⟨hLength, hSlots⟩ := forall_meets_of_mapM hArgs.children
    (fun _ _ hNode hSlot => hNode.variableSlot hSlot) hMap
  exact ⟨hArgs.metadata, hLength.trans (not_not.1 hArity), hSlots⟩

lemma minimumConditions_of_checkMinimum {command : Command}
    (h : checkMinimum command .nOf args = .ok ()) :
    args.settings.minimumConditions ≠ none := by
  rw [checkMinimum, if_pos rfl] at h
  split at h
  · cases h
  rename_i o hOptions
  split at h
  · cases h
  rename_i hMinimum
  rw [Collected.settings, hOptions, Option.getD_some]
  rwa [Option.isNone_iff_eq_none] at hMinimum

/-- A combination of conditions that is built is well formed. -/
lemma buildComposite_meets {logic : Logic} {c : Condition} (hArgs : args.Sound)
    (hCount : (Command.composite logic).checkCount args = .ok ())
    (h : buildComposite (.composite logic) args = .ok c) : c.Meets wellFormed := by
  obtain ⟨⟨⟩, hContents, h⟩ := Except.bind_eq_ok.1 h
  obtain ⟨⟨⟩, -, h⟩ := Except.bind_eq_ok.1 h
  obtain ⟨_, ⟨⟩, h⟩ := Except.bind_eq_ok.1 h
  obtain ⟨⟨⟩, hMinimum, h⟩ := Except.bind_eq_ok.1 h
  obtain ⟨conditions, hConditions, h⟩ := Except.bind_eq_ok.1 h
  cases h
  obtain ⟨hLength, hSlots⟩ := forall_meets_of_mapM hArgs.children
    (fun _ _ hNode hSlot => hNode.conditionSlot hSlot) hConditions
  obtain ⟨hLeast, hMost⟩ := Command.bounds_of_checkCount hCount
  rw [← Collected.length_children hContents, ← hLength] at hLeast hMost
  have hOne : 1 ≤ conditions.length := by cases logic <;> exact hLeast
  obtain ⟨hValues, hReferences⟩ := Slot.forall_meets.1 hSlots
  refine .composite hArgs.metadata ⟨List.length_pos_iff.1 hOne, ?_, ?_⟩ hValues hReferences
  · rintro rfl
    exact Nat.le_antisymm (hMost 1 rfl) hOne
  · rintro rfl
    exact minimumConditions_of_checkMinimum hMinimum

lemma buildConstant_eq {value : ConstantCondition} {c : Condition}
    (h : buildConstant (.constant value) args = .ok c) : c = .constant value := by
  obtain ⟨⟨⟩, -, h⟩ := Except.bind_eq_ok.1 h
  obtain ⟨⟨⟩, -, h⟩ := Except.bind_eq_ok.1 h
  obtain ⟨_, ⟨⟩, h⟩ := Except.bind_eq_ok.1 h
  cases h
  rfl

lemma buildConstraint_meets {slot : Slot Condition} (hArgs : args.Sound)
    (h : buildConstraint args = .ok slot) :
    slot.Meets wellFormed (Condition.Meets wellFormed) := by
  obtain ⟨⟨⟩, -, h⟩ := Except.bind_eq_ok.1 h
  obtain ⟨⟨⟩, -, h⟩ := Except.bind_eq_ok.1 h
  obtain ⟨node, hChild, h⟩ := Except.bind_eq_ok.1 h
  have hNode : node.Meets wellFormed :=
    hArgs.children node (by rw [Collected.children_of_singleChild hChild]; exact .head [])
  exact hNode.conditionSlot h

/-! ## Actions -/

lemma operands_of_effectOf? {options : Options} {type : ActionType} {slots : List (Slot Variable)}
    {effect : Effect} (h : effectOf? options type slots = some effect) :
    effect.operands = slots := by
  unfold effectOf? at h
  split at h <;> cases h <;> rfl

lemma buildAction_meets {type : ActionType} {a : Action} (hArgs : args.Sound)
    (h : buildAction (.action type) args = .ok a) : a.Meets wellFormed := by
  obtain ⟨⟨⟩, -, h⟩ := Except.bind_eq_ok.1 h
  obtain ⟨key, -, h⟩ := Except.bind_eq_ok.1 h
  obtain ⟨_, ⟨⟩, h⟩ := Except.bind_eq_ok.1 h
  split at h
  · cases h
  obtain ⟨operands, hMap, h⟩ := Except.bind_eq_ok.1 h
  split at h
  · cases h
  rename_i effect hEffect
  cases h
  obtain ⟨-, hSlots⟩ := forall_meets_of_mapM hArgs.children
    (fun _ _ hNode hSlot => hNode.variableSlot hSlot) hMap
  rw [← operands_of_effectOf? hEffect] at hSlots
  exact ⟨hArgs.metadata, trivial, hSlots⟩

lemma buildActionLink_meets {link : ActionLink} (hArgs : args.Sound)
    (h : buildActionLink .actionLink args = .ok link) : link.Meets wellFormed := by
  obtain ⟨⟨⟩, -, h⟩ := Except.bind_eq_ok.1 h
  obtain ⟨node, hChild, h⟩ := Except.bind_eq_ok.1 h
  obtain ⟨action, hAction, h⟩ := Except.bind_eq_ok.1 h
  cases h
  have hNode : node.Meets wellFormed :=
    hArgs.children node (by rw [Collected.children_of_singleChild hChild]; exact .head [])
  exact ⟨hArgs.settings.executionMode, hNode.actionSlot hAction, hArgs.constraint⟩

/-! ## Policies -/

/-- The conditions and actions among well-formed entities are well formed. -/
lemma policyParts_meets {command : Command} {nodes : List Node}
    {conditions : List (Slot Condition)} {links : List ActionLink}
    (hNodes : ∀ node ∈ nodes, node.Meets wellFormed)
    (h : policyParts command nodes = .ok (conditions, links)) :
    (∀ slot ∈ conditions, slot.Meets wellFormed (Condition.Meets wellFormed)) ∧
      ∀ link ∈ links, link.Meets wellFormed := by
  induction nodes generalizing conditions links with
  | nil =>
    cases h
    exact ⟨List.forall_mem_nil _, List.forall_mem_nil _⟩
  | cons node rest ih =>
    obtain ⟨hNode, hRest⟩ := List.forall_mem_cons.1 hNodes
    unfold policyParts at h
    split at h
    · obtain ⟨⟨others, actions⟩, hParts, h⟩ := Except.bind_eq_ok.1 h
      cases h
      obtain ⟨hConditions, hLinks⟩ := ih hRest hParts
      exact ⟨List.forall_mem_cons.2 ⟨hNode, hConditions⟩, hLinks⟩
    · obtain ⟨⟨others, actions⟩, hParts, h⟩ := Except.bind_eq_ok.1 h
      cases h
      obtain ⟨hConditions, hLinks⟩ := ih hRest hParts
      exact ⟨List.forall_mem_cons.2 ⟨hNode, hConditions⟩, hLinks⟩
    · obtain ⟨⟨others, actions⟩, hParts, h⟩ := Except.bind_eq_ok.1 h
      cases h
      obtain ⟨hConditions, hLinks⟩ := ih hRest hParts
      exact ⟨hConditions, List.forall_mem_cons.2 ⟨hNode, hLinks⟩⟩
    · cases h

lemma buildBasicPolicy_meets {effect : TargetEffect} {p : BasicPolicy} (hArgs : args.Sound)
    (h : buildBasicPolicy (.basicPolicy effect) args = .ok p) : p.Meets wellFormed := by
  obtain ⟨⟨⟩, -, h⟩ := Except.bind_eq_ok.1 h
  obtain ⟨_, ⟨⟩, h⟩ := Except.bind_eq_ok.1 h
  obtain ⟨⟨conditions, links⟩, hParts, h⟩ := Except.bind_eq_ok.1 h
  obtain ⟨hConditions, hLinks⟩ := policyParts_meets hArgs.children hParts
  simp only at h
  split at h
  · cases h
    exact ⟨hArgs.metadata, hConditions _ (.head []), hArgs.constraint, hLinks⟩
  · cases h

/-- The members and actions among well-formed entities are well formed. -/
lemma setParts_meets {command : Command} {nodes : List Node} {members : List (Member Policy)}
    {links : List ActionLink} (hNodes : ∀ node ∈ nodes, node.Meets wellFormed)
    (h : setParts command nodes = .ok (members, links)) :
    (∀ member ∈ members, member.Meets wellFormed) ∧ ∀ link ∈ links, link.Meets wellFormed := by
  have hNone : ConstraintMeets wellFormed none := by
    intro slot hSlot
    cases hSlot
  induction nodes generalizing members links with
  | nil =>
    cases h
    exact ⟨List.forall_mem_nil _, List.forall_mem_nil _⟩
  | cons node rest ih =>
    obtain ⟨hNode, hRest⟩ := List.forall_mem_cons.1 hNodes
    unfold setParts at h
    split at h
    · obtain ⟨⟨others, actions⟩, hParts, h⟩ := Except.bind_eq_ok.1 h
      cases h
      obtain ⟨hMembers, hLinks⟩ := ih hRest hParts
      exact ⟨List.forall_mem_cons.2 ⟨⟨hNode, hNone⟩, hMembers⟩, hLinks⟩
    · obtain ⟨⟨others, actions⟩, hParts, h⟩ := Except.bind_eq_ok.1 h
      cases h
      obtain ⟨hMembers, hLinks⟩ := ih hRest hParts
      exact ⟨List.forall_mem_cons.2 ⟨⟨hNode, hNone⟩, hMembers⟩, hLinks⟩
    · obtain ⟨⟨others, actions⟩, hParts, h⟩ := Except.bind_eq_ok.1 h
      cases h
      obtain ⟨hMembers, hLinks⟩ := ih hRest hParts
      exact ⟨List.forall_mem_cons.2 ⟨hNode, hMembers⟩, hLinks⟩
    · obtain ⟨⟨others, actions⟩, hParts, h⟩ := Except.bind_eq_ok.1 h
      cases h
      obtain ⟨hMembers, hLinks⟩ := ih hRest hParts
      exact ⟨hMembers, List.forall_mem_cons.2 ⟨hNode, hLinks⟩⟩
    · cases h

lemma buildPolicySet_meets {logic : CombinationLogic} {p : Policy} (hArgs : args.Sound)
    (h : buildPolicySet (.policySet logic) args = .ok p) : p.Meets wellFormed := by
  obtain ⟨⟨⟩, -, h⟩ := Except.bind_eq_ok.1 h
  obtain ⟨_, ⟨⟩, h⟩ := Except.bind_eq_ok.1 h
  obtain ⟨⟨members, links⟩, hParts, h⟩ := Except.bind_eq_ok.1 h
  obtain ⟨hMembers, hLinks⟩ := setParts_meets hArgs.children hParts
  simp only at h
  split at h
  · cases h
  rename_i hSome
  cases h
  rw [List.isEmpty_iff] at hSome
  exact .of_members hArgs.metadata hSome hMembers hArgs.constraint hLinks

lemma buildDefaultPolicy_eq {decision : DefaultPolicy} {p : Policy}
    (h : buildDefaultPolicy (.defaultPolicy decision) args = .ok p) : p = .default decision := by
  obtain ⟨⟨⟩, -, h⟩ := Except.bind_eq_ok.1 h
  obtain ⟨⟨⟩, -, h⟩ := Except.bind_eq_ok.1 h
  obtain ⟨_, ⟨⟩, h⟩ := Except.bind_eq_ok.1 h
  cases h
  rfl

lemma buildMember_meets {m : Member Policy} (hArgs : args.Sound)
    (h : buildMember .member args = .ok m) : m.Meets wellFormed := by
  obtain ⟨⟨⟩, -, h⟩ := Except.bind_eq_ok.1 h
  obtain ⟨node, hChild, h⟩ := Except.bind_eq_ok.1 h
  obtain ⟨policy, hPolicy, h⟩ := Except.bind_eq_ok.1 h
  cases h
  have hNode : node.Meets wellFormed :=
    hArgs.children node (by rw [Collected.children_of_singleChild hChild]; exact .head [])
  exact ⟨hNode.policySlot hPolicy, hArgs.constraint⟩

/-! ## All commands -/

/-- What is built of a command is of its kind. -/
lemma Command.kind_of_build {command : Command} {node : Node}
    (h : command.build args = .ok node) : node.kind = command.kind := by
  cases command with
  | composite logic =>
    obtain ⟨c, hBuild, rfl⟩ := Except.map_eq_ok.1 h
    obtain ⟨⟨⟩, -, hBuild⟩ := Except.bind_eq_ok.1 hBuild
    obtain ⟨⟨⟩, -, hBuild⟩ := Except.bind_eq_ok.1 hBuild
    obtain ⟨_, ⟨⟩, hBuild⟩ := Except.bind_eq_ok.1 hBuild
    obtain ⟨⟨⟩, -, hBuild⟩ := Except.bind_eq_ok.1 hBuild
    obtain ⟨conditions, -, hBuild⟩ := Except.bind_eq_ok.1 hBuild
    cases hBuild
    rfl
  | policySet logic =>
    obtain ⟨p, hBuild, rfl⟩ := Except.map_eq_ok.1 h
    obtain ⟨⟨⟩, -, hBuild⟩ := Except.bind_eq_ok.1 hBuild
    obtain ⟨_, ⟨⟩, hBuild⟩ := Except.bind_eq_ok.1 hBuild
    obtain ⟨⟨members, links⟩, -, hBuild⟩ := Except.bind_eq_ok.1 hBuild
    simp only at hBuild
    split at hBuild <;> cases hBuild
    rfl
  | constant value =>
    obtain ⟨c, hBuild, rfl⟩ := Except.map_eq_ok.1 h
    rw [buildConstant_eq hBuild]
    rfl
  | defaultPolicy decision =>
    obtain ⟨p, hBuild, rfl⟩ := Except.map_eq_ok.1 h
    rw [buildDefaultPolicy_eq hBuild]
    rfl
  | constraint | reference | options => cases h
  | _ =>
    obtain ⟨entity, -, rfl⟩ := Except.map_eq_ok.1 h
    rfl

/-- What is built of sound arguments is well formed. -/
lemma Command.build_meets {command : Command} {node : Node} (hArgs : args.Sound)
    (hCount : command.checkCount args = .ok ()) (h : command.build args = .ok node) :
    node.Meets wellFormed := by
  cases command with
  | staticVariable type =>
    obtain ⟨v, hBuild, rfl⟩ := Except.map_eq_ok.1 h
    exact buildStaticVariable_meets hArgs hBuild
  | resolver engine =>
    obtain ⟨r, hBuild, rfl⟩ := Except.map_eq_ok.1 h
    exact buildResolver_meets hArgs hBuild
  | dynamicVariable =>
    obtain ⟨v, hBuild, rfl⟩ := Except.map_eq_ok.1 h
    exact buildDynamicVariable_meets hArgs hCount hBuild
  | atomic operation =>
    obtain ⟨c, hBuild, rfl⟩ := Except.map_eq_ok.1 h
    exact .atomic (buildAtomic_meets hArgs hBuild)
  | composite logic =>
    obtain ⟨c, hBuild, rfl⟩ := Except.map_eq_ok.1 h
    exact buildComposite_meets hArgs hCount hBuild
  | constant value =>
    obtain ⟨c, hBuild, rfl⟩ := Except.map_eq_ok.1 h
    rw [buildConstant_eq hBuild]
    exact .constant value
  | basicPolicy effect =>
    obtain ⟨p, hBuild, rfl⟩ := Except.map_eq_ok.1 h
    exact .basic (buildBasicPolicy_meets hArgs hBuild)
  | policySet logic =>
    obtain ⟨p, hBuild, rfl⟩ := Except.map_eq_ok.1 h
    exact buildPolicySet_meets hArgs hBuild
  | defaultPolicy decision =>
    obtain ⟨p, hBuild, rfl⟩ := Except.map_eq_ok.1 h
    rw [buildDefaultPolicy_eq hBuild]
    exact .default decision
  | action type =>
    obtain ⟨a, hBuild, rfl⟩ := Except.map_eq_ok.1 h
    exact buildAction_meets hArgs hBuild
  | actionLink =>
    obtain ⟨link, hBuild, rfl⟩ := Except.map_eq_ok.1 h
    exact buildActionLink_meets hArgs hBuild
  | member =>
    obtain ⟨m, hBuild, rfl⟩ := Except.map_eq_ok.1 h
    exact buildMember_meets hArgs hBuild
  | constraint | reference | options => cases h

end PolicyText
