import PolicyText.Proofs.Build.Agreement

/-!
# What the builders refuse

A builder checks what it needs, and most of these checks never fail: the number of arguments has
been compared with the grammar, and the children among them have been let through by its tables.
For every builder this file says which faults it can still report, and `Command.build_error` says it
of all of them: only faults that concern the command (`ShapeFault.Concerns`) and invalid literals.

References and constraints are let through more often than they are of use, and it is the builders
that refuse them: what has been built has children only where the grammar lists references, and a
constraint only where one is taken (`Command.children_of_build`, `Command.constraint_of_build`).
-/

namespace PolicyText

variable {args : Collected} {e : ParseError}

/-! ## Variables and resolvers -/

/-- About a static variable, an unsupported constraint or an invalid literal is reported. -/
lemma buildStaticVariable_error {type : ValueType} (hFit : args.Fit (.staticVariable type))
    (hCount : (Command.staticVariable type).checkCount args = .ok ())
    (h : buildStaticVariable (.staticVariable type) args = .error e) : e.CanArise := by
  have hChildren := hFit.children_eq_nil rfl rfl
  obtain ⟨raw, hRaw⟩ := args.exists_singleContent hChildren
    (Command.count_eq_of_checkCount hCount rfl rfl)
  rcases Except.bind_eq_error.1 h with h | ⟨⟨⟩, -, h⟩
  · rw [Collected.rejectChildren, hChildren] at h
    cases h
  rcases Except.bind_eq_error.1 h with h | ⟨⟨⟩, -, h⟩
  · exact Collected.canArise_of_rejectConstraint rfl h
  rcases Except.bind_eq_error.1 h with h | ⟨found, -, h⟩
  · cases hRaw.symm.trans h
  rcases Except.bind_eq_error.1 h with h | ⟨_, ⟨⟩, h⟩
  · cases h
  simp only at h
  split at h
  · cases h
    trivial
  · cases h

lemma buildResolver_error {engine : Engine} (hFit : args.Fit (.resolver engine))
    (hCount : (Command.resolver engine).checkCount args = .ok ())
    (h : buildResolver (.resolver engine) args = .error e) : e.CanArise := by
  have hChildren := hFit.children_eq_nil rfl rfl
  have hMost : (Command.resolver engine).mostArguments? = some 1 := rfl
  obtain ⟨raw, hRaw⟩ := args.exists_singleContent hChildren
    (Command.count_eq_of_checkCount hCount rfl hMost)
  rcases Except.bind_eq_error.1 h with h | ⟨⟨⟩, -, h⟩
  · rw [Collected.rejectChildren, hChildren] at h
    cases h
  rcases Except.bind_eq_error.1 h with h | ⟨⟨⟩, -, h⟩
  · exact Collected.canArise_of_rejectConstraint rfl h
  rcases Except.bind_eq_error.1 h with h | ⟨found, -, h⟩
  · cases hRaw.symm.trans h
  rcases Except.bind_eq_error.1 h with h | ⟨_, ⟨⟩, h⟩
  · cases h
  cases h

lemma buildDynamicVariable_error (hFit : args.Fit .dynamicVariable)
    (h : buildDynamicVariable .dynamicVariable args = .error e) : e.CanArise := by
  obtain ⟨slots, hSlots⟩ := Except.exists_mapM_eq_ok fun node hNode =>
    Node.exists_resolverSlot .dynamicVariable
      (hFit.pointer?_eq (by decide) (by decide) node hNode)
  rcases Except.bind_eq_error.1 h with h | ⟨⟨⟩, -, h⟩
  · exact Collected.canArise_of_rejectContents rfl h
  rcases Except.bind_eq_error.1 h with h | ⟨⟨⟩, -, h⟩
  · exact Collected.canArise_of_rejectConstraint rfl h
  rcases Except.bind_eq_error.1 h with h | ⟨found, -, h⟩
  · cases hSlots.symm.trans h
  · cases h

/-! ## Conditions -/

/-- About an atomic condition, contents or an unsupported constraint are reported.  The number of
its arguments has been compared with the grammar before. -/
lemma buildAtomic_error {operation : Operation} (hFit : args.Fit (.atomic operation))
    (hCount : (Command.atomic operation).checkCount args = .ok ())
    (h : buildAtomic (.atomic operation) args = .error e) : e.CanArise := by
  obtain ⟨slots, hSlots⟩ := Except.exists_mapM_eq_ok fun node hNode =>
    Node.exists_variableSlot (.atomic operation)
      (hFit.pointer?_eq (by rintro ⟨⟩) (by rintro ⟨⟩) node hNode)
  have hArity := Command.count_eq_of_checkCount hCount (Command.leastArguments_atomic operation)
    (Command.mostArguments?_atomic operation)
  rcases Except.bind_eq_error.1 h with h | ⟨⟨⟩, hContents, h⟩
  · exact Collected.canArise_of_rejectContents rfl h
  rcases Except.bind_eq_error.1 h with h | ⟨⟨⟩, -, h⟩
  · exact Collected.canArise_of_rejectConstraint rfl h
  rcases Except.bind_eq_error.1 h with h | ⟨_, ⟨⟩, h⟩
  · cases h
  simp only at h
  split at h
  · rename_i hLength
    exact absurd ((Collected.length_children hContents).trans hArity) hLength
  rcases Except.bind_eq_error.1 h with h | ⟨found, -, h⟩
  · cases hSlots.symm.trans h
  · cases h

/-- About a combination of conditions, contents, an unsupported constraint or a choice of some
conditions that does not say how many are reported. -/
lemma buildComposite_error {logic : Logic} (hFit : args.Fit (.composite logic))
    (h : buildComposite (.composite logic) args = .error e) : e.CanArise := by
  obtain ⟨slots, hSlots⟩ := Except.exists_mapM_eq_ok fun node hNode =>
    Node.exists_conditionSlot (.composite logic)
      (hFit.pointer?_eq (by rintro ⟨⟩) (by rintro ⟨⟩) node hNode)
  rcases Except.bind_eq_error.1 h with h | ⟨⟨⟩, -, h⟩
  · exact Collected.canArise_of_rejectContents rfl h
  rcases Except.bind_eq_error.1 h with h | ⟨⟨⟩, -, h⟩
  · exact Collected.canArise_of_rejectConstraint rfl h
  rcases Except.bind_eq_error.1 h with h | ⟨_, ⟨⟩, h⟩
  · cases h
  rcases Except.bind_eq_error.1 h with h | ⟨⟨⟩, -, h⟩
  · unfold checkMinimum at h
    split at h
    · rename_i hLogic
      subst hLogic
      split at h
      · cases h
        exact ShapeFault.Concerns.missingOptions.canArise
      · split at h
        · cases h
          exact ShapeFault.Concerns.missingMinimum.canArise
        · cases h
    · cases h
  rcases Except.bind_eq_error.1 h with h | ⟨found, -, h⟩
  · cases hSlots.symm.trans h
  · cases h

lemma rejectContents_of_checkCount {command : Command}
    (hCount : command.checkCount args = .ok ()) (hMost : command.mostArguments? = some 0) :
    args.rejectContents command = .ok () := by
  have hNone := (Command.bounds_of_checkCount hCount).2 0 hMost
  have hContents : args.contents = [] := by
    rw [← List.length_eq_zero_iff]
    exact Nat.le_zero.1 (Nat.le_trans (Nat.le_add_left _ _) hNone)
  rw [Collected.rejectContents, hContents]

lemma buildConstant_error {value : ConstantCondition}
    (hCount : (Command.constant value).checkCount args = .ok ())
    (h : buildConstant (.constant value) args = .error e) : e.CanArise := by
  rcases Except.bind_eq_error.1 h with h | ⟨⟨⟩, -, h⟩
  · cases (rejectContents_of_checkCount hCount rfl).symm.trans h
  rcases Except.bind_eq_error.1 h with h | ⟨⟨⟩, -, h⟩
  · exact Collected.canArise_of_rejectConstraint rfl h
  rcases Except.bind_eq_error.1 h with h | ⟨_, ⟨⟩, h⟩
  · cases h
  cases h

lemma buildConstraint_error (hFit : args.Fit .constraint)
    (hCount : Command.constraint.checkCount args = .ok ())
    (h : buildConstraint args = .error e) : e.CanArise := by
  rcases Except.bind_eq_error.1 h with h | ⟨⟨⟩, hContents, h⟩
  · exact Collected.canArise_of_rejectContents rfl h
  rcases Except.bind_eq_error.1 h with h | ⟨⟨⟩, -, h⟩
  · exact Collected.canArise_of_rejectConstraint rfl h
  obtain ⟨node, hChild, hPointer⟩ :=
    hFit.exists_singleChild (by decide) (by decide) hCount rfl rfl hContents
  obtain ⟨slot, hSlot⟩ := Node.exists_conditionSlot .constraint hPointer
  rcases Except.bind_eq_error.1 h with h | ⟨found, hFound, h⟩
  · cases hChild.symm.trans h
  · obtain rfl : node = found := Except.ok.inj (hChild.symm.trans hFound)
    cases hSlot.symm.trans h

/-! ## Actions -/

lemma buildActionLink_error (hFit : args.Fit .actionLink)
    (hCount : Command.actionLink.checkCount args = .ok ())
    (h : buildActionLink .actionLink args = .error e) : e.CanArise := by
  rcases Except.bind_eq_error.1 h with h | ⟨⟨⟩, hContents, h⟩
  · exact Collected.canArise_of_rejectContents rfl h
  obtain ⟨node, hChild, hPointer⟩ :=
    hFit.exists_singleChild (by decide) (by decide) hCount rfl rfl hContents
  obtain ⟨slot, hSlot⟩ := Node.exists_actionSlot .actionLink hPointer
  rcases Except.bind_eq_error.1 h with h | ⟨found, hFound, h⟩
  · cases hChild.symm.trans h
  obtain rfl : node = found := Except.ok.inj (hChild.symm.trans hFound)
  rcases Except.bind_eq_error.1 h with h | ⟨action, -, h⟩
  · cases hSlot.symm.trans h
  · cases h

lemma length_children_of_actionKey {type : ActionType} {key : String}
    (hCount : (Command.action type).checkCount args = .ok ())
    (hKey : actionKey (.action type) args = .ok key) :
    args.children.length = type.operandCount := by
  have hContents : args.contents = [key] := by
    unfold actionKey at hKey
    split at hKey
    · cases hKey
    · cases hKey
      assumption
    · cases hKey
  have hArguments : args.count = type.operandCount + 1 :=
    Command.count_eq_of_checkCount hCount (by cases type <;> rfl) (by cases type <;> rfl)
  rw [Collected.count, hContents, List.length_singleton] at hArguments
  exact Nat.succ.inj hArguments

lemma exists_effectOf? (options : Options) {type : ActionType} {operands : List (Slot Variable)}
    (h : operands.length = type.operandCount) :
    ∃ effect, effectOf? options type operands = some effect := by
  cases type with
  | clear =>
    obtain rfl := List.length_eq_zero_iff.1 h
    exact ⟨_, rfl⟩
  | save =>
    obtain ⟨value, rfl⟩ := List.length_eq_one_iff.1 h
    exact ⟨_, rfl⟩
  | patch | merge =>
    obtain ⟨source, other, rfl⟩ := List.length_eq_two.1 h
    exact ⟨_, rfl⟩

/-- About an action, an unsupported constraint, a missing key or a second content are reported. -/
lemma buildAction_error {type : ActionType} (hFit : args.Fit (.action type))
    (hCount : (Command.action type).checkCount args = .ok ())
    (h : buildAction (.action type) args = .error e) : e.CanArise := by
  obtain ⟨slots, hSlots⟩ := Except.exists_mapM_eq_ok fun node hNode =>
    Node.exists_variableSlot (.action type)
      (hFit.pointer?_eq (by rintro ⟨⟩) (by rintro ⟨⟩) node hNode)
  rcases Except.bind_eq_error.1 h with h | ⟨⟨⟩, -, h⟩
  · exact Collected.canArise_of_rejectConstraint rfl h
  rcases Except.bind_eq_error.1 h with h | ⟨key, hKey, h⟩
  · unfold actionKey at h
    split at h
    · cases h
      exact (ShapeFault.Concerns.missingKey type).canArise
    · cases h
    · cases h
      exact (ShapeFault.Concerns.extraContent type _).canArise
  have hOperands := length_children_of_actionKey hCount hKey
  rcases Except.bind_eq_error.1 h with h | ⟨_, ⟨⟩, h⟩
  · cases h
  split at h
  · exact absurd hOperands ‹_›
  rcases Except.bind_eq_error.1 h with h | ⟨found, hFound, h⟩
  · cases hSlots.symm.trans h
  have hLength := (Except.mem_of_mapM_eq_ok hFound).1
  obtain ⟨effect, hEffect⟩ := exists_effectOf? args.settings (hLength.trans hOperands)
  rw [hEffect] at h
  cases h

/-! ## Policies -/

/-- The children of a basic policy are conditions, references to conditions and action links. -/
lemma exists_policyParts {effect : TargetEffect} {nodes : List Node}
    (hFit : ∀ node ∈ nodes, node.Fits (.basicPolicy effect)) (command : Command) :
    ∃ parts, policyParts command nodes = .ok parts := by
  induction nodes with
  | nil => exact ⟨_, rfl⟩
  | cons node rest ih =>
    obtain ⟨hNode, hRest⟩ := List.forall_mem_cons.1 hFit
    obtain ⟨parts, hParts⟩ := ih hRest
    rcases hNode.pointer?_eq with hPointer | ⟨⟨link, rfl⟩, -⟩ | ⟨⟨m, rfl⟩, hKind⟩
    · cases node with
      | condition c => exact ⟨_, by rw [policyParts, hParts]; rfl⟩
      | reference r =>
        obtain ⟨kind, target⟩ := r
        cases hPointer
        exact ⟨_, by rw [policyParts, hParts]; rfl⟩
      | «variable» v => cases v <;> cases hPointer
      | policy p => cases p <;> cases hPointer
      | _ => cases hPointer
    · exact ⟨_, by rw [policyParts, hParts]; rfl⟩
    · cases hKind

/-- The children of a set are policies, references to policies, members and action links. -/
lemma exists_setParts {logic : CombinationLogic} {nodes : List Node}
    (hFit : ∀ node ∈ nodes, node.Fits (.policySet logic)) (command : Command) :
    ∃ parts, setParts command nodes = .ok parts := by
  induction nodes with
  | nil => exact ⟨_, rfl⟩
  | cons node rest ih =>
    obtain ⟨hNode, hRest⟩ := List.forall_mem_cons.1 hFit
    obtain ⟨parts, hParts⟩ := ih hRest
    rcases hNode.pointer?_eq with hPointer | ⟨⟨link, rfl⟩, -⟩ | ⟨⟨m, rfl⟩, -⟩
    · cases node with
      | policy p => exact ⟨_, by rw [setParts, hParts]; rfl⟩
      | reference r =>
        obtain ⟨kind, target⟩ := r
        cases hPointer
        exact ⟨_, by rw [setParts, hParts]; rfl⟩
      | «variable» v => cases v <;> cases hPointer
      | condition c => cases c <;> cases hPointer
      | _ => cases hPointer
    · exact ⟨_, by rw [setParts, hParts]; rfl⟩
    · exact ⟨_, by rw [setParts, hParts]; rfl⟩

lemma buildBasicPolicy_error {effect : TargetEffect} (hFit : args.Fit (.basicPolicy effect))
    (h : buildBasicPolicy (.basicPolicy effect) args = .error e) : e.CanArise := by
  obtain ⟨parts, hParts⟩ := exists_policyParts hFit (.basicPolicy effect)
  rcases Except.bind_eq_error.1 h with h | ⟨⟨⟩, -, h⟩
  · exact Collected.canArise_of_rejectContents rfl h
  rcases Except.bind_eq_error.1 h with h | ⟨_, ⟨⟩, h⟩
  · cases h
  rcases Except.bind_eq_error.1 h with h | ⟨⟨conditions, links⟩, -, h⟩
  · cases hParts.symm.trans h
  simp only at h
  split at h
  · cases h
  · rename_i hOne
    cases h
    refine (ShapeFault.Concerns.conditionCount effect fun hLength => ?_).canArise
    obtain ⟨condition, rfl⟩ := List.length_eq_one_iff.1 hLength
    exact hOne condition rfl

lemma buildPolicySet_error {logic : CombinationLogic} (hFit : args.Fit (.policySet logic))
    (h : buildPolicySet (.policySet logic) args = .error e) : e.CanArise := by
  obtain ⟨parts, hParts⟩ := exists_setParts hFit (.policySet logic)
  rcases Except.bind_eq_error.1 h with h | ⟨⟨⟩, -, h⟩
  · exact Collected.canArise_of_rejectContents rfl h
  rcases Except.bind_eq_error.1 h with h | ⟨_, ⟨⟩, h⟩
  · cases h
  rcases Except.bind_eq_error.1 h with h | ⟨⟨members, links⟩, -, h⟩
  · cases hParts.symm.trans h
  simp only at h
  split at h
  · cases h
    exact (ShapeFault.Concerns.noPolicy logic).canArise
  · cases h

lemma buildDefaultPolicy_error {decision : DefaultPolicy}
    (hCount : (Command.defaultPolicy decision).checkCount args = .ok ())
    (h : buildDefaultPolicy (.defaultPolicy decision) args = .error e) : e.CanArise := by
  rcases Except.bind_eq_error.1 h with h | ⟨⟨⟩, -, h⟩
  · cases (rejectContents_of_checkCount hCount rfl).symm.trans h
  rcases Except.bind_eq_error.1 h with h | ⟨⟨⟩, -, h⟩
  · exact Collected.canArise_of_rejectConstraint rfl h
  rcases Except.bind_eq_error.1 h with h | ⟨_, ⟨⟩, h⟩
  · cases h
  cases h

lemma buildMember_error (hFit : args.Fit .member)
    (hCount : Command.member.checkCount args = .ok ())
    (h : buildMember .member args = .error e) : e.CanArise := by
  rcases Except.bind_eq_error.1 h with h | ⟨⟨⟩, hContents, h⟩
  · exact Collected.canArise_of_rejectContents rfl h
  obtain ⟨node, hChild, hPointer⟩ :=
    hFit.exists_singleChild (by decide) (by decide) hCount rfl rfl hContents
  obtain ⟨slot, hSlot⟩ := Node.exists_policySlot .member hPointer
  rcases Except.bind_eq_error.1 h with h | ⟨found, hFound, h⟩
  · cases hChild.symm.trans h
  obtain rfl : node = found := Except.ok.inj (hChild.symm.trans hFound)
  rcases Except.bind_eq_error.1 h with h | ⟨policy, -, h⟩
  · cases hSlot.symm.trans h
  · cases h

/-! ## All commands -/

/-- A command whose children fit, and whose arguments are as many as the grammar demands, is built
or refused with a fault that concerns it. -/
lemma Command.build_error {command : Command} (hFit : args.Fit command)
    (hCount : command.checkCount args = .ok ()) (hConstraint : command ≠ .constraint)
    (hReference : command ≠ .reference) (hOptions : command ≠ .options)
    (h : command.build args = .error e) : e.CanArise := by
  cases command with
  | staticVariable type => exact buildStaticVariable_error hFit hCount (Except.map_eq_error.1 h)
  | resolver engine => exact buildResolver_error hFit hCount (Except.map_eq_error.1 h)
  | dynamicVariable => exact buildDynamicVariable_error hFit (Except.map_eq_error.1 h)
  | atomic operation => exact buildAtomic_error hFit hCount (Except.map_eq_error.1 h)
  | composite logic => exact buildComposite_error hFit (Except.map_eq_error.1 h)
  | constant value => exact buildConstant_error hCount (Except.map_eq_error.1 h)
  | basicPolicy effect => exact buildBasicPolicy_error hFit (Except.map_eq_error.1 h)
  | policySet logic => exact buildPolicySet_error hFit (Except.map_eq_error.1 h)
  | defaultPolicy decision => exact buildDefaultPolicy_error hCount (Except.map_eq_error.1 h)
  | action type => exact buildAction_error hFit hCount (Except.map_eq_error.1 h)
  | actionLink => exact buildActionLink_error hFit hCount (Except.map_eq_error.1 h)
  | member => exact buildMember_error hFit hCount (Except.map_eq_error.1 h)
  | constraint => exact absurd rfl hConstraint
  | reference => exact absurd rfl hReference
  | options => exact absurd rfl hOptions

/-! ## What has been built -/

/-- A command that has been built has children only where the grammar lists references. -/
lemma Command.children_of_build {command : Command} {node : Node}
    (hCount : command.checkCount args = .ok ()) (h : command.build args = .ok node) :
    args.children = [] ∨ command.accepts .reference = true := by
  have hNone (hMost : command.mostArguments? = some 0) : args.children = [] := by
    rw [← List.length_eq_zero_iff]
    exact Nat.le_zero.1 (Nat.le_trans (Nat.le_add_right _ _)
      ((Command.bounds_of_checkCount hCount).2 0 hMost))
  cases command with
  | staticVariable type =>
    obtain ⟨v, hBuild, -⟩ := Except.map_eq_ok.1 h
    obtain ⟨⟨⟩, hChildren, -⟩ := Except.bind_eq_ok.1 hBuild
    exact Or.inl (Collected.children_of_rejectChildren hChildren)
  | resolver engine =>
    obtain ⟨r, hBuild, -⟩ := Except.map_eq_ok.1 h
    obtain ⟨⟨⟩, hChildren, -⟩ := Except.bind_eq_ok.1 hBuild
    exact Or.inl (Collected.children_of_rejectChildren hChildren)
  | constant value => exact Or.inl (hNone rfl)
  | defaultPolicy decision => exact Or.inl (hNone rfl)
  | action type =>
    cases type with
    | clear =>
      obtain ⟨a, hBuild, -⟩ := Except.map_eq_ok.1 h
      obtain ⟨⟨⟩, -, hBuild⟩ := Except.bind_eq_ok.1 hBuild
      obtain ⟨key, hKey, -⟩ := Except.bind_eq_ok.1 hBuild
      exact Or.inl (List.length_eq_zero_iff.1 (length_children_of_actionKey hCount hKey))
    | _ => exact Or.inr rfl
  | constraint | reference | options => cases h
  | _ => exact Or.inr rfl

/-- A command that has been built has a constraint only where one is taken. -/
lemma Command.constraint_of_build {command : Command} {node : Node}
    (h : command.build args = .ok node) :
    args.constraint = none ∨ command.takesConstraint = true := by
  cases command with
  | staticVariable type | resolver engine =>
    obtain ⟨entity, hBuild, -⟩ := Except.map_eq_ok.1 h
    obtain ⟨⟨⟩, -, hBuild⟩ := Except.bind_eq_ok.1 hBuild
    obtain ⟨⟨⟩, hConstraint, -⟩ := Except.bind_eq_ok.1 hBuild
    exact Or.inl (Collected.constraint_of_rejectConstraint hConstraint)
  | dynamicVariable | atomic operation | composite logic | constant value
  | defaultPolicy decision =>
    obtain ⟨entity, hBuild, -⟩ := Except.map_eq_ok.1 h
    obtain ⟨⟨⟩, -, hBuild⟩ := Except.bind_eq_ok.1 hBuild
    obtain ⟨⟨⟩, hConstraint, -⟩ := Except.bind_eq_ok.1 hBuild
    exact Or.inl (Collected.constraint_of_rejectConstraint hConstraint)
  | action type =>
    obtain ⟨a, hBuild, -⟩ := Except.map_eq_ok.1 h
    obtain ⟨⟨⟩, hConstraint, -⟩ := Except.bind_eq_ok.1 hBuild
    exact Or.inl (Collected.constraint_of_rejectConstraint hConstraint)
  | constraint | reference | options => cases h
  | _ => exact Or.inr rfl

lemma constraint_of_buildConstraint {slot : Slot Condition}
    (h : buildConstraint args = .ok slot) : args.constraint = none := by
  obtain ⟨⟨⟩, -, h⟩ := Except.bind_eq_ok.1 h
  obtain ⟨⟨⟩, hConstraint, -⟩ := Except.bind_eq_ok.1 h
  exact Collected.constraint_of_rejectConstraint hConstraint

end PolicyText
