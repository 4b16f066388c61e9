import PolicyText.Proofs.Print.Condition

/-!
# Printing actions

An action that can be printed is what its tree means (`Action.prints_tree`), and so is the part that
an action has in a policy (`ActionLink.prints_tree`).  The flags of an action are those of its kind,
and its operands stand in the order in which the kind uses them.
-/

namespace PolicyText

/-! ## Actions -/

/-- Identity data and the flags of an effect as options. -/
def effectOptions (metadata : Metadata) : Effect → Options
  | .save _ failOnExistingKey =>
    { metadata.options with failOnExistingKey := failOnExistingKey }
  | .clear failOnMissingKey =>
    { metadata.options with failOnMissingKey := failOnMissingKey }
  | .patch _ _ castNullSourceToArray failOnMissingKey failOnNullSource =>
    { metadata.options with
      castNullSourceToArray := castNullSourceToArray
      failOnMissingKey := failOnMissingKey
      failOnNullSource := failOnNullSource }
  | .merge _ _ failOnMissingKey failOnExistingKey failOnNullSource failOnNullMerge =>
    { metadata.options with
      failOnMissingKey := failOnMissingKey
      failOnExistingKey := failOnExistingKey
      failOnNullSource := failOnNullSource
      failOnNullMerge := failOnNullMerge }

lemma metadata_effectOptions (metadata : Metadata) (effect : Effect) :
    (effectOptions metadata effect).metadata = metadata := by
  cases effect <;> rfl

lemma effectOf?_effectOptions (metadata : Metadata) (effect : Effect) :
    effectOf? (effectOptions metadata effect) effect.type effect.operands = some effect := by
  cases effect <;> rfl

lemma Effect.length_operands (effect : Effect) :
    effect.operands.length = effect.type.operandCount := by
  cases effect <;> rfl

lemma writable_effectOptions {metadata : Metadata} (hMetadata : metadata.Printable)
    (effect : Effect) : (effectOptions metadata effect).Writable := by
  refine .of_metadata ?_ ?_ ?_ ?_ ?_
  · rwa [metadata_effectOptions]
  · cases effect <;> exact ⟨rfl, rfl, rfl⟩
  all_goals cases effect <;> exact forall_mem_none

/-- The tree of an action. -/
def Action.tree (a : Action) : Tree :=
  ⟨.action a.effect.type,
    .ofParts (effectOptions a.metadata a.effect) none [a.key]
      (slotItems Variable.tree a.effect.operands .nil)⟩

lemma Action.prints_operands {a : Action} (h : a.Meets printable) :
    (slotItems Variable.tree a.effect.operands .nil).Prints (.action a.effect.type)
      ((a.effect.operands.map (Slot.node .variable .variable)).map .child) := by
  obtain ⟨-, -, hSlots⟩ := h
  refine prints_slots (fun slot hSlot => ?_) rfl
  refine Variable.isPrinted_slot (hSlots slot hSlot) ?_
  -- Only the kind without operands accepts no variables.
  cases hEffect : a.effect with
  | clear =>
    rw [hEffect] at hSlot
    cases hSlot
  | _ => rfl

/-- An action that can be printed is what its tree means. -/
lemma Action.prints_tree {a : Action} (h : a.Meets printable) : a.tree.Prints (.action a) := by
  have hChildren := Action.prints_operands h
  obtain ⟨hMetadata, hKey, -⟩ := h
  have hOptions := writable_effectOptions hMetadata a.effect
  have hContents : ∀ text ∈ [a.key], Representable text.toList :=
    List.forall_mem_singleton.2 hKey
  have hCount : (Command.action a.effect.type).checkCount
      ⟨a.effect.operands.map (Slot.node .variable .variable), [a.key],
        some (effectOptions a.metadata a.effect), none⟩ = .ok () := by
    have hNumber : Collected.count
        ⟨a.effect.operands.map (Slot.node .variable .variable), [a.key],
          some (effectOptions a.metadata a.effect), none⟩
        = a.effect.type.operandCount + 1 := by
      rw [Collected.count, List.length_map, a.effect.length_operands]
      rfl
    refine Command.checkCount_eq_ok ?_ ?_ <;> rw [hNumber]
    · cases a.effect <;> exact Nat.le_refl _
    · cases a.effect <;> rintro most ⟨⟩ <;> exact Nat.le_refl _
  have hBuild : (Command.action a.effect.type).build
      ⟨a.effect.operands.map (Slot.node .variable .variable), [a.key],
        some (effectOptions a.metadata a.effect), none⟩ = .ok (.action a) := by
    have hOperands : (a.effect.operands.map (Slot.node .variable .variable)).mapM
        (Node.variableSlot (.action a.effect.type)) = .ok a.effect.operands :=
      mapM_slotNode (fun slot => by cases slot <;> rfl) a.effect.operands
    have hNumber : ¬ (a.effect.operands.map (Slot.node .variable .variable)).length
        ≠ a.effect.type.operandCount := by
      rw [List.length_map]
      exact not_not_intro a.effect.length_operands
    have hAction : buildAction (.action a.effect.type)
        ⟨a.effect.operands.map (Slot.node .variable .variable), [a.key],
          some (effectOptions a.metadata a.effect), none⟩ = .ok a := by
      simp only [buildAction, Command.actionType?, Command.require, Collected.rejectConstraint,
        actionKey, Collected.settings, Option.getD_some, bind, Except.bind, if_neg hNumber,
        hOperands, effectOf?_effectOptions, metadata_effectOptions]
    simp only [Command.build, Command.kind, hAction]
    rfl
  exact Tree.prints_ofParts hOptions constraintPrints_none hContents hChildren hCount hBuild

/-! ## The part of an action in a policy -/

/-- The options of the part that an action has in a policy. -/
def ActionLink.options (link : ActionLink) : Options :=
  { executionMode := link.executionMode, priority := link.priority }

/-- The tree of the part that an action has in a policy. -/
def ActionLink.tree (link : ActionLink) : Tree :=
  ⟨.actionLink,
    .ofParts link.options (constraintItems link.constraint) [] (link.action.item Action.tree .nil)⟩

lemma Metadata.printable_empty : Metadata.empty.Printable :=
  ⟨forall_mem_none, forall_mem_none, forall_mem_none⟩

/-- The part of an action in a policy is what its tree means if it can be printed. -/
lemma ActionLink.prints_tree {link : ActionLink} (h : link.Meets printable) :
    link.tree.Prints (.actionLink link) := by
  obtain ⟨hModes, hAction, hConstraint⟩ := h
  have hOptions : link.options.Writable :=
    .of_metadata Metadata.printable_empty ⟨rfl, rfl, rfl⟩ forall_mem_none forall_mem_none hModes
  have hSlot : link.action.IsPrinted Action.tree .action .actionLink := by
    cases hSlot : link.action with
    | value a =>
      rw [hSlot] at hAction
      exact ⟨Action.prints_tree hAction, rfl⟩
    | ref target =>
      rw [hSlot] at hAction
      exact hAction
  have hChildren : (link.action.item Action.tree .nil).Prints .actionLink
      ([link.action.node .action .action].map .child) :=
    Slot.prints_item hSlot rfl (.nil .actionLink)
  have hBuild : Command.actionLink.build
      ⟨[link.action.node .action .action], [], some link.options, link.constraint⟩
      = .ok (.actionLink link) := by
    have hRead : (link.action.node .action .action).actionSlot .actionLink = .ok link.action := by
      cases link.action <;> rfl
    have hLink : buildActionLink .actionLink
        ⟨[link.action.node .action .action], [], some link.options, link.constraint⟩
        = .ok link := by
      simp only [buildActionLink, Collected.rejectContents, Collected.singleChild,
        Collected.settings, Option.getD_some, bind, Except.bind, hRead]
      rfl
    simp only [Command.build, Command.kind, hLink]
    rfl
  exact Tree.prints_ofParts hOptions (constraintPrints_items hConstraint)
    (List.forall_mem_nil _) hChildren rfl hBuild

end PolicyText
