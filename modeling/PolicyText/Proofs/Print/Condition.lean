import PolicyText.Proofs.Print.Variable

/-!
# Printing conditions

A condition that can be printed is what its tree means, whatever conditions it contains
(`Condition.prints_tree`); the induction is on how the condition meets the demands of `printable`.
A constraint is printed as a condition, or a reference to one, inside a command of its own
(`constraintPrints_items`).
-/

namespace PolicyText

/-! ## Atomic conditions -/

/-- The options of an atomic condition. -/
def AtomicCondition.options (c : AtomicCondition) : Options :=
  { c.metadata.options with
    negateResult := c.negateResult
    stringIgnoreCase := c.stringIgnoreCase
    fieldsStrictCheck := c.fieldsStrictCheck
    arrayOrderStrictCheck := c.arrayOrderStrictCheck }

/-- The tree of an atomic condition. -/
def AtomicCondition.tree (c : AtomicCondition) : Tree :=
  ⟨.atomic c.operation, .ofParts c.options none [] (slotItems Variable.tree c.args .nil)⟩

/-- An atomic condition that can be printed is what its tree means. -/
lemma AtomicCondition.prints_tree {c : AtomicCondition} (h : c.Meets printable) :
    c.tree.Prints (.condition (.atomic c)) := by
  obtain ⟨hMetadata, hArity, hSlots⟩ := h
  have hLength : c.args.length = c.operation.arity := hArity
  have hOptions : c.options.Writable :=
    .of_metadata hMetadata ⟨rfl, rfl, rfl⟩ forall_mem_none forall_mem_none forall_mem_none
  have hChildren : (slotItems Variable.tree c.args .nil).Prints (.atomic c.operation)
      ((c.args.map (Slot.node .variable .variable)).map .child) :=
    prints_slots (fun slot hSlot => Variable.isPrinted_slot (hSlots slot hSlot) rfl) rfl
  have hCount : (Command.atomic c.operation).checkCount
      ⟨c.args.map (Slot.node .variable .variable), [], some c.options, none⟩ = .ok () := by
    have hNumber : Collected.count
        ⟨c.args.map (Slot.node .variable .variable), [], some c.options, none⟩
        = c.operation.arity := by
      rw [Collected.count, List.length_map, hLength]
      rfl
    refine Command.checkCount_eq_ok ?_ fun most hMost => ?_
    · rw [Command.leastArguments_atomic, hNumber]
    · rw [Command.mostArguments?_atomic] at hMost
      cases hMost
      rw [hNumber]
  have hBuild : (Command.atomic c.operation).build
      ⟨c.args.map (Slot.node .variable .variable), [], some c.options, none⟩
      = .ok (.condition (.atomic c)) := by
    have hArgs : (c.args.map (Slot.node .variable .variable)).mapM
        (Node.variableSlot (.atomic c.operation)) = .ok c.args :=
      mapM_slotNode (fun slot => by cases slot <;> rfl) c.args
    have hNumber : ¬ (c.args.map (Slot.node .variable .variable)).length ≠ c.operation.arity := by
      rw [List.length_map, hLength]
      exact not_not_intro rfl
    have hAtomic : buildAtomic (.atomic c.operation)
        ⟨c.args.map (Slot.node .variable .variable), [], some c.options, none⟩ = .ok c := by
      simp only [buildAtomic, Command.operation?, Command.require, Collected.rejectContents,
        Collected.rejectConstraint, Collected.settings, Option.getD_some, bind, Except.bind, if_neg
        hNumber, hArgs]
      rfl
    simp only [Command.build, Command.kind, hAtomic]
    rfl
  exact Tree.prints_ofParts hOptions constraintPrints_none (List.forall_mem_nil _) hChildren
    hCount hBuild

/-! ## Conditions -/

/-- The options of a combination of conditions. -/
def compositeOptions (metadata : Metadata) (settings : CompositeSettings) : Options :=
  { metadata.options with
    minimumConditions := settings.minimumConditions
    optimize := settings.optimize
    negateResult := settings.negateResult
    strictCheck := settings.strictCheck }

mutual

/-- The tree of a condition. -/
def Condition.tree : Condition → Tree
  | .atomic c => c.tree
  | .composite metadata logic conditions settings =>
    ⟨.composite logic,
      .ofParts (compositeOptions metadata settings) none [] (conditionItems conditions)⟩
  | .constant value => ⟨.constant value, .nil⟩

/-- The items of slots for conditions. -/
def conditionItems : List (Slot Condition) → Items
  | [] => .nil
  | .value c :: rest => .command c.tree.command c.tree.items (conditionItems rest)
  | .ref target :: rest => .reference target.tokens (conditionItems rest)

end

lemma conditionItems_eq (slots : List (Slot Condition)) :
    conditionItems slots = slotItems Condition.tree slots .nil := by
  induction slots with
  | nil => rw [conditionItems, slotItems, List.foldr_nil]
  | cons slot rest ih => cases slot <;> rw [conditionItems, ih] <;> rfl

/-- Whether every condition can stand in a command. -/
def Command.AcceptsConditions (parent : Command) : Prop :=
  parent.accepts .atomicCondition = true ∧ parent.accepts .compositeCondition = true ∧
    parent.accepts .constantCondition = true

lemma Condition.accepts_tree {parent : Command} (hAccepts : parent.AcceptsConditions)
    (c : Condition) : parent.accepts c.tree.command.kind = true := by
  obtain ⟨hAtomic, hComposite, hConstant⟩ := hAccepts
  cases c with
  | atomic c => rw [tree]; exact hAtomic
  | composite => rw [tree]; exact hComposite
  | constant => rw [tree]; exact hConstant

/-- A combination of printed conditions is what its tree means. -/
lemma prints_composite {metadata : Metadata} {logic : Logic} {conditions : List (Slot Condition)}
    {settings : CompositeSettings} (hMetadata : metadata.Printable)
    (hComposite : printable.composite logic conditions settings)
    (hSlots : ∀ slot ∈ conditions,
      slot.IsPrinted Condition.tree .condition (.composite logic)) :
    (Condition.tree (.composite metadata logic conditions settings)).Prints
      (.condition (.composite metadata logic conditions settings)) := by
  obtain ⟨hSome, hNot, hMinimum⟩ := hComposite
  have hOptions : (compositeOptions metadata settings).Writable :=
    .of_metadata hMetadata ⟨rfl, rfl, rfl⟩ forall_mem_none forall_mem_none forall_mem_none
  have hChildren : (slotItems Condition.tree conditions .nil).Prints (.composite logic)
      ((conditions.map (Slot.node .condition .condition)).map .child) :=
    prints_slots hSlots rfl
  have hCount : (Command.composite logic).checkCount
      ⟨conditions.map (Slot.node .condition .condition), [],
        some (compositeOptions metadata settings), none⟩ = .ok () := by
    have hPos := List.length_pos_iff.2 hSome
    refine Command.checkCount_eq_ok ?_ ?_ <;> rw [Collected.count, List.length_map]
    · cases logic <;> exact Nat.le_add_right_of_le hPos
    · cases logic with
      | not =>
        rintro most ⟨⟩
        rw [hNot rfl]
        exact Nat.le_refl 1
      | _ => exact forall_mem_none
  have hBuild : (Command.composite logic).build
      ⟨conditions.map (Slot.node .condition .condition), [],
        some (compositeOptions metadata settings), none⟩
      = .ok (.condition (.composite metadata logic conditions settings)) := by
    have hConditions : (conditions.map (Slot.node .condition .condition)).mapM
        (Node.conditionSlot (.composite logic)) = .ok conditions :=
      mapM_slotNode (fun slot => by cases slot <;> rfl) conditions
    have hCheck : checkMinimum (.composite logic) logic
        ⟨conditions.map (Slot.node .condition .condition), [],
          some (compositeOptions metadata settings), none⟩ = .ok () := by
      unfold checkMinimum
      split
      · rename_i hNOf
        have hGiven : (compositeOptions metadata settings).minimumConditions.isNone = false :=
          Option.isNone_eq_false_iff.2 (Option.isSome_iff_ne_none.2 (hMinimum hNOf))
        simp only [hGiven, Bool.false_eq_true, if_false]
      · rfl
    have hComposite : buildComposite (.composite logic)
        ⟨conditions.map (Slot.node .condition .condition), [],
          some (compositeOptions metadata settings), none⟩
        = .ok (.composite metadata logic conditions settings) := by
      simp only [buildComposite, Command.logic?, Command.require, Collected.rejectContents,
        Collected.rejectConstraint, Collected.settings, Option.getD_some, bind, Except.bind, hCheck,
        hConditions]
      rfl
    simp only [Command.build, Command.kind, hComposite]
    rfl
  rw [Condition.tree, conditionItems_eq]
  exact Tree.prints_ofParts hOptions constraintPrints_none (List.forall_mem_nil _) hChildren
    hCount hBuild

lemma Condition.prints_tree {c : Condition} (h : c.Meets printable) :
    c.tree.Prints (.condition c) := by
  induction h with
  | atomic hAtomic =>
    rw [tree]
    exact AtomicCondition.prints_tree hAtomic
  | composite hMetadata hComposite hValues hReferences ih =>
    refine prints_composite hMetadata hComposite ?_
    rintro (c | target) hSlot
    · exact ⟨ih c hSlot, c.accepts_tree ⟨rfl, rfl, rfl⟩⟩
    · exact hReferences target hSlot
  | constant value =>
    rw [tree]
    exact ⟨rfl, rfl, trivial⟩

lemma Condition.isPrinted_slot {slot : Slot Condition} {parent : Command}
    (hSlot : slot.Meets printable (Condition.Meets printable))
    (hAccepts : parent.AcceptsConditions) :
    slot.IsPrinted Condition.tree .condition parent := by
  cases slot with
  | value c => exact ⟨Condition.prints_tree hSlot, c.accepts_tree hAccepts⟩
  | ref target => exact hSlot

/-! ## Constraints -/

/-- The items of a constraint, if there is one. -/
def constraintItems (constraint : Option (Slot Condition)) : Option Items :=
  constraint.map fun slot => slot.item Condition.tree .nil

lemma constraintPrints_items {constraint : Option (Slot Condition)}
    (h : ConstraintMeets printable constraint) :
    ConstraintPrints (constraintItems constraint) constraint := by
  cases constraint with
  | none => trivial
  | some slot =>
    refine ⟨slot.node .condition .condition, ?_, ?_⟩
    · exact Slot.prints_item (Condition.isPrinted_slot (h slot rfl) ⟨rfl, rfl, rfl⟩) rfl
        (.nil .constraint)
    · cases slot <;> rfl

end PolicyText
