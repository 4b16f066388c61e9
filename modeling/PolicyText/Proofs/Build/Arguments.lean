import PolicyText.Build.Collected
import PolicyText.Proofs.Model.WellFormed
import PolicyText.Proofs.Options.Sound
import PolicyText.Proofs.Outcome

/-!
# What the checks on arguments guarantee

Arguments are `Sound` if the entities, the options and the constraint among them are well formed.
Each check of `Collected` says something about the arguments that pass it, and an entity that is
taken for the content of a slot is well formed there.
-/

namespace PolicyText

/-! ## Entities among arguments -/

/-- An entity among arguments meets demands. -/
def Node.Meets (demands : Demands) : Node → Prop
  | .variable v => v.Meets demands
  | .resolver r => r.Meets demands
  | .condition c => c.Meets demands
  | .policy p => p.Meets demands
  | .action a => a.Meets demands
  | .actionLink link => link.Meets demands
  | .member m => m.Meets demands
  | .reference r => demands.reference r.target

/-- The kind of an entity among arguments. -/
def Node.kind : Node → EntityKind
  | .variable v => v.kind
  | .resolver _ => .resolver
  | .condition c => c.kind
  | .policy p => p.kind
  | .action _ => .action
  | .actionLink _ => .actionLink
  | .member _ => .member
  | .reference _ => .reference

section Slots

variable {demands : Demands} {command : Command} {node : Node}

lemma Node.Meets.variableSlot {slot : Slot Variable} (hNode : node.Meets demands)
    (h : node.variableSlot command = .ok slot) : slot.Meets demands (Variable.Meets demands) := by
  unfold Node.variableSlot at h
  split at h <;> cases h <;> exact hNode

lemma Node.Meets.resolverSlot {slot : Slot Resolver} (hNode : node.Meets demands)
    (h : node.resolverSlot command = .ok slot) : slot.Meets demands (Resolver.Meets demands) := by
  unfold Node.resolverSlot at h
  split at h <;> cases h <;> exact hNode

lemma Node.Meets.conditionSlot {slot : Slot Condition} (hNode : node.Meets demands)
    (h : node.conditionSlot command = .ok slot) :
    slot.Meets demands (Condition.Meets demands) := by
  unfold Node.conditionSlot at h
  split at h <;> cases h <;> exact hNode

lemma Node.Meets.actionSlot {slot : Slot Action} (hNode : node.Meets demands)
    (h : node.actionSlot command = .ok slot) : slot.Meets demands (Action.Meets demands) := by
  unfold Node.actionSlot at h
  split at h <;> cases h <;> exact hNode

lemma Node.Meets.policySlot {slot : Slot Policy} (hNode : node.Meets demands)
    (h : node.policySlot command = .ok slot) : slot.Meets demands (Policy.Meets demands) := by
  unfold Node.policySlot at h
  split at h <;> cases h <;> exact hNode

lemma forall_meets_of_mapM {α : Type} {entity : α → Prop} {read : Node → Except ParseError (Slot α)}
    {nodes : List Node} {slots : List (Slot α)} (hNodes : ∀ node ∈ nodes, node.Meets demands)
    (hRead : ∀ node slot, node.Meets demands → read node = .ok slot → slot.Meets demands entity)
    (h : nodes.mapM read = .ok slots) :
    slots.length = nodes.length ∧ ∀ slot ∈ slots, slot.Meets demands entity := by
  obtain ⟨hLength, hMem⟩ := Except.mem_of_mapM_eq_ok h
  refine ⟨hLength, fun slot hSlot => ?_⟩
  obtain ⟨node, hNode, hEq⟩ := hMem slot hSlot
  exact hRead node slot (hNodes node hNode) hEq

end Slots

/-! ## Arguments -/

namespace Collected

/-- Arguments whose entities, options and constraint are well formed. -/
structure Sound (args : Collected) : Prop where
  children : ∀ node ∈ args.children, node.Meets wellFormed
  options : ∀ o ∈ args.options, o.Sound
  constraint : ConstraintMeets wellFormed args.constraint

variable {args : Collected} {command : Command}

lemma Sound.nothing : Sound {} := by
  refine ⟨List.forall_mem_nil _, ?_, ?_⟩ <;> intro _ h <;> cases h

lemma Sound.consContent (h : args.Sound) (text : String) : (args.consContent text).Sound :=
  ⟨h.children, h.options, h.constraint⟩

lemma Sound.consChild (h : args.Sound) {node : Node} (hNode : node.Meets wellFormed) :
    (args.consChild node).Sound :=
  ⟨List.forall_mem_cons.2 ⟨hNode, h.children⟩, h.options, h.constraint⟩

lemma Sound.consOptions (h : args.Sound) {o : Options} (ho : o.Sound) :
    (args.consOptions o).Sound := by
  refine ⟨h.children, ?_, h.constraint⟩
  rintro found ⟨⟩
  cases hOptions : args.options with
  | none => exact ho
  | some later => exact h.options later hOptions

lemma Sound.consConstraint (h : args.Sound) {slot : Slot Condition}
    (hSlot : slot.Meets wellFormed (Condition.Meets wellFormed)) :
    (args.consConstraint slot).Sound := by
  refine ⟨h.children, h.options, ?_⟩
  rintro found ⟨⟩
  cases hConstraint : args.constraint with
  | none => exact hSlot
  | some later => exact h.constraint later hConstraint

lemma Sound.settings (h : args.Sound) : args.settings.Sound := by
  unfold Collected.settings
  cases hOptions : args.options with
  | none => exact .nothing
  | some o => exact h.options o hOptions

lemma Sound.metadata (h : args.Sound) : args.settings.metadata.WellFormed := by
  have hText := h.settings.text
  exact ⟨hText _ (by simp [Options.metadata]), hText _ (by simp [Options.metadata]),
    h.settings.labels⟩

lemma contents_of_rejectContents (h : args.rejectContents command = .ok ()) :
    args.contents = [] := by
  unfold rejectContents at h
  split at h
  · assumption
  · cases h

lemma children_of_singleChild {node : Node} (h : args.singleChild command = .ok node) :
    args.children = [node] := by
  unfold singleChild at h
  split at h
  · cases h
    assumption
  · cases h

lemma length_children (hContents : args.rejectContents command = .ok ()) :
    args.children.length = args.count := by
  rw [count, contents_of_rejectContents hContents, List.length_nil, Nat.add_zero]

end Collected

lemma Command.bounds_of_checkCount {command : Command} {args : Collected}
    (h : command.checkCount args = .ok ()) :
    command.leastArguments ≤ args.count ∧ ∀ most ∈ command.mostArguments?, args.count ≤ most := by
  unfold checkCount at h
  split at h
  · cases h
  rename_i hLeast
  refine ⟨Nat.le_of_not_lt hLeast, fun most hMost => ?_⟩
  rw [Option.mem_def.1 hMost] at h
  simp only at h
  split at h
  · cases h
  · exact Nat.le_of_not_lt ‹_›

end PolicyText
