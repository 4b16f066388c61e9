import PolicyText.Build.Reference
import PolicyText.Proofs.Build.Entity
import PolicyText.Proofs.Build.Faults

/-!
# The tables of the grammar agree

Three tables say what can stand inside a command: the kinds of its children
(`Command.children`), what a reference means there (`EntityKind.referenceKind?`), and the children
that its builder takes.  The first two are compared row by row (`Command.pointer?_of_mem_children`):
a row lists the kinds for which its references stand, apart from action links in policies and sets
and members in sets.

`Node.Fits` is what these two tables let through as a child.  Whatever fits is found acceptable by
the check that turns a child into a slot (`Node.exists_variableSlot` and its like), so that the
error of that check is never reported.  The same is said of the other checks that the bounds of the
grammar make superfluous.
-/

namespace PolicyText

/-! ## Children that fit -/

/-- The kind of reference that can stand for an entity of a kind. -/
def EntityKind.pointer? : EntityKind → Option ReferenceKind
  | .staticVariable | .dynamicVariable => some .variable
  | .resolver => some .resolver
  | .atomicCondition | .compositeCondition | .constantCondition => some .condition
  | .basicPolicy | .policySet | .defaultPolicy => some .policy
  | .action => some .action
  | .reference | .options | .constraint | .actionLink | .member => none

/-- In every row of the grammar the kinds of children are those for which the references of the row
stand, with two exceptions: in policies there are action links, and in sets also members. -/
lemma Command.pointer?_of_mem_children {command : Command} {kind : EntityKind}
    (h : kind ∈ command.children) :
    kind = .reference ∨ kind.pointer? = command.kind.referenceKind? ∨
      (kind = .actionLink ∧ (command.kind = .basicPolicy ∨ command.kind = .policySet)) ∨
      (kind = .member ∧ command.kind = .policySet) := by
  have hRows : ∀ command ∈ all, ∀ kind ∈ command.children,
      kind = .reference ∨ kind.pointer? = command.kind.referenceKind? ∨
        (kind = .actionLink ∧ (command.kind = .basicPolicy ∨ command.kind = .policySet)) ∨
        (kind = .member ∧ command.kind = .policySet) := by
    decide +kernel
  exact hRows command (mem_all command) kind h

namespace Node

/-- The kind of reference that can stand for an entity, or that it is itself. -/
def pointer? : Node → Option ReferenceKind
  | .reference r => some r.kind
  | node => node.kind.pointer?

/-- An entity is let through as a child of a command: it is of a kind that the command accepts, or a
reference that means what references mean there. -/
def Fits (parent : Command) : Node → Prop
  | .reference r => parent.kind.referenceKind? = some r.kind
  | node => parent.accepts node.kind = true

variable {command : Command} {node : Node}

lemma Fits.pointer?_eq (h : node.Fits command) :
    node.pointer? = command.kind.referenceKind? ∨
      ((∃ link, node = .actionLink link) ∧
        (command.kind = .basicPolicy ∨ command.kind = .policySet)) ∨
      ((∃ m, node = .member m) ∧ command.kind = .policySet) := by
  have hRow (h : command.accepts node.kind = true) :=
    Command.pointer?_of_mem_children (List.contains_iff_mem.1 h)
  cases node with
  | reference r => exact Or.inl h.symm
  | actionLink link => simpa [kind, pointer?] using hRow h
  | member m => simpa [kind, pointer?] using hRow h
  | condition c => cases c <;> simpa [kind, Condition.kind, pointer?] using hRow h
  | policy p => cases p <;> simpa [kind, Policy.kind, pointer?] using hRow h
  | «variable» v => cases v <;> simpa [kind, Variable.kind, pointer?] using hRow h
  | _ => simpa [kind, pointer?] using hRow h

lemma not_fits (hChildren : command.children = [])
    (hReference : command.kind.referenceKind? = none) : ¬ node.Fits command := by
  intro h
  have hKind : command.accepts node.kind = false := by rw [Command.accepts, hChildren]; rfl
  cases node with
  | reference r => cases hReference.symm.trans h
  | _ => cases hKind.symm.trans h

lemma exists_variableSlot (command : Command) (h : node.pointer? = some .variable) :
    ∃ slot, node.variableSlot command = .ok slot := by
  cases node with
  | «variable» v => exact ⟨.value v, rfl⟩
  | reference r => obtain ⟨kind, target⟩ := r; cases h; exact ⟨.ref target, rfl⟩
  | condition c => cases c <;> cases h
  | policy p => cases p <;> cases h
  | _ => cases h

lemma exists_resolverSlot (command : Command) (h : node.pointer? = some .resolver) :
    ∃ slot, node.resolverSlot command = .ok slot := by
  cases node with
  | resolver r => exact ⟨.value r, rfl⟩
  | reference r => obtain ⟨kind, target⟩ := r; cases h; exact ⟨.ref target, rfl⟩
  | «variable» v => cases v <;> cases h
  | condition c => cases c <;> cases h
  | policy p => cases p <;> cases h
  | _ => cases h

lemma exists_conditionSlot (command : Command) (h : node.pointer? = some .condition) :
    ∃ slot, node.conditionSlot command = .ok slot := by
  cases node with
  | condition c => exact ⟨.value c, rfl⟩
  | reference r => obtain ⟨kind, target⟩ := r; cases h; exact ⟨.ref target, rfl⟩
  | «variable» v => cases v <;> cases h
  | policy p => cases p <;> cases h
  | _ => cases h

lemma exists_actionSlot (command : Command) (h : node.pointer? = some .action) :
    ∃ slot, node.actionSlot command = .ok slot := by
  cases node with
  | action a => exact ⟨.value a, rfl⟩
  | reference r => obtain ⟨kind, target⟩ := r; cases h; exact ⟨.ref target, rfl⟩
  | «variable» v => cases v <;> cases h
  | condition c => cases c <;> cases h
  | policy p => cases p <;> cases h
  | _ => cases h

lemma exists_policySlot (command : Command) (h : node.pointer? = some .policy) :
    ∃ slot, node.policySlot command = .ok slot := by
  cases node with
  | policy p => exact ⟨.value p, rfl⟩
  | reference r => obtain ⟨kind, target⟩ := r; cases h; exact ⟨.ref target, rfl⟩
  | «variable» v => cases v <;> cases h
  | condition c => cases c <;> cases h
  | _ => cases h

end Node

/-! ## What the checks refuse -/

namespace Collected

variable {command : Command} {args : Collected} {e : ParseError}

/-- All children among arguments fit. -/
def Fit (command : Command) (args : Collected) : Prop :=
  ∀ node ∈ args.children, node.Fits command

lemma Fit.pointer?_eq (h : args.Fit command) (hPolicy : command.kind ≠ .basicPolicy)
    (hSet : command.kind ≠ .policySet) :
    ∀ node ∈ args.children, node.pointer? = command.kind.referenceKind? := by
  intro node hNode
  rcases (h node hNode).pointer?_eq with hPointer | ⟨-, hKind | hKind⟩ | ⟨-, hKind⟩
  · exact hPointer
  · exact absurd hKind hPolicy
  · exact absurd hKind hSet
  · exact absurd hKind hSet

lemma Fit.children_eq_nil (h : args.Fit command) (hChildren : command.children = [])
    (hReference : command.kind.referenceKind? = none) : args.children = [] :=
  List.eq_nil_iff_forall_not_mem.2 fun node hNode =>
    Node.not_fits hChildren hReference (h node hNode)

lemma canArise_of_rejectContents (hCommand : command.takesEntities = true)
    (h : args.rejectContents command = .error e) : e.CanArise := by
  unfold rejectContents at h
  split at h
  · cases h
  · cases h
    exact (ShapeFault.Concerns.unexpectedContent _ hCommand).canArise

lemma canArise_of_rejectConstraint (hCommand : command.takesConstraint = false)
    (h : args.rejectConstraint command = .error e) : e.CanArise := by
  unfold rejectConstraint at h
  split at h
  · cases h
  · cases h
    exact (ShapeFault.Concerns.unsupportedConstraint hCommand).canArise

lemma constraint_of_rejectConstraint (h : args.rejectConstraint command = .ok ()) :
    args.constraint = none := by
  unfold rejectConstraint at h
  split at h
  · assumption
  · cases h

lemma children_of_rejectChildren (h : args.rejectChildren command = .ok ()) :
    args.children = [] := by
  unfold rejectChildren at h
  split at h
  · assumption
  · cases h

lemma exists_singleContent (hChildren : args.children = []) (hCount : args.count = 1) :
    ∃ text, args.singleContent command = .ok text := by
  rw [count, hChildren, List.length_nil, Nat.zero_add] at hCount
  obtain ⟨text, hText⟩ := List.length_eq_one_iff.1 hCount
  exact ⟨text, by rw [singleContent, hText]⟩

end Collected

lemma Command.count_eq_of_checkCount {command : Command} {args : Collected} {n : Nat}
    (h : command.checkCount args = .ok ()) (hLeast : command.leastArguments = n)
    (hMost : command.mostArguments? = some n) : args.count = n := by
  obtain ⟨hLow, hHigh⟩ := bounds_of_checkCount h
  exact Nat.le_antisymm (hHigh n hMost) (hLeast ▸ hLow)

/-- Where the grammar demands one argument and contents are refused, the argument is a child, and it
is what references stand for. -/
lemma Collected.Fit.exists_singleChild {command : Command} {args : Collected}
    (h : args.Fit command) (hPolicy : command.kind ≠ .basicPolicy)
    (hSet : command.kind ≠ .policySet) (hCount : command.checkCount args = .ok ())
    (hLeast : command.leastArguments = 1) (hMost : command.mostArguments? = some 1)
    (hContents : args.rejectContents command = .ok ()) :
    ∃ node, args.singleChild command = .ok node ∧
      node.pointer? = command.kind.referenceKind? := by
  have hOne := Command.count_eq_of_checkCount hCount hLeast hMost
  rw [count, contents_of_rejectContents hContents, List.length_nil, Nat.add_zero] at hOne
  obtain ⟨node, hNode⟩ := List.length_eq_one_iff.1 hOne
  refine ⟨node, by rw [singleChild, hNode], h.pointer?_eq hPolicy hSet node ?_⟩
  rw [hNode]
  exact .head []

end PolicyText
