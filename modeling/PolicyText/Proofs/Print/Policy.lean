import PolicyText.Proofs.Build.Parse
import PolicyText.Proofs.Print.Action

/-!
# Printing policies

A policy that can be printed is what its tree means, whatever policies it contains
(`Policy.prints_tree`); the induction is on how the policy meets the demands of `printable`.  Every
member of a set is written with a command of its own, which also holds what is said about its part.

The texts of these trees are read back as what was printed, with the entry point of each category
(`parse_print`): the language can express every entity that can be printed.
-/

namespace PolicyText

/-! ## Actions of a policy -/

/-- The items of the actions of a policy. -/
def linkItems (links : List ActionLink) : Items :=
  links.foldr (fun link rest => .command link.tree.command link.tree.items rest) .nil

lemma prints_linkItems {parent : Command} {links : List ActionLink}
    (hLinks : ∀ link ∈ links, link.Meets printable)
    (hAccepts : parent.accepts .actionLink = true) :
    (linkItems links).Prints parent ((links.map Node.actionLink).map .child) := by
  induction links with
  | nil => exact .nil parent
  | cons link links ih =>
    have hRest := ih fun other hOther => hLinks other (List.mem_cons_of_mem _ hOther)
    exact .child (ActionLink.prints_tree (hLinks link List.mem_cons_self)) hAccepts hRest

/-! ## Basic policies -/

/-- The options of a basic policy. -/
def BasicPolicy.options (p : BasicPolicy) : Options :=
  { p.metadata.options with
    strictTargetEffect := p.strictTargetEffect
    lenientConstraints := p.lenientConstraints
    actionExecutionStrategy := p.actionExecutionStrategy
    ignoreErrors := p.ignoreErrors
    skipCache := p.skipCache }

/-- The tree of a basic policy. -/
def BasicPolicy.tree (p : BasicPolicy) : Tree :=
  ⟨.basicPolicy p.targetEffect,
    .ofParts p.options (constraintItems p.constraint) []
      (p.condition.item Condition.tree (linkItems p.actions))⟩

lemma policyParts_children (command : Command) (condition : Slot Condition)
    (links : List ActionLink) :
    policyParts command (condition.node .condition .condition :: links.map .actionLink)
      = .ok ([condition], links) := by
  have hLinks : policyParts command (links.map .actionLink) = .ok ([], links) := by
    induction links with
    | nil => rfl
    | cons link links ih =>
      rw [List.map_cons, policyParts, ih]
      rfl
  cases condition <;> rw [Slot.node, policyParts, hLinks] <;> rfl

/-- A basic policy that can be printed is what its tree means. -/
lemma BasicPolicy.prints_tree {p : BasicPolicy} (h : p.Meets printable) :
    p.tree.Prints (.policy (.basic p)) := by
  obtain ⟨hMetadata, hCondition, hConstraint, hLinks⟩ := h
  have hOptions : p.options.Writable :=
    .of_metadata hMetadata ⟨rfl, rfl, rfl⟩ forall_mem_none forall_mem_none forall_mem_none
  have hSlot : p.condition.IsPrinted Condition.tree .condition (.basicPolicy p.targetEffect) :=
    Condition.isPrinted_slot hCondition ⟨rfl, rfl, rfl⟩
  have hChildren : (p.condition.item Condition.tree (linkItems p.actions)).Prints
      (.basicPolicy p.targetEffect)
      ((p.condition.node .condition .condition :: p.actions.map .actionLink).map .child) :=
    Slot.prints_item hSlot rfl (prints_linkItems hLinks rfl)
  have hCount : (Command.basicPolicy p.targetEffect).checkCount
      ⟨p.condition.node .condition .condition :: p.actions.map .actionLink, [],
        some p.options, p.constraint⟩ = .ok () :=
    Command.checkCount_eq_ok (Nat.succ_le_succ (Nat.zero_le _)) forall_mem_none
  have hBuild : (Command.basicPolicy p.targetEffect).build
      ⟨p.condition.node .condition .condition :: p.actions.map .actionLink, [],
        some p.options, p.constraint⟩ = .ok (.policy (.basic p)) := by
    have hBasic : buildBasicPolicy (.basicPolicy p.targetEffect)
        ⟨p.condition.node .condition .condition :: p.actions.map .actionLink, [],
          some p.options, p.constraint⟩ = .ok p := by
      simp only [buildBasicPolicy, Command.targetEffect?, Command.require, Collected.rejectContents,
        Collected.settings, Option.getD_some, bind, Except.bind, policyParts_children]
      rfl
    simp only [Command.build, Command.kind, hBasic]
    rfl
  exact Tree.prints_ofParts hOptions (constraintPrints_items hConstraint)
    (List.forall_mem_nil _) hChildren hCount hBuild

/-! ## Sets of policies -/

/-- The options of a set. -/
def setOptions (metadata : Metadata) (settings : SetSettings) : Options :=
  { metadata.options with
    lenientConstraints := settings.lenientConstraints
    actionExecutionStrategy := settings.actionExecutionStrategy
    ignoreErrors := settings.ignoreErrors
    skipCache := settings.skipCache
    runChildActions := settings.runChildActions
    indeterminateOnActionFail := settings.indeterminateOnActionFail
    strictUnlessLogic := settings.strictUnlessLogic }

/-- The items of the part that a policy has in a set, given those of the policy. -/
def memberParts (policy : Items) (constraint : Option (Slot Condition))
    (runAction : Option Bool) (priority : Option Text.Integer32) : Items :=
  .ofParts { runAction := runAction, priority := priority } (constraintItems constraint) [] policy

mutual

/-- The tree of a policy. -/
def Policy.tree : Policy → Tree
  | .basic p => p.tree
  | .set metadata logic members settings =>
    ⟨.policySet logic,
      .ofParts (setOptions metadata settings) (constraintItems settings.constraint) []
        (memberItems (linkItems settings.actions) members)⟩
  | .default decision => ⟨.defaultPolicy decision, .nil⟩

/-- The items of the members of a set, in front of those of its actions. -/
def memberItems (links : Items) : List (Member Policy) → Items
  | [] => links
  | ⟨.value p, constraint, runAction, priority⟩ :: rest =>
    .command .member
      (memberParts (.command p.tree.command p.tree.items .nil) constraint runAction priority)
      (memberItems links rest)
  | ⟨.ref target, constraint, runAction, priority⟩ :: rest =>
    .command .member (memberParts (.reference target.tokens .nil) constraint runAction priority)
      (memberItems links rest)

end

/-- The tree of the part that a policy has in a set. -/
def Member.tree (m : Member Policy) : Tree :=
  ⟨.member, memberParts (m.policy.item Policy.tree .nil) m.constraint m.runAction m.priority⟩

lemma memberItems_eq (links : Items) (members : List (Member Policy)) :
    memberItems links members
      = members.foldr (fun m rest => .command m.tree.command m.tree.items rest) links := by
  induction members with
  | nil => rw [memberItems, List.foldr_nil]
  | cons member rest ih =>
    rcases member with ⟨_ | _, _, _, _⟩ <;> rw [memberItems, ih] <;> rfl

lemma setParts_children (command : Command) (members : List (Member Policy))
    (links : List ActionLink) :
    setParts command (members.map .member ++ links.map .actionLink) = .ok (members, links) := by
  have hLinks : setParts command (links.map .actionLink) = .ok ([], links) := by
    induction links with
    | nil => rfl
    | cons link links ih =>
      rw [List.map_cons, setParts, ih]
      rfl
  induction members with
  | nil => exact hLinks
  | cons member members ih =>
    rw [List.map_cons, List.cons_append, setParts, ih]
    rfl

/-- The part of a policy in a set is what its tree means if the policy is, and if what is said about
the part can be printed. -/
lemma Member.prints_tree {m : Member Policy}
    (hPolicy : m.policy.IsPrinted Policy.tree .policy .member)
    (hConstraint : ConstraintMeets printable m.constraint) : m.tree.Prints (.member m) := by
  have hOptions : Options.Writable { runAction := m.runAction, priority := m.priority } :=
    .of_metadata Metadata.printable_empty ⟨rfl, rfl, rfl⟩ forall_mem_none forall_mem_none
      forall_mem_none
  have hChildren : (m.policy.item Policy.tree .nil).Prints .member
      ([m.policy.node .policy .policy].map .child) :=
    Slot.prints_item hPolicy rfl (.nil .member)
  have hBuild : Command.member.build
      ⟨[m.policy.node .policy .policy], [],
        some { runAction := m.runAction, priority := m.priority }, m.constraint⟩
      = .ok (.member m) := by
    have hRead : (m.policy.node .policy .policy).policySlot .member = .ok m.policy := by
      cases m.policy <;> rfl
    have hMember : buildMember .member
        ⟨[m.policy.node .policy .policy], [],
          some { runAction := m.runAction, priority := m.priority }, m.constraint⟩ = .ok m := by
      simp only [buildMember, Collected.rejectContents, Collected.singleChild,
        Collected.settings, Option.getD_some, bind, Except.bind, hRead]
    simp only [Command.build, Command.kind, hMember]
    rfl
  exact Tree.prints_ofParts hOptions (constraintPrints_items hConstraint)
    (List.forall_mem_nil _) hChildren rfl hBuild

lemma prints_memberItems {logic : CombinationLogic} {members : List (Member Policy)}
    {links : List ActionLink} (hMembers : ∀ member ∈ members, member.tree.Prints (.member member))
    (hLinks : ∀ link ∈ links, link.Meets printable) :
    (memberItems (linkItems links) members).Prints (.policySet logic)
      ((members.map Node.member ++ links.map Node.actionLink).map .child) := by
  rw [memberItems_eq]
  induction members with
  | nil => exact prints_linkItems hLinks rfl
  | cons member members ih =>
    have hRest := ih fun other hOther => hMembers other (List.mem_cons_of_mem _ hOther)
    exact .child (hMembers member List.mem_cons_self) rfl hRest

/-- A set of printed members is what its tree means. -/
lemma prints_set {metadata : Metadata} {logic : CombinationLogic}
    {members : List (Member Policy)} {settings : SetSettings} (hMetadata : metadata.Printable)
    (hSome : members ≠ []) (hMembers : ∀ member ∈ members, member.tree.Prints (.member member))
    (hConstraint : ConstraintMeets printable settings.constraint)
    (hLinks : ∀ link ∈ settings.actions, link.Meets printable) :
    (Policy.tree (.set metadata logic members settings)).Prints
      (.policy (.set metadata logic members settings)) := by
  have hOptions : (setOptions metadata settings).Writable :=
    .of_metadata hMetadata ⟨rfl, rfl, rfl⟩ forall_mem_none forall_mem_none forall_mem_none
  have hChildren : (memberItems (linkItems settings.actions) members).Prints (.policySet logic)
      ((members.map Node.member ++ settings.actions.map Node.actionLink).map .child) :=
    prints_memberItems hMembers hLinks
  have hCount : (Command.policySet logic).checkCount
      ⟨members.map .member ++ settings.actions.map .actionLink, [],
        some (setOptions metadata settings), settings.constraint⟩ = .ok () := by
    have hPos := List.length_pos_iff.2 hSome
    refine Command.checkCount_eq_ok ?_ forall_mem_none
    rw [Collected.count, List.length_append, List.length_map]
    exact Nat.le_add_right_of_le (Nat.le_add_right_of_le hPos)
  have hBuild : (Command.policySet logic).build
      ⟨members.map .member ++ settings.actions.map .actionLink, [],
        some (setOptions metadata settings), settings.constraint⟩
      = .ok (.policy (.set metadata logic members settings)) := by
    have hSet : buildPolicySet (.policySet logic)
        ⟨members.map .member ++ settings.actions.map .actionLink, [],
          some (setOptions metadata settings), settings.constraint⟩
        = .ok (.set metadata logic members settings) := by
      have hEmpty : ¬ members.isEmpty = true := by
        rwa [List.isEmpty_iff]
      simp only [buildPolicySet, Command.combination?, Command.require, Collected.rejectContents,
        Collected.settings, Option.getD_some, bind, Except.bind, setParts_children, if_neg hEmpty]
      rfl
    simp only [Command.build, Command.kind, hSet]
    rfl
  rw [Policy.tree]
  exact Tree.prints_ofParts hOptions (constraintPrints_items hConstraint)
    (List.forall_mem_nil _) hChildren hCount hBuild

/-! ## Policies -/

lemma Policy.accepts_tree (p : Policy) : Command.member.accepts p.tree.command.kind = true := by
  cases p <;> rw [tree] <;> rfl

lemma Policy.prints_tree {p : Policy} (h : p.Meets printable) : p.tree.Prints (.policy p) := by
  induction h with
  | basic hBasic =>
    rw [tree]
    exact BasicPolicy.prints_tree hBasic
  | set hMetadata hSome hValues hReferences hConstraints hConstraint hLinks ih =>
    refine prints_set hMetadata hSome ?_ hConstraint hLinks
    intro member hMember
    refine Member.prints_tree ?_ (hConstraints member hMember)
    cases hPolicy : member.policy with
    | value p => exact ⟨ih member hMember p hPolicy, p.accepts_tree⟩
    | ref target => exact hReferences member hMember target hPolicy
  | default decision =>
    rw [tree]
    exact ⟨rfl, rfl, trivial⟩

/-! ## The text of an entity -/

/-- The text of a tree. -/
def Tree.print (tree : Tree) : String :=
  String.ofList tree.render

lemma Tree.Prints.parseNode_print {tree : Tree} {node : Node} (hTree : tree.Prints node)
    {category : Category} (hRoot : category.accepts tree.command.kind = true) :
    parseNode {} category tree.print.toList = .ok node := by
  rw [Tree.print, String.toList_ofList]
  exact hTree.parseNode_render hRoot

lemma Variable.writableLabels_of_parse {limits : Limits} {text : String} {v : Variable}
    (h : Variable.parse limits text = .ok v) :
    ∀ labels ∈ v.metadata.labels, WritableLabels labels := by
  have hMeets : Node.Meets wellFormed (.variable v) :=
    (parseNode_meets (Variable.parseNode_of_parse h)).1
  cases v with
  | static v => exact hMeets.1.labels
  | dynamic v => exact hMeets.1.labels

/-- **The language is complete.**  A variable, a resolver, a condition, an action and a policy that
can be printed are read back from their texts.

Labels are written as one text, which has to be writable as a whole.  That is no loss, because other
labels are read from no text at all. -/
theorem parse_print :
    (∀ v : Variable, v.Meets printable → Variable.parse {} v.tree.print = .ok v) ∧
      (∀ r : Resolver, r.Meets printable → Resolver.parse {} r.tree.print = .ok r) ∧
      (∀ c : Condition, c.Meets printable → Condition.parse {} c.tree.print = .ok c) ∧
      (∀ a : Action, a.Meets printable → Action.parse {} a.tree.print = .ok a) ∧
      (∀ p : Policy, p.Meets printable → Policy.parse {} p.tree.print = .ok p) ∧
      ∀ (limits : Limits) (text : String) (v : Variable), Variable.parse limits text = .ok v →
        ∀ labels ∈ v.metadata.labels, WritableLabels labels := by
  refine ⟨fun v hv => ?_, fun r hr => ?_, fun c hc => ?_, fun a ha => ?_, fun p hp => ?_,
    fun limits text v h => Variable.writableLabels_of_parse h⟩
  · have hRoot : Category.variable.accepts v.tree.command.kind = true := by
      cases v <;> rfl
    rw [Variable.parse, (Variable.prints_tree hv).parseNode_print hRoot]
  · rw [Resolver.parse, (Resolver.prints_tree hr).parseNode_print rfl]
  · have hRoot : Category.condition.accepts c.tree.command.kind = true := by
      cases c <;> rw [Condition.tree] <;> rfl
    rw [Condition.parse, (Condition.prints_tree hc).parseNode_print hRoot]
  · rw [Action.parse, (Action.prints_tree ha).parseNode_print rfl]
  · have hRoot : Category.policy.accepts p.tree.command.kind = true := by
      cases p <;> rw [Policy.tree] <;> rfl
    rw [Policy.parse, (Policy.prints_tree hp).parseNode_print hRoot]

/-! ### A policy for minors -/

/-- The age of the subject. -/
def ageResolver : Resolver :=
  { engine := .jsonPath, expression := "$.age", source := some .subject }

/-- The age, which can also be found in a way that is defined elsewhere. -/
def ageVariable : Variable :=
  .dynamic
    { metadata := { labels := some ["age", "the \x22real\x22 one"] }
      resolvers := [.value ageResolver, .ref { id := "birthday" }]
      type := some .int }

/-- The subject is not of age. -/
def minorCondition : Condition :=
  .composite { id := some "minor" } .not
    [.value
      (.atomic
        { operation := .greaterThanEqual
          args :=
            [.value ageVariable, .value (.static { value := .int ⟨18, by decide⟩ })] })]
    { optimize := some true }

/-- The age is kept. -/
def keepAge : Action :=
  { key := "age, in years", effect := .save (.value ageVariable) (some true) }

/-- Minors are denied. -/
def minorPolicy : Policy :=
  .set {} .denyOverrides
    [{ policy :=
        .value
          (.basic
            { targetEffect := .deny
              condition := .value minorCondition
              actions :=
                [{ action := .value keepAge, executionMode := some { onDeny := true } }] })
       constraint := some (.ref { id := "region" })
       priority := some ⟨-1, by decide⟩ }] {}

/-- The policy for minors and its parts can be printed and are read back. -/
theorem parse_print_minorPolicy :
    Variable.parse {} ageVariable.tree.print = .ok ageVariable ∧
      Resolver.parse {} ageResolver.tree.print = .ok ageResolver ∧
      Condition.parse {} minorCondition.tree.print = .ok minorCondition ∧
      Action.parse {} keepAge.tree.print = .ok keepAge ∧
      Policy.parse {} minorPolicy.tree.print = .ok minorPolicy ∧
      WritableLabels ["age", "the \x22real\x22 one"] := by
  have hText : ∀ text ∈ ["birthday", "region", "$.age", "age, in years", "minor"],
      IsOptionText text := by
    decide +kernel
  have hEmpty : ({} : Metadata).Printable := Metadata.printable_empty
  have hLabels : WritableLabels ["age", "the \x22real\x22 one"] := by
    have hAge : IsBarItem "age".toList := ⟨by decide +kernel, by decide, by decide⟩
    have hReal : IsBarItem "the \x22real\x22 one".toList :=
      ⟨by decide +kernel, by decide, by decide⟩
    exact ⟨by decide, List.forall_mem_cons.2 ⟨hAge, List.forall_mem_singleton.2 hReal⟩,
      .inl (by decide +kernel)⟩
  have hResolver : ageResolver.Meets printable :=
    ⟨hEmpty, (hText "$.age" (by decide)).2, forall_mem_none⟩
  have hVariable : ageVariable.Meets printable := by
    refine ⟨⟨forall_mem_none, forall_mem_none, ?_⟩, ⟨by decide, forall_mem_none⟩, ?_⟩
    · rintro labels ⟨⟩
      exact hLabels
    · exact List.forall_mem_cons.2
        ⟨hResolver, List.forall_mem_singleton.2 (hText "birthday" (by decide)).2⟩
  have hAge : Variable.Meets printable (.static { value := .int ⟨18, by decide⟩ }) :=
    ⟨hEmpty, trivial, rfl, .inl rfl⟩
  have hCondition : minorCondition.Meets printable := by
    refine .composite ⟨?_, forall_mem_none, forall_mem_none⟩ ⟨by decide, fun _ => rfl, ?_⟩ ?_ ?_
    · rintro text ⟨⟩
      exact hText "minor" (by decide)
    · rintro ⟨⟩
    · intro c hc
      obtain ⟨⟩ := List.mem_singleton.1 hc
      exact .atomic ⟨hEmpty, rfl,
        List.forall_mem_cons.2 ⟨hVariable, List.forall_mem_singleton.2 hAge⟩⟩
    · rintro target hTarget
      cases List.mem_singleton.1 hTarget
  have hAction : keepAge.Meets printable := by
    refine ⟨hEmpty, (hText "age, in years" (by decide)).2, ?_⟩
    exact List.forall_mem_singleton.2 hVariable
  have hPolicy : minorPolicy.Meets printable := by
    refine .of_members hEmpty (by rintro ⟨⟩) ?_ forall_mem_none (List.forall_mem_nil _)
    intro member hMember
    obtain rfl := List.mem_singleton.1 hMember
    refine ⟨.basic ⟨hEmpty, hCondition, forall_mem_none, ?_⟩, ?_⟩
    · intro link hLink
      obtain rfl := List.mem_singleton.1 hLink
      refine ⟨?_, hAction, forall_mem_none⟩
      rintro modes ⟨⟩
      decide
    · rintro slot ⟨⟩
      exact (hText "region" (by decide)).2
  exact ⟨parse_print.1 _ hVariable, parse_print.2.1 _ hResolver, parse_print.2.2.1 _ hCondition,
    parse_print.2.2.2.1 _ hAction, parse_print.2.2.2.2.1 _ hPolicy,
    parse_print.2.2.2.2.2 {} _ _ (parse_print.1 _ hVariable) _ rfl⟩

end PolicyText
