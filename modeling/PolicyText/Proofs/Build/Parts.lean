import PolicyText.Build.Entity
import PolicyText.Proofs.Outcome

/-!
# The parts of a policy

The children of a basic policy and those of a set are told apart while the policy is built: the
action links among them become its actions (`Node.links`), and the others its condition or its
members (`Node.mains`).  Each of the two keeps its order, and nothing else about the children
matters (`policyParts_eq_ok`, `setParts_eq_ok`).

So the same is built from arguments that differ in where the action links stand among the children
(`Collected.SameParts.build`), and the same set from children that are the same as members
(`Collected.SameParts.build_policySet`).
-/

namespace PolicyText

/-! ## Children -/

namespace Node

/-- The action link that a child is. -/
def link? : Node → Option ActionLink
  | .actionLink link => some link
  | _ => none

/-- What a child is as the condition of a basic policy. -/
def condition? : Node → Option (Slot Condition)
  | .condition c => some (.value c)
  | .reference ⟨.condition, target⟩ => some (.ref target)
  | _ => none

/-- What a child is as a member of a set.  A policy and a reference to one are plain members. -/
def member? : Node → Option (Member Policy)
  | .policy p => some (.plain (.value p))
  | .reference ⟨.policy, target⟩ => some (.plain (.ref target))
  | .member m => some m
  | _ => none

/-- The action links among children. -/
def links (children : List Node) : List ActionLink :=
  children.filterMap Node.link?

/-- The children that are no action links. -/
def mains (children : List Node) : List Node :=
  children.filter fun node => node.link?.isNone

lemma links_cons_actionLink (link : ActionLink) (rest : List Node) :
    links (.actionLink link :: rest) = link :: links rest :=
  rfl

lemma mains_cons_actionLink (link : ActionLink) (rest : List Node) :
    mains (.actionLink link :: rest) = mains rest :=
  rfl

lemma links_cons {node : Node} (h : node.link? = none) (rest : List Node) :
    links (node :: rest) = links rest := by
  rw [links, List.filterMap_cons_none h, links]

lemma mains_cons {node : Node} (h : node.link? = none) (rest : List Node) :
    mains (node :: rest) = node :: mains rest := by
  rw [mains, List.filter_cons_of_pos (by rw [h]; rfl), mains]

lemma eq_actionLink {node : Node} {link : ActionLink} (h : node.link? = some link) :
    node = .actionLink link := by
  cases node <;> cases h
  rfl

lemma links_append (front back : List Node) : links (front ++ back) = links front ++ links back :=
  List.filterMap_append

lemma mains_append (front back : List Node) : mains (front ++ back) = mains front ++ mains back :=
  List.filter_append ..

lemma length_mains_add (children : List Node) :
    (mains children).length + (links children).length = children.length := by
  induction children with
  | nil => rfl
  | cons node rest ih =>
    cases hLink : node.link? with
    | none =>
      rw [mains_cons hLink, links_cons hLink, List.length_cons, List.length_cons]
      omega
    | some link =>
      obtain rfl := eq_actionLink hLink
      rw [mains_cons_actionLink, links_cons_actionLink, List.length_cons, List.length_cons]
      omega

lemma mains_eq_self {children : List Node} (h : links children = []) : mains children = children :=
  List.filter_eq_self.2 fun node hNode =>
    Option.isNone_iff_eq_none.2 (List.filterMap_eq_nil_iff.1 h node hNode)

end Node

/-! ## Parts -/

/-- A way to take children apart: the action links are set aside, and of every other child something
is taken, or there is an error. -/
structure TakesApart {α : Type} (take : Node → Option α)
    (parts : List Node → Except ParseError (List α × List ActionLink)) : Prop where
  nil : parts [] = .ok ([], [])
  link : ∀ (link : ActionLink) (rest : List Node), parts (.actionLink link :: rest) = (do
    let (taken, actions) ← parts rest
    .ok (taken, link :: actions))
  main : ∀ (node : Node) (a : α) (rest : List Node), take node = some a →
    parts (node :: rest) = (do
      let (taken, actions) ← parts rest
      .ok (a :: taken, actions))
  other : ∀ (node : Node) (rest : List Node), node.link? = none → take node = none →
    ∃ e, parts (node :: rest) = .error e

/-- What is taken from children comes from those that are no action links, in their order, and so do
the actions from those that are. -/
lemma TakesApart.eq_ok {α : Type} {take : Node → Option α}
    {parts : List Node → Except ParseError (List α × List ActionLink)} (h : TakesApart take parts)
    {children : List Node} {taken : List α} {actions : List ActionLink} :
    parts children = .ok (taken, actions) ↔
      (Node.mains children).map take = taken.map some ∧ Node.links children = actions := by
  induction children generalizing taken actions with
  | nil =>
    rw [h.nil]
    constructor
    · rintro ⟨⟩
      exact ⟨rfl, rfl⟩
    · rintro ⟨hTaken, rfl⟩
      rw [List.map_eq_nil_iff.1 hTaken.symm]
      rfl
  | cons node rest ih =>
    cases hLink : node.link? with
    | some link =>
      obtain rfl := Node.eq_actionLink hLink
      rw [h.link, Node.mains_cons_actionLink, Node.links_cons_actionLink]
      constructor
      · intro hParts
        obtain ⟨⟨found, others⟩, hRest, hParts⟩ := Except.bind_eq_ok.1 hParts
        cases hParts
        obtain ⟨hFound, rfl⟩ := ih.1 hRest
        exact ⟨hFound, rfl⟩
      · rintro ⟨hTaken, rfl⟩
        rw [ih.2 ⟨hTaken, rfl⟩]
        rfl
    | none =>
      rw [Node.mains_cons hLink, Node.links_cons hLink, List.map_cons]
      cases hMain : take node with
      | none =>
        obtain ⟨e, hError⟩ := h.other node rest hLink hMain
        rw [hError]
        constructor
        · rintro ⟨⟩
        · rintro ⟨hTaken, -⟩
          cases taken <;> cases hTaken
      | some a =>
        rw [h.main node a rest hMain]
        constructor
        · intro hParts
          obtain ⟨⟨found, others⟩, hRest, hParts⟩ := Except.bind_eq_ok.1 hParts
          cases hParts
          obtain ⟨hFound, rfl⟩ := ih.1 hRest
          exact ⟨congrArg (some a :: ·) hFound, rfl⟩
        · rintro ⟨hTaken, rfl⟩
          cases taken with
          | nil => cases hTaken
          | cons first found =>
            obtain ⟨hFirst, hFound⟩ := List.cons.inj hTaken
            cases hFirst
            rw [ih.2 ⟨hFound, rfl⟩]
            rfl

variable {command : Command} {children : List Node} {actions : List ActionLink}

/-- The children of a basic policy are taken apart. -/
lemma takesApart_policyParts (command : Command) :
    TakesApart Node.condition? (policyParts command) where
  nil := rfl
  link _ _ := rfl
  main node slot rest hCondition := by
    cases node with
    | condition c =>
      cases hCondition
      rfl
    | reference r =>
      obtain ⟨_ | _ | _ | _ | _, target⟩ := r <;> cases hCondition
      rfl
    | _ => cases hCondition
  other node rest hLink hCondition := by
    cases node with
    | condition c => cases hCondition
    | actionLink link => cases hLink
    | reference r =>
      obtain ⟨_ | _ | _ | _ | _, target⟩ := r
      case condition => cases hCondition
      all_goals exact ⟨_, rfl⟩
    | _ => exact ⟨_, rfl⟩

/-- The children of a set are taken apart. -/
lemma takesApart_setParts (command : Command) :
    TakesApart Node.member? (setParts command) where
  nil := rfl
  link _ _ := rfl
  main node member rest hMember := by
    cases node with
    | policy p =>
      cases hMember
      rfl
    | member m =>
      cases hMember
      rfl
    | reference r =>
      obtain ⟨_ | _ | _ | _ | _, target⟩ := r <;> cases hMember
      rfl
    | _ => cases hMember
  other node rest hLink hMember := by
    cases node with
    | policy p => cases hMember
    | member m => cases hMember
    | actionLink link => cases hLink
    | reference r =>
      obtain ⟨_ | _ | _ | _ | _, target⟩ := r
      case policy => cases hMember
      all_goals exact ⟨_, rfl⟩
    | _ => exact ⟨_, rfl⟩

lemma policyParts_eq_ok {conditions : List (Slot Condition)} :
    policyParts command children = .ok (conditions, actions) ↔
      (Node.mains children).map Node.condition? = conditions.map some ∧
        Node.links children = actions :=
  (takesApart_policyParts command).eq_ok

lemma setParts_eq_ok {members : List (Member Policy)} :
    setParts command children = .ok (members, actions) ↔
      (Node.mains children).map Node.member? = members.map some ∧ Node.links children = actions :=
  (takesApart_setParts command).eq_ok

lemma Node.member?_of_policySlot {node : Node} {slot : Slot Policy}
    (h : node.policySlot command = .ok slot) :
    node.link? = none ∧ node.member? = some (.plain slot) := by
  unfold policySlot at h
  split at h <;> cases h <;> exact ⟨rfl, rfl⟩

/-! ## What is built -/

variable {args others : Collected} {node : Node}

lemma parts_of_build_basicPolicy {effect : TargetEffect}
    (h : (Command.basicPolicy effect).build args = .ok node) :
    ∃ p : BasicPolicy, node = .policy (.basic p) ∧ p.targetEffect = effect ∧
      policyParts (.basicPolicy effect) args.children = .ok ([p.condition], p.actions) := by
  obtain ⟨p, hBuild, rfl⟩ := Except.map_eq_ok.1 h
  obtain ⟨⟨⟩, -, hBuild⟩ := Except.bind_eq_ok.1 hBuild
  obtain ⟨_, ⟨⟩, hBuild⟩ := Except.bind_eq_ok.1 hBuild
  obtain ⟨⟨conditions, actions⟩, hParts, hBuild⟩ := Except.bind_eq_ok.1 hBuild
  simp only at hBuild
  split at hBuild
  · cases hBuild
    exact ⟨_, rfl, rfl, hParts⟩
  · cases hBuild

lemma parts_of_build_policySet {logic : CombinationLogic}
    (h : (Command.policySet logic).build args = .ok node) :
    ∃ metadata members settings, node = .policy (.set metadata logic members settings) ∧
      setParts (.policySet logic) args.children = .ok (members, settings.actions) := by
  obtain ⟨p, hBuild, rfl⟩ := Except.map_eq_ok.1 h
  obtain ⟨⟨⟩, -, hBuild⟩ := Except.bind_eq_ok.1 hBuild
  obtain ⟨_, ⟨⟩, hBuild⟩ := Except.bind_eq_ok.1 hBuild
  obtain ⟨⟨members, actions⟩, hParts, hBuild⟩ := Except.bind_eq_ok.1 hBuild
  simp only at hBuild
  split at hBuild
  · cases hBuild
  · cases hBuild
    exact ⟨_, _, _, rfl, hParts⟩

lemma build_basicPolicy_congr {effect : TargetEffect} (hContents : others.contents = args.contents)
    (hOptions : others.options = args.options) (hConstraint : others.constraint = args.constraint)
    (hParts : ∀ parts, policyParts (.basicPolicy effect) args.children = .ok parts →
      policyParts (.basicPolicy effect) others.children = .ok parts)
    (h : (Command.basicPolicy effect).build args = .ok node) :
    (Command.basicPolicy effect).build others = .ok node := by
  obtain ⟨p, hBuild, hPolicy⟩ := Except.map_eq_ok.1 h
  obtain ⟨⟨⟩, hNone, hBuild⟩ := Except.bind_eq_ok.1 hBuild
  obtain ⟨_, ⟨⟩, hBuild⟩ := Except.bind_eq_ok.1 hBuild
  obtain ⟨parts, hFound, hBuild⟩ := Except.bind_eq_ok.1 hBuild
  have hSettings : others.settings = args.settings := by
    rw [Collected.settings, hOptions, Collected.settings]
  refine Except.map_eq_ok.2 ⟨p, Except.bind_eq_ok.2 ⟨(), ?_, Except.bind_eq_ok.2 ⟨effect, rfl,
    Except.bind_eq_ok.2 ⟨parts, hParts parts hFound, ?_⟩⟩⟩, hPolicy⟩
  · rw [Collected.rejectContents, hContents]
    exact hNone
  · rw [hSettings, hConstraint]
    exact hBuild

lemma build_policySet_congr {logic : CombinationLogic} (hContents : others.contents = args.contents)
    (hOptions : others.options = args.options) (hConstraint : others.constraint = args.constraint)
    (hParts : ∀ parts, setParts (.policySet logic) args.children = .ok parts →
      setParts (.policySet logic) others.children = .ok parts)
    (h : (Command.policySet logic).build args = .ok node) :
    (Command.policySet logic).build others = .ok node := by
  obtain ⟨p, hBuild, hPolicy⟩ := Except.map_eq_ok.1 h
  obtain ⟨⟨⟩, hNone, hBuild⟩ := Except.bind_eq_ok.1 hBuild
  obtain ⟨_, ⟨⟩, hBuild⟩ := Except.bind_eq_ok.1 hBuild
  obtain ⟨parts, hFound, hBuild⟩ := Except.bind_eq_ok.1 hBuild
  have hSettings : others.settings = args.settings := by
    rw [Collected.settings, hOptions, Collected.settings]
  refine Except.map_eq_ok.2 ⟨p, Except.bind_eq_ok.2 ⟨(), ?_, Except.bind_eq_ok.2 ⟨logic, rfl,
    Except.bind_eq_ok.2 ⟨parts, hParts parts hFound, ?_⟩⟩⟩, hPolicy⟩
  · rw [Collected.rejectContents, hContents]
    exact hNone
  · rw [hSettings, hConstraint]
    exact hBuild

/-- Whether arguments have the same parts, of which something is taken: the action links among the
children can stand elsewhere, and of each other child the same is taken. -/
structure Collected.SameParts {α : Type} (take : Node → α) (args others : Collected) : Prop where
  contents : others.contents = args.contents
  options : others.options = args.options
  constraint : others.constraint = args.constraint
  mains : (Node.mains others.children).map take = (Node.mains args.children).map take
  links : Node.links others.children = Node.links args.children

namespace Collected.SameParts

lemma checkCount {α : Type} {take : Node → α} (h : args.SameParts take others)
    (command : Command) : command.checkCount others = command.checkCount args := by
  have hMains := congrArg List.length h.mains
  rw [List.length_map, List.length_map] at hMains
  have hCount : others.count = args.count := by
    rw [count, count, ← Node.length_mains_add others.children, hMains, h.links,
      Node.length_mains_add, h.contents]
  rw [Command.checkCount, hCount, Command.checkCount]

lemma build_policySet {logic : CombinationLogic} (h : args.SameParts Node.member? others)
    (hBuild : (Command.policySet logic).build args = .ok node) :
    (Command.policySet logic).build others = .ok node := by
  refine build_policySet_congr h.contents h.options h.constraint ?_ hBuild
  rintro ⟨members, actions⟩ hParts
  rw [setParts_eq_ok] at hParts ⊢
  rwa [h.mains, h.links]

lemma eq_of_links (h : args.SameParts id others) (hLinks : Node.links args.children = []) :
    others = args := by
  obtain ⟨children, contents, options, constraint⟩ := args
  obtain ⟨hContents, hOptions, hConstraint, hMains, hSame⟩ := h
  cases others with
  | mk others =>
    cases hContents
    cases hOptions
    cases hConstraint
    rw [List.map_id, List.map_id, Node.mains_eq_self hLinks,
      Node.mains_eq_self (hSame.trans hLinks)] at hMains
    cases hMains
    rfl

/-- The same is built, if action links stand only where they can. -/
lemma build (h : args.SameParts id others)
    (hLinks : command.accepts .actionLink = false → Node.links args.children = [])
    (hBuild : command.build args = .ok node) : command.build others = .ok node := by
  have hMains := h.mains
  rw [List.map_id, List.map_id] at hMains
  cases command with
  | basicPolicy effect =>
    refine build_basicPolicy_congr h.contents h.options h.constraint ?_ hBuild
    rintro ⟨conditions, actions⟩ hParts
    rw [policyParts_eq_ok] at hParts ⊢
    rwa [hMains, h.links]
  | policySet logic =>
    have hMembers : args.SameParts Node.member? others :=
      ⟨h.contents, h.options, h.constraint, by rw [hMains], h.links⟩
    exact hMembers.build_policySet hBuild
  | action type =>
    cases type <;> rwa [h.eq_of_links (hLinks rfl)]
  | _ => rwa [h.eq_of_links (hLinks rfl)]

end Collected.SameParts

end PolicyText
