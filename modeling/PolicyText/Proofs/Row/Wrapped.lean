import PolicyText.Proofs.Build.Parts
import PolicyText.Proofs.Row.Changed
import PolicyText.Proofs.Row.Interleaved

/-!
# Members of sets with a command of their own

A policy that stands among the children of a set, and a reference to one, is a plain member of the
set.  A member can also be written with a command of its own, between whose parentheses the policy
or the reference stands, and then options and a constraint can be added to it.  If nothing is added,
both ways of writing the member mean the same (`Policy.parse_wrapped`).
-/

namespace PolicyText

variable {limits : Limits} {depth : Nat} {parent : Command} {logic : CombinationLogic}
  {bare : List WrittenItem} {pieces : List Piece} {node : Node}

/-- What stands bare among the members of a set: a text that is read as a policy, or a reference. -/
inductive StandsBare : List WrittenItem → Prop where
  | policy {items : List WrittenItem} {p : Policy}
    (hParse : Policy.parse {} (String.ofList (rowText items)) = .ok p) : StandsBare items
  | reference (space inner : List Char) : StandsBare [.command .reference space inner]

/-- A member of a set that stands bare is written with the command for members. -/
inductive Wrapped : Command → List WrittenItem → List WrittenItem → Prop where
  | member {logic : CombinationLogic} {front bare back : List WrittenItem} (hBare : StandsBare bare) :
    Wrapped (.policySet logic) (front ++ (bare ++ back))
      (front ++ .command .member [] (rowText bare) :: back)

/-! ## Pieces -/

/-- What two rows contribute. -/
lemma rowGives_append {front back : List WrittenItem} :
    RowGives limits depth parent (front ++ back) pieces ↔
      ∃ first second, RowGives limits depth parent front first ∧
        RowGives limits depth parent back second ∧ first ++ second = pieces := by
  induction front generalizing pieces with
  | nil =>
    constructor
    · exact fun h => ⟨[], pieces, .nil, h, rfl⟩
    · rintro ⟨first, second, ⟨⟩, hBack, rfl⟩
      exact hBack
  | cons item front ih =>
    constructor
    · intro h
      cases h with
      | gap c hRest =>
        obtain ⟨first, second, hFront, hBack, rfl⟩ := ih.1 hRest
        exact ⟨first, second, .gap c hFront, hBack, rfl⟩
      | item hItem hRest =>
        obtain ⟨first, second, hFront, hBack, rfl⟩ := ih.1 hRest
        exact ⟨_, second, .item hItem hFront, hBack, rfl⟩
    · rintro ⟨first, second, hFront, hBack, rfl⟩
      cases hFront with
      | gap c hRest => exact .gap c (ih.2 ⟨first, second, hRest, hBack, rfl⟩)
      | item hItem hRest => exact .item hItem (ih.2 ⟨_, second, hRest, hBack, rfl⟩)

/-- Pieces that amount to a single child can be replaced by another child of which the same is
taken. -/
lemma sameParts_replace {α : Type} {take : Node → α} {front middle back : List Piece} {other : Node}
    (hMiddle : Collected.ofPieces middle = { children := [node] }) (hNode : node.link? = none)
    (hOther : other.link? = none) (hTake : take other = take node) :
    (Collected.ofPieces (front ++ (middle ++ back))).SameParts take
      (.ofPieces (front ++ .child other :: back)) := by
  obtain ⟨hChildren, hContents, hOptions, hConstraint⟩ := Collected.mk.inj hMiddle
  rw [List.getLast?_eq_none_iff] at hOptions hConstraint
  refine ⟨?_, ?_, ?_, ?_, ?_⟩
  · simp [Collected.ofPieces, hContents, List.filterMap_cons, Piece.content?]
  · simp [Collected.ofPieces, hOptions, Piece.options?]
  · simp [Collected.ofPieces, hConstraint, Piece.constraint?]
  · simp [Collected.ofPieces, hChildren, Piece.child?, Node.mains_append, Node.mains_cons hNode,
      Node.mains_cons hOther, hTake]
  · simp [Collected.ofPieces, hChildren, Piece.child?, Node.links_append, Node.links_cons hNode,
      Node.links_cons hOther]

lemma Collected.SameParts.makesSame {args others : Collected}
    (h : args.SameParts Node.member? others) :
    (Command.policySet logic).MakesSame args others := by
  refine ⟨h.checkCount _, fun piece hPiece => ?_⟩
  obtain ⟨slot, ⟨⟩, -, -⟩ | ⟨node, hConstraint, hBuild, rfl⟩ := Command.piece_eq_ok hPiece
  rw [Command.piece, if_neg hConstraint, h.build_policySet hBuild]
  rfl

/-! ## Members -/

/-- Where a policy is read on its own it is the one child of every command that accepts its
kind. -/
lemma exists_gives_policy (parent : Command) {p : Policy} (hWhole : ∀ item ∈ bare, item.IsWhole)
    (hParse : Policy.parse {} (String.ofList (rowText bare)) = .ok p)
    (hAccepts : ∀ kind, Category.policy.accepts kind = true → parent.accepts kind = true)
    (depth : Nat) :
    ∃ pieces, RowGives {} depth parent bare pieces ∧
      Collected.ofPieces pieces = { children := [.policy p] } := by
  rw [Policy.parse_eq_ok, String.toList_ofList] at hParse
  obtain ⟨position, child, inner, args, hKind, hInner, hCount, hBuild, hRead⟩ :=
    readArguments_expression hParse 0 [] (isFiller_eq_false (by decide : CharClass.of ')' ≠ .filler))
  obtain ⟨arguments, hReadAs, hRow⟩ := readArguments_row hWhole "" 0 0 []
  -- The row has been read as the one command that the policy is.
  obtain rfl : arguments = .command position child inner .closed := by
    have hSame := congrArg Prod.fst (hRow.symm.trans (hRead "" 0))
    rwa [readArguments_closing] at hSame
  obtain ⟨hConstraint, -, -⟩ := Category.ne_of_accepts hKind
  have hComplete : child.complete args = .ok (Collected.consChild (.policy p)) := by
    refine Command.complete_eq_ok.2 ⟨hCount, .child (.policy p), ?_, rfl⟩
    rw [Command.piece, if_neg hConstraint, hBuild]
    rfl
  exact hReadAs.collect_eq_ok.1 (collect_command_eq_ok.2 ⟨Or.inr (hAccepts _ hKind), rfl, args, _,
    {}, hInner _, hComplete, rfl, rfl⟩)

/-- What stands bare is a member of a set, and the same member between the parentheses of a command
for members. -/
lemma StandsBare.contributes (hBare : StandsBare bare) (hWhole : ∀ item ∈ bare, item.IsWhole)
    (h : RowGives {} depth (.policySet logic) bare pieces) :
    ∃ node slot, Collected.ofPieces pieces = { children := [node] } ∧
      node.policySlot .member = .ok slot ∧
      Command.member.Contributes {} (depth + 1) (rowText bare) (.child (.member (.plain slot))) := by
  obtain ⟨node, slot, hPieces, hSlot, inner, hInner, hSame⟩ : ∃ node slot,
      Collected.ofPieces pieces = { children := [node] } ∧ node.policySlot .member = .ok slot ∧
      ∃ inner, RowGives {} (depth + 1) .member bare inner ∧
        Collected.ofPieces inner = { children := [node] } := by
    cases hBare with
    | @policy _ p hParse =>
      obtain ⟨others, hOthers, hSame⟩ := exists_gives_policy (.policySet logic) hWhole hParse
        (fun kind hKind => by cases kind <;> first | rfl | cases hKind) depth
      obtain ⟨inner, hInner⟩ := exists_gives_policy .member hWhole hParse
        (fun kind hKind => by cases kind <;> first | rfl | cases hKind) (depth + 1)
      rw [h.unique hOthers]
      exact ⟨.policy p, .value p, hSame, rfl, inner, hInner⟩
    | reference space inner =>
      cases h with
      | item hItem hRest =>
        cases hRest
        cases hItem with
        | reference hScan hReference =>
          obtain ⟨target, hTarget, rfl⟩ := (Command.resolveReference_eq_ok rfl).1 hReference
          have hMember : Command.member.resolveReference _ = .ok ⟨.policy, target⟩ :=
            (Command.resolveReference_eq_ok rfl).2 ⟨target, hTarget, rfl⟩
          exact ⟨_, .ref target, rfl, rfl, _, .item (.reference hScan hMember) .nil, rfl⟩
        | command _ hNot => exact absurd rfl hNot
  refine ⟨node, slot, hPieces, hSlot, (Command.contributes_row hWhole).2
    ⟨rfl, inner, hInner, ?_, ?_⟩⟩
  · rw [hSame]
    rfl
  · rw [hSame]
    simp only [Command.piece, Command.build, Command.kind, buildMember, Collected.rejectContents,
      Collected.singleChild, Except.ok_bind, hSlot]
    rfl

/-- Members that are written with the command for members mean the same. -/
lemma keepsMeaning_wrapped : KeepsMeaning {} Wrapped where
  isWhole h hWhole := by
    cases h with
    | @member logic front bare back hBare =>
      simp only [List.mem_append, List.mem_cons] at hWhole ⊢
      rintro item (hFront | rfl | hBack)
      · exact hWhole item (.inl hFront)
      · exact ⟨List.forall_mem_nil _, Command.isClosedBy_row
          (fun item hItem => hWhole item (.inr (.inl hItem))) (by decide) (by decide)⟩
      · exact hWhole item (.inr (.inr hBack))
  gives h hWhole hRow := by
    cases h with
    | @member logic front bare back hBare =>
      obtain ⟨first, others, hFront, hOthers, rfl⟩ := rowGives_append.1 hRow
      obtain ⟨middle, last, hMiddle, hBack, rfl⟩ := rowGives_append.1 hOthers
      obtain ⟨node, slot, hPieces, hSlot, hMember⟩ := hBare.contributes
        (fun item hItem => hWhole item (by simp [hItem])) hMiddle
      obtain ⟨hLink, hNode⟩ := Node.member?_of_policySlot hSlot
      have hItem : (WrittenItem.command .member [] (rowText bare)).Gives {} _ (.policySet logic)
          (.child (.member (.plain slot))) := .command nofun nofun (Or.inr rfl) hMember
      exact ⟨_, rowGives_append.2 ⟨first, _, hFront, .item hItem hBack, rfl⟩,
        (sameParts_replace hPieces hLink rfl hNode.symm).makesSame⟩

/-! ## Sets -/

lemma WrittenItem.IsMember.standsBare_or {item : WrittenItem} {m : Member Policy}
    (h : item.IsMember m) :
    StandsBare [item] ∨ ∃ space inner, item = .command .member space inner := by
  cases h with
  | policy hPolicy =>
    have hText : rowText [item] = item.text := List.append_nil _
    exact Or.inl (.policy (by rw [hText]; exact hPolicy))
  | reference => exact Or.inl (.reference _ _)
  | member => exact Or.inr ⟨_, _, rfl⟩

/-- **A bare member of a set means the same as one that is written with the command for members.**
A text that is read as a policy without limits is a command with a row of whole items, and however
it is taken apart in this way, the following holds.

If the command is that of a set, each of its members stands bare or is written with the command for
members.  What stands bare is any text that is read as a policy on its own, or a reference; and the
same policy is read if the command for members is written around any number of these, here or
between the parentheses of the items, at any depth. -/
theorem Policy.parse_wrapped {text : String} {p : Policy} (hParse : Policy.parse {} text = .ok p) :
    (∃ e : WrittenExpression, text.toList = e.text ∧ e.IsWhole) ∧
      ∀ e : WrittenExpression, text.toList = e.text → e.IsWhole →
        (∀ logic, e.command = .policySet logic → ∀ item ∈ itemsOf .main e.items,
          StandsBare [item] ∨ ∃ space inner, item = .command .member space inner) ∧
        ∀ others, AtAnyDepth Wrapped e.command e.items others →
          Policy.parse {} (String.ofList (e.withItems others).text) = .ok p := by
  rw [Policy.parse_eq_ok] at hParse
  refine ⟨exists_writtenExpression hParse, fun e hText hWhole => ?_⟩
  rw [hText] at hParse
  refine ⟨fun logic hCommand => ?_, fun others hWrapped => ?_⟩
  · obtain ⟨metadata, members, settings, -, hMembers, -⟩ :=
      WrittenExpression.exists_policySet hWhole hCommand hParse
    exact ((List.forall₂_and_left _ _).1
      (hMembers.imp fun item m hMember => ⟨hMember.standsBare_or, hMember⟩)).1
  · rw [Policy.parse_eq_ok, String.toList_ofList]
    exact WrittenExpression.parseNode_changed keepsMeaning_wrapped.atAnyDepth hWhole hWrapped rfl
      hParse

/-- A set of which every member stands bare, and one inside it: a fixed decision with a filler
before it, and a reference. -/
theorem Policy.parse_wrapped_nested :
    ∃ p, Policy.parse {} "*firstAppl( #permit(),*DOverrides(#ref(a)))" = .ok p ∧
      Policy.parse {} "*firstAppl(*pol( #permit()),*DOverrides(*pol(#ref(a))))" = .ok p := by
  obtain ⟨p, hParse⟩ := Except.exists_eq_ok (by decide +kernel : (Policy.parse {}
    "*firstAppl( #permit(),*DOverrides(#ref(a)))").isOk = true)
  obtain ⟨q, hPermit⟩ := Except.exists_eq_ok (by decide +kernel : (Policy.parse {}
    (String.ofList (rowText [.gap ' ', .command (.defaultPolicy .permit) [] []]))).isOk = true)
  have hFirst : Wrapped (.policySet .firstApplicable) _ _ := @Wrapped.member .firstApplicable []
    [.gap ' ', .command (.defaultPolicy .permit) [] []]
    [.gap ',', .command (.policySet .denyOverrides) [] (rowText [.command .reference [] ['a']])]
    (.policy hPermit)
  have hInside := @AtAnyDepth.inside Wrapped (.policySet .firstApplicable)
    (.policySet .denyOverrides) [.command .member [] " #permit()".toList, .gap ','] [] _ _ []
    (by decide) (by decide) (by decide +kernel)
    (.step (@Wrapped.member .denyOverrides [] _ [] (.reference [] ['a'])))
  have hWrapped := ((Policy.parse_wrapped hParse).2 ⟨[], .policySet .firstApplicable, [], _, []⟩
    (by decide +kernel) ⟨nofun, nofun, nofun, by decide +kernel⟩).2 _
    (.trans (.step hFirst) hInside)
  exact ⟨p, hParse, hWrapped⟩

end PolicyText
