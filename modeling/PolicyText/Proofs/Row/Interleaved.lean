import PolicyText.Proofs.Build.Parts
import PolicyText.Proofs.Row.Changed

/-!
# How the items of a row are interleaved

The items of a row have roles: actions, options, constraints, and main arguments, which are all
others.  A command is built from the pieces of each role, in their order, and it does not matter how
the roles are interleaved.

An item gives at most one piece, of its own role, and so the pieces of a role are what its items
give (`RowGives.forall₂`).  Two rows are `Interleaved` if each role has the same items in both
of them; then their pieces have the same children, options and constraint, and a policy that is
built from them is the same (`Interleaved.gives`).  `Moved` lists the steps that a writer takes:
an action changes places with a neighbour, or what stands alone in its role moves.  With what the
items of a policy are (`WrittenExpression.exists_policySet`, `WrittenExpression.exists_basicPolicy`)
this makes `Policy.parse_interleaved`.
-/

namespace PolicyText

/-! ## Roles -/

/-- What an item is to the command around it. -/
inductive Role where
  | main
  | action
  | options
  | constraint
  deriving DecidableEq

/-- The role of an item; what is passed over has none. -/
def WrittenItem.role? : WrittenItem → Option Role
  | .gap _ => none
  | .command .options _ _ => some .options
  | .command .constraint _ _ => some .constraint
  | .command .actionLink _ _ => some .action
  | .command _ _ _ => some .main

/-- Whether an item is a child: an action or a main argument. -/
def WrittenItem.isChild (item : WrittenItem) : Bool :=
  item.role? = some .main || item.role? = some .action

/-- The role of a piece. -/
def Piece.role : Piece → Role
  | .child (.actionLink _) => .action
  | .child _ | .content _ => .main
  | .options _ => .options
  | .constraint _ => .constraint

/-- The items of a role. -/
def itemsOf (role : Role) (items : List WrittenItem) : List WrittenItem :=
  items.filter fun item => item.role? = some role

/-- The pieces of a role. -/
def piecesOf (role : Role) (pieces : List Piece) : List Piece :=
  pieces.filter fun piece => piece.role = role

section Roles

variable {role : Role} {item : WrittenItem}

lemma itemsOf_append (front back : List WrittenItem) :
    itemsOf role (front ++ back) = itemsOf role front ++ itemsOf role back :=
  List.filter_append ..

lemma itemsOf_cons_of_eq (h : item.role? = some role) (items : List WrittenItem) :
    itemsOf role (item :: items) = item :: itemsOf role items :=
  List.filter_cons_of_pos (decide_eq_true h)

lemma itemsOf_cons_of_ne (h : item.role? ≠ some role) (items : List WrittenItem) :
    itemsOf role (item :: items) = itemsOf role items :=
  List.filter_cons_of_neg (by simpa using h)

lemma itemsOf_eq_nil {items : List WrittenItem} (h : ∀ item ∈ items, item.role? ≠ some role) :
    itemsOf role items = [] :=
  List.filter_eq_nil_iff.2 fun item hItem => by simpa using h item hItem

end Roles

variable {limits : Limits} {depth : Nat} {parent : Command} {item : WrittenItem}
  {items others : List WrittenItem} {piece : Piece} {pieces : List Piece}

lemma WrittenItem.Gives.role?_eq (h : item.Gives limits depth parent piece) :
    item.role? = some piece.role := by
  cases h with
  | options => rfl
  | reference => rfl
  | @command child space inner piece hOptions hReference hAdmits hPiece =>
    obtain ⟨-, args, -, -, hPiece⟩ := hPiece
    obtain ⟨slot, rfl, -, rfl⟩ | ⟨node, -, hBuild, rfl⟩ := Command.piece_eq_ok hPiece
    · rfl
    · have hKind := Command.kind_of_build hBuild
      cases node with
      | «variable» v => cases v <;> cases child <;> cases hKind <;> rfl
      | condition c => cases c <;> cases child <;> cases hKind <;> rfl
      | policy p => cases p <;> cases child <;> cases hKind <;> rfl
      | _ =>
        cases child <;> cases hKind
        rfl

lemma RowGives.forall₂ (h : RowGives limits depth parent items pieces) (role : Role) :
    List.Forall₂ (WrittenItem.Gives limits depth parent) (itemsOf role items)
      (piecesOf role pieces) := by
  induction h with
  | nil => exact .nil
  | gap c hRest ih => exact ih
  | @item item items piece pieces hItem hRest ih =>
    have hRole := hItem.role?_eq
    by_cases hSame : piece.role = role
    · rw [itemsOf_cons_of_eq (hRole.trans (congrArg some hSame)), piecesOf,
        List.filter_cons_of_pos (by simpa using hSame)]
      exact .cons hItem ih
    · rw [itemsOf_cons_of_ne (by rw [hRole]; exact fun h => hSame (Option.some.inj h)), piecesOf,
        List.filter_cons_of_neg (by simpa using hSame)]
      exact ih

/-- Items that change places still contribute something. -/
lemma RowGives.of_perm (h : RowGives limits depth parent items pieces) (hPerm : items.Perm others) :
    ∃ moved, RowGives limits depth parent others moved := by
  induction hPerm generalizing pieces with
  | nil => exact ⟨[], .nil⟩
  | cons item hPerm ih =>
    cases h with
    | gap c hRest =>
      obtain ⟨moved, hMoved⟩ := ih hRest
      exact ⟨moved, .gap c hMoved⟩
    | item hItem hRest =>
      obtain ⟨moved, hMoved⟩ := ih hRest
      exact ⟨_, .item hItem hMoved⟩
  | swap first second items =>
    cases h with
    | gap c hRest =>
      cases hRest with
      | gap d hRest => exact ⟨_, .gap d (.gap c hRest)⟩
      | item hItem hRest => exact ⟨_, .item hItem (.gap c hRest)⟩
    | item hFirst hRest =>
      cases hRest with
      | gap d hRest => exact ⟨_, .gap d (.item hFirst hRest)⟩
      | item hItem hRest => exact ⟨_, .item hItem (.item hFirst hRest)⟩
  | trans _ _ ihFirst ihNext =>
    obtain ⟨moved, hMoved⟩ := ihFirst h
    exact ihNext hMoved

/-! ## Interleaving -/

/-- Whether a row consists of the items of another one, with those of each role in the same
order. -/
structure Interleaved (items others : List WrittenItem) : Prop where
  perm : items.Perm others
  ofRole : ∀ role, itemsOf role others = itemsOf role items

lemma filterMap_piecesOf {α : Type} {find : Piece → Option α} (role : Role)
    (hFind : ∀ piece : Piece, piece.role ≠ role → find piece = none) (pieces : List Piece) :
    (piecesOf role pieces).filterMap find = pieces.filterMap find := by
  rw [piecesOf, List.filterMap_filter]
  refine List.filterMap_congr fun piece _ => ?_
  by_cases hRole : piece.role = role
  · rw [if_pos (decide_eq_true hRole)]
  · rw [if_neg (by simpa using hRole), hFind piece hRole]

lemma mains_ofPieces (pieces : List Piece) :
    Node.mains (Collected.ofPieces pieces).children
      = (piecesOf .main pieces).filterMap Piece.child? := by
  induction pieces with
  | nil => rfl
  | cons piece pieces ih =>
    cases piece with
    | child node =>
      cases node with
      | actionLink link => exact ih
      | _ => exact congrArg (_ :: ·) ih
    | _ => exact ih

lemma links_ofPieces (pieces : List Piece) :
    (Node.links (Collected.ofPieces pieces).children).map some
      = ((piecesOf .action pieces).filterMap Piece.child?).map Node.link? := by
  induction pieces with
  | nil => rfl
  | cons piece pieces ih =>
    cases piece with
    | child node =>
      cases node with
      | actionLink link => exact congrArg (_ :: ·) ih
      | _ => exact ih
    | _ => exact ih

lemma sameParts_ofPieces {moved : List Piece}
    (h : ∀ role, piecesOf role moved = piecesOf role pieces) :
    (Collected.ofPieces pieces).SameParts id (.ofPieces moved) := by
  have hFind {α : Type} {find : Piece → Option α} (role : Role)
      (hFind : ∀ piece : Piece, piece.role ≠ role → find piece = none) :
      moved.filterMap find = pieces.filterMap find := by
    rw [← filterMap_piecesOf role hFind, h role, filterMap_piecesOf role hFind]
  refine ⟨hFind .main ?_, congrArg List.getLast? (hFind .options ?_),
    congrArg List.getLast? (hFind .constraint ?_), ?_, ?_⟩
  · rintro (_ | _ | _ | _) hRole <;> first | rfl | exact absurd rfl hRole
  · rintro (_ | _ | _ | _) hRole <;> first | rfl | exact absurd rfl hRole
  · rintro (_ | _ | _ | _) hRole <;> first | rfl | exact absurd rfl hRole
  · rw [mains_ofPieces, mains_ofPieces, h]
  · refine List.map_injective_iff.2 (fun _ _ => Option.some.inj) ?_
    rw [links_ofPieces, links_ofPieces, h]

/-- Where no action can stand, no action link is contributed. -/
lemma RowGives.links_eq_nil (h : RowGives limits depth parent items pieces)
    (hAccepts : parent.accepts .actionLink = false) :
    Node.links (Collected.ofPieces pieces).children = [] := by
  induction h with
  | nil => rfl
  | gap c hRest ih => exact ih
  | @item item items piece pieces hItem hRest ih =>
    have hRole := hItem.role?_eq
    cases hItem with
    | options | reference => exact ih
    | @command child space inner piece hOptions hReference hAdmits hPiece =>
      have hOther : piece.role ≠ .action := by
        rintro hAction
        rw [hAction] at hRole
        cases child with
        | actionLink =>
          obtain ⟨⟨⟩⟩ | hLink := hAdmits
          cases hAccepts.symm.trans hLink
        | _ => cases hRole
      cases piece with
      | child node =>
        cases node with
        | actionLink link => exact absurd rfl hOther
        | _ => exact ih
      | _ => exact ih

/-- Where the action links stand makes no difference to a command, as long as they stand only where
they can. -/
lemma RowGives.makesSame {moved : List Piece} (h : RowGives limits depth parent items pieces)
    (hSame : (Collected.ofPieces pieces).SameParts id (.ofPieces moved)) :
    parent.MakesSame (.ofPieces pieces) (.ofPieces moved) := by
  refine ⟨hSame.checkCount parent, fun piece hPiece => ?_⟩
  obtain ⟨slot, rfl, -, -⟩ | ⟨node, hConstraint, hBuild, rfl⟩ := Command.piece_eq_ok hPiece
  · rwa [hSame.eq_of_links (h.links_eq_nil rfl)]
  · rw [Command.piece, if_neg hConstraint, hSame.build h.links_eq_nil hBuild]
    rfl

lemma Interleaved.gives (hInterleaved : Interleaved items others)
    (h : RowGives limits depth parent items pieces) :
    ∃ moved, RowGives limits depth parent others moved ∧
      parent.MakesSame (.ofPieces pieces) (.ofPieces moved) := by
  obtain ⟨moved, hMoved⟩ := h.of_perm hInterleaved.perm
  refine ⟨moved, hMoved, h.makesSame (sameParts_ofPieces fun role => ?_)⟩
  have hRole := hMoved.forall₂ role
  rw [hInterleaved.ofRole] at hRole
  have hUnique : Relator.RightUnique (WrittenItem.Gives limits depth parent) :=
    fun _ _ _ hFirst hOther => hFirst.unique hOther
  exact hUnique.forall₂ hRole (h.forall₂ role)

open scoped List in
/-- An action that changes places with the child next to it stays in order with the other
actions. -/
lemma Interleaved.swap {front between back : List WrittenItem} {left right : WrittenItem}
    (hRoles : left.role? = some .action ∧ right.role? = some .main ∨
      left.role? = some .main ∧ right.role? = some .action)
    (hBetween : ∀ item ∈ between, item.role? ≠ some .action ∧ item.role? ≠ some .main) :
    Interleaved (front ++ left :: (between ++ right :: back))
      (front ++ right :: (between ++ left :: back)) where
  perm := by
    refine List.Perm.append_left front ?_
    calc left :: (between ++ right :: back)
      _ ~ left :: right :: (between ++ back) := .cons left List.perm_middle
      _ ~ right :: left :: (between ++ back) := .swap right left _
      _ ~ right :: (between ++ left :: back) := .cons right List.perm_middle.symm
  ofRole role := by
    rw [itemsOf_append, itemsOf_append]
    congr 1
    by_cases hMoved : role = .action ∨ role = .main
    · have hNone : itemsOf role between = [] := itemsOf_eq_nil fun item hItem => by
        obtain rfl | rfl := hMoved
        · exact (hBetween item hItem).1
        · exact (hBetween item hItem).2
      obtain rfl | rfl := hMoved <;> obtain ⟨hLeft, hRight⟩ | ⟨hLeft, hRight⟩ := hRoles <;>
        simp [itemsOf_append, itemsOf_cons_of_eq, itemsOf_cons_of_ne, hLeft, hRight, hNone]
    · have hNeither : left.role? ≠ some role ∧ right.role? ≠ some role := by
        obtain ⟨hLeft, hRight⟩ | ⟨hLeft, hRight⟩ := hRoles <;> rw [hLeft, hRight] <;>
          refine ⟨?_, ?_⟩ <;> rintro ⟨⟩ <;> simp at hMoved
      rw [itemsOf_cons_of_ne hNeither.1, itemsOf_cons_of_ne hNeither.2, itemsOf_append,
        itemsOf_append, itemsOf_cons_of_ne hNeither.1, itemsOf_cons_of_ne hNeither.2]

/-- What is the only one of its kind stays in order wherever it moves. -/
lemma Interleaved.move {front back before behind : List WrittenItem} {item : WrittenItem}
    (hAlone : ∀ role, item.role? = some role → ∀ other ∈ front ++ back, other.role? ≠ some role)
    (hSame : front ++ back = before ++ behind) :
    Interleaved (front ++ item :: back) (before ++ item :: behind) where
  perm := by
    refine List.perm_middle.trans (.trans ?_ List.perm_middle.symm)
    rw [hSame]
  ofRole role := by
    have hRows : itemsOf role front ++ itemsOf role back
        = itemsOf role before ++ itemsOf role behind := by
      rw [← itemsOf_append, hSame, itemsOf_append]
    rw [itemsOf_append, itemsOf_append]
    by_cases hRole : item.role? = some role
    · have hNone : itemsOf role front ++ itemsOf role back = [] := by
        rw [← itemsOf_append]
        exact itemsOf_eq_nil (hAlone role hRole)
      obtain ⟨hFront, hBack⟩ := List.append_eq_nil_iff.1 hNone
      obtain ⟨hBefore, hBehind⟩ := List.append_eq_nil_iff.1 (hRows.symm.trans hNone)
      rw [itemsOf_cons_of_eq hRole, itemsOf_cons_of_eq hRole, hFront, hBack, hBefore, hBehind]
    · rw [itemsOf_cons_of_ne hRole, itemsOf_cons_of_ne hRole, hRows]

/-! ## Moving items -/

/-- Whether a row is made from another one by moving items: an action changes places with the child
next to it, or an option list or a constraint that is the only one of its kind moves to any other
place, and so does a character that is passed over. -/
inductive Moved : List WrittenItem → List WrittenItem → Prop where
  | swap {front between back : List WrittenItem} {left right : WrittenItem}
    (hRoles : left.role? = some .action ∧ right.role? = some .main ∨
      left.role? = some .main ∧ right.role? = some .action)
    (hBetween : ∀ item ∈ between, item.role? ≠ some .action ∧ item.role? ≠ some .main) :
    Moved (front ++ left :: (between ++ right :: back)) (front ++ right :: (between ++ left :: back))
  | move {front back before behind : List WrittenItem} {item : WrittenItem}
    (hRole : item.role? ≠ some .action ∧ item.role? ≠ some .main)
    (hAlone : ∀ role, item.role? = some role → ∀ other ∈ front ++ back, other.role? ≠ some role)
    (hSame : front ++ back = before ++ behind) :
    Moved (front ++ item :: back) (before ++ item :: behind)

lemma Moved.interleaved (h : Moved items others) : Interleaved items others := by
  cases h with
  | swap hRoles hBetween => exact .swap hRoles hBetween
  | move hRole hAlone hSame => exact .move hAlone hSame

lemma Moved.length_eq (h : Moved items others) :
    (rowText others).length = (rowText items).length :=
  (h.interleaved.perm.flatMap_right _).length_eq.symm

lemma keepsMeaning_moved (limits : Limits) : KeepsMeaning limits fun _ => Moved where
  isWhole h hWhole item hItem := hWhole item (h.interleaved.perm.mem_iff.2 hItem)
  gives h _ hRow := h.interleaved.gives hRow

/-! ## What items say -/

namespace WrittenItem

/-- What an item says as a member of a set: a policy is a plain member with what its text is read as
on its own, a reference is a plain member that points somewhere, and a command for members is built
from what stands between its parentheses. -/
inductive IsMember : WrittenItem → Member Policy → Prop where
  | policy {item : WrittenItem} {p : Policy}
    (hPolicy : Policy.parse {} (String.ofList item.text) = .ok p) :
    IsMember item (.plain (.value p))
  | reference {space inner : List Char} {entries : List String} {last : Cursor} {target : EntityRef}
    (hScan : scanReference Command.reference.keyword (Cursor.start ('(' :: inner ++ [')']))
      = .ok (entries, last)) (hTarget : entityRefOf entries = .ok target) :
    IsMember (.command .reference space inner) (.plain (.ref target))
  | member {space inner : List Char} {m : Member Policy}
    (hMember : Command.member.Contributes {} 1 inner (.child (.member m))) :
    IsMember (.command .member space inner) m

/-- What an item says as the condition of a policy. -/
inductive IsCondition : WrittenItem → Slot Condition → Prop where
  | condition {item : WrittenItem} {c : Condition}
    (hCondition : Condition.parse {} (String.ofList item.text) = .ok c) :
    IsCondition item (.value c)
  | reference {space inner : List Char} {entries : List String} {last : Cursor} {target : EntityRef}
    (hScan : scanReference Command.reference.keyword (Cursor.start ('(' :: inner ++ [')']))
      = .ok (entries, last)) (hTarget : entityRefOf entries = .ok target) :
    IsCondition (.command .reference space inner) (.ref target)

/-- What an item says as an action of a policy. -/
inductive IsAction : WrittenItem → ActionLink → Prop where
  | actionLink {space inner : List Char} {link : ActionLink}
    (hLink : Command.actionLink.Contributes {} 1 inner (.child (.actionLink link))) :
    IsAction (.command .actionLink space inner) link

end WrittenItem

namespace WrittenItem.Gives

variable {node : Node}

/-- A member of a set is what its item says. -/
lemma isMember {logic : CombinationLogic} {m : Member Policy}
    (h : item.Gives limits depth (.policySet logic) (.child node)) (hWhole : item.IsWhole)
    (hMember : node.member? = some m) : item.IsMember m := by
  cases h with
  | reference hScan hReference =>
    obtain ⟨target, hTarget, rfl⟩ := (Command.resolveReference_eq_ok rfl).1 hReference
    cases hMember
    exact .reference hScan hTarget
  | @command child space inner _ hOptions hReference hAdmits hPiece =>
    have hKind := hPiece.kind_eq
    cases node with
    | policy p =>
      cases hMember
      have hAccepts : Category.policy.accepts child.kind = true := by
        rw [← hKind]
        cases p <;> rfl
      refine .policy (Policy.parse_eq_ok.2 ?_)
      rw [String.toList_ofList]
      exact hPiece.parseNode_eq_ok hAccepts hWhole.1 hWhole.2
    | member found =>
      cases hMember
      cases child <;> cases hKind
      exact .member (hPiece.unlimited 1)
    | reference r =>
      cases child <;> cases hKind
      exact absurd rfl hReference
    | _ => cases hMember

/-- The condition of a basic policy is what its item says. -/
lemma isCondition {effect : TargetEffect} {slot : Slot Condition}
    (h : item.Gives limits depth (.basicPolicy effect) (.child node)) (hWhole : item.IsWhole)
    (hCondition : node.condition? = some slot) : item.IsCondition slot := by
  cases h with
  | reference hScan hReference =>
    obtain ⟨target, hTarget, rfl⟩ := (Command.resolveReference_eq_ok rfl).1 hReference
    cases hCondition
    exact .reference hScan hTarget
  | @command child space inner _ hOptions hReference hAdmits hPiece =>
    have hKind := hPiece.kind_eq
    cases node with
    | condition c =>
      cases hCondition
      have hAccepts : Category.condition.accepts child.kind = true := by
        rw [← hKind]
        cases c <;> rfl
      refine .condition (Condition.parse_eq_ok.2 ?_)
      rw [String.toList_ofList]
      exact hPiece.parseNode_eq_ok hAccepts hWhole.1 hWhole.2
    | reference r =>
      cases child <;> cases hKind
      exact absurd rfl hReference
    | _ => cases hCondition

lemma isAction {link : ActionLink} (h : item.Gives limits depth parent (.child node))
    (hLink : node.link? = some link) : item.IsAction link := by
  cases node with
  | actionLink found =>
    cases hLink
    cases h with
    | @command child space inner _ hOptions hReference hAdmits hPiece =>
      have hKind := hPiece.kind_eq
      cases child <;> cases hKind
      exact .actionLink (hPiece.unlimited 1)
  | _ => cases hLink

lemma exists_child (h : item.Gives limits depth parent piece)
    (hRole : piece.role = .main ∨ piece.role = .action) : ∃ node, piece = .child node := by
  cases h with
  | options => obtain ⟨⟨⟩⟩ | ⟨⟨⟩⟩ := hRole
  | reference => exact ⟨_, rfl⟩
  | command hOptions hReference hAdmits hPiece =>
    obtain ⟨-, args, -, -, hPiece⟩ := hPiece
    obtain ⟨slot, -, -, rfl⟩ | ⟨node, -, -, rfl⟩ := Command.piece_eq_ok hPiece
    · obtain ⟨⟨⟩⟩ | ⟨⟨⟩⟩ := hRole
    · exact ⟨node, rfl⟩

end WrittenItem.Gives

/-- Children are taken from the items that tell them, one from each. -/
lemma forall₂_taken {α : Type} {take : Node → Option α} {tells : WrittenItem → α → Prop}
    {taken : List α} (hRoles : ∀ piece ∈ pieces, piece.role = .main ∨ piece.role = .action)
    (hTells : ∀ item ∈ items, ∀ node a, item.Gives limits depth parent (.child node) →
      take node = some a → tells item a)
    (hTaken : (pieces.filterMap Piece.child?).map take = taken.map some)
    (h : List.Forall₂ (WrittenItem.Gives limits depth parent) items pieces) :
    List.Forall₂ tells items taken := by
  induction h generalizing taken with
  | nil =>
    rw [List.map_eq_nil_iff.1 hTaken.symm]
    exact .nil
  | @cons item piece items pieces hItem hRest ih =>
    obtain ⟨hFirst, hItems⟩ := List.forall_mem_cons.1 hTells
    obtain ⟨hRole, hPieces⟩ := List.forall_mem_cons.1 hRoles
    obtain ⟨node, rfl⟩ := hItem.exists_child hRole
    cases taken with
    | nil => cases hTaken
    | cons a rest =>
      obtain ⟨hNode, hTaken⟩ := List.cons.inj hTaken
      exact .cons (hFirst node a hItem hNode) (ih hPieces hItems hTaken)

lemma role_of_mem_piecesOf {role : Role} (h : piece ∈ piecesOf role pieces) : piece.role = role :=
  of_decide_eq_true (List.mem_filter.1 h).2

lemma RowGives.mains {α : Type} {take : Node → Option α} {tells : WrittenItem → α → Prop}
    {taken : List α} (h : RowGives limits depth parent items pieces)
    (hTells : ∀ item ∈ items, ∀ node a, item.Gives limits depth parent (.child node) →
      take node = some a → tells item a)
    (hTaken : (Node.mains (Collected.ofPieces pieces).children).map take = taken.map some) :
    List.Forall₂ tells (itemsOf .main items) taken := by
  refine forall₂_taken (fun piece hPiece => Or.inl (role_of_mem_piecesOf hPiece))
    (fun item hItem => hTells item (List.mem_of_mem_filter hItem)) ?_ (h.forall₂ .main)
  rw [← hTaken, mains_ofPieces]

lemma RowGives.actions {actions : List ActionLink} (h : RowGives limits depth parent items pieces)
    (hLinks : Node.links (Collected.ofPieces pieces).children = actions) :
    List.Forall₂ WrittenItem.IsAction (itemsOf .action items) actions := by
  refine forall₂_taken (fun piece hPiece => Or.inr (role_of_mem_piecesOf hPiece))
    (fun item _ node link hItem hLink => hItem.isAction hLink) ?_ (h.forall₂ .action)
  rw [← hLinks, links_ofPieces]

lemma length_itemsOf_add (items : List WrittenItem) :
    (itemsOf .main items).length + (itemsOf .action items).length
      = (items.filter WrittenItem.isChild).length := by
  induction items with
  | nil => rfl
  | cons item items ih =>
    rcases hRole : item.role? with _ | _ | _ | _ | _ <;>
      simp [itemsOf_cons_of_eq, itemsOf_cons_of_ne, hRole, WrittenItem.isChild] <;>
      omega

/-! ## Policies -/

namespace WrittenExpression

variable {e : WrittenExpression}

lemma exists_policySet {logic : CombinationLogic} (hWhole : e.IsWhole)
    (hCommand : e.command = .policySet logic) {node : Node}
    (h : parseNode limits .policy e.text = .ok node) :
    ∃ metadata members settings, node = .policy (.set metadata logic members settings) ∧
      List.Forall₂ WrittenItem.IsMember (itemsOf .main e.items) members ∧
      List.Forall₂ WrittenItem.IsAction (itemsOf .action e.items) settings.actions := by
  obtain ⟨-, -, -, pieces, hRow, -, hBuild⟩ := (parseNode_eq_ok hWhole).1 h
  rw [hCommand] at hRow hBuild
  obtain ⟨metadata, members, settings, rfl, hParts⟩ := parts_of_build_policySet hBuild
  obtain ⟨hMembers, hActions⟩ := setParts_eq_ok.1 hParts
  exact ⟨metadata, members, settings, rfl, hRow.mains (fun item hItem node m hGives =>
    hGives.isMember (hWhole.items item hItem)) hMembers, hRow.actions hActions⟩

lemma exists_basicPolicy {effect : TargetEffect} (hWhole : e.IsWhole)
    (hCommand : e.command = .basicPolicy effect) {node : Node}
    (h : parseNode limits .policy e.text = .ok node) :
    ∃ (b : BasicPolicy) (item : WrittenItem), node = .policy (.basic b) ∧ b.targetEffect = effect ∧
      itemsOf .main e.items = [item] ∧ item.IsCondition b.condition ∧
      List.Forall₂ WrittenItem.IsAction (itemsOf .action e.items) b.actions := by
  obtain ⟨-, -, -, pieces, hRow, -, hBuild⟩ := (parseNode_eq_ok hWhole).1 h
  rw [hCommand] at hRow hBuild
  obtain ⟨b, rfl, hEffect, hParts⟩ := parts_of_build_basicPolicy hBuild
  obtain ⟨hCondition, hActions⟩ := policyParts_eq_ok.1 hParts
  have hConditions := hRow.mains (fun item hItem node slot hGives =>
    hGives.isCondition (hWhole.items item hItem)) hCondition
  obtain ⟨item, _, hItem, hNone, hItems⟩ := List.forall₂_cons_right_iff.1 hConditions
  rw [List.forall₂_nil_right_iff.1 hNone] at hItems
  exact ⟨b, item, rfl, hEffect, hItems, hItem, hRow.actions hActions⟩

end WrittenExpression

/-- **The items of a policy are neither lost nor duplicated nor reordered, and it does not matter
how they are interleaved.**  A text that is read as a policy is a command with a row of whole items,
and however it is taken apart in this way, the following holds.

If the command is that of a set, the main arguments among the items are the members of the set and
the actions among them its actions, each in the order of the text, and all children are one or the
other.  If it is that of a basic policy, exactly one of the items is a main argument, wherever it
stands: the condition; and the actions are those of the policy, in the order of the text.  What a
child says does not depend on the other items, for it is what the text of the child says on its own.

The same policy is read, under the same limits, if the items are rearranged at any depth: if actions
change places with the children next to them, and an option list or a constraint that is the only
one of its kind, or a character that is passed over, moves anywhere. -/
theorem Policy.parse_interleaved {text : String} {p : Policy}
    (hParse : Policy.parse limits text = .ok p) :
    (∃ e : WrittenExpression, text.toList = e.text ∧ e.IsWhole) ∧
      ∀ e : WrittenExpression, text.toList = e.text → e.IsWhole →
        (∀ logic, e.command = .policySet logic → ∃ metadata members settings,
          p = .set metadata logic members settings ∧
          List.Forall₂ WrittenItem.IsMember (itemsOf .main e.items) members ∧
          List.Forall₂ WrittenItem.IsAction (itemsOf .action e.items) settings.actions ∧
          members.length + settings.actions.length
            = (e.items.filter WrittenItem.isChild).length) ∧
        (∀ effect, e.command = .basicPolicy effect → ∃ b item,
          p = .basic b ∧ b.targetEffect = effect ∧
          itemsOf .main e.items = [item] ∧ item.IsCondition b.condition ∧
          List.Forall₂ WrittenItem.IsAction (itemsOf .action e.items) b.actions) ∧
        ∀ others, AtAnyDepth (fun _ => Moved) e.command e.items others →
          Policy.parse limits (String.ofList (e.withItems others).text) = .ok p := by
  rw [Policy.parse_eq_ok] at hParse
  refine ⟨exists_writtenExpression hParse, fun e hText hWhole => ?_⟩
  rw [hText] at hParse
  refine ⟨?_, ?_, ?_⟩
  · intro logic hCommand
    obtain ⟨metadata, members, settings, hPolicy, hMembers, hActions⟩ :=
      WrittenExpression.exists_policySet hWhole hCommand hParse
    cases hPolicy
    refine ⟨metadata, members, settings, rfl, hMembers, hActions, ?_⟩
    rw [← hMembers.length_eq, ← hActions.length_eq, length_itemsOf_add]
  · intro effect hCommand
    obtain ⟨b, item, hPolicy, hBasic⟩ :=
      WrittenExpression.exists_basicPolicy hWhole hCommand hParse
    cases hPolicy
    exact ⟨b, item, rfl, hBasic⟩
  · intro others hMoved
    have hLength := hMoved.length_eq Moved.length_eq
    rw [Policy.parse_eq_ok, String.toList_ofList]
    refine WrittenExpression.parseNode_changed (keepsMeaning_moved limits).atAnyDepth hWhole hMoved
      ?_ hParse
    simp only [Limits.checkLength, WrittenExpression.text, WrittenExpression.withItems,
      List.length_append, Command.length_enclosing, hLength]

/-- A set inside a set, of which the action and the member change places. -/
theorem Policy.parse_interleaved_nested :
    ∃ p, Policy.parse {} "*firstAppl(#permit(),*firstAppl(*act(#ref(a)),#deny()))" = .ok p ∧
      Policy.parse {} "*firstAppl(#permit(),*firstAppl(#deny(),*act(#ref(a))))" = .ok p := by
  obtain ⟨p, hParse⟩ := Except.exists_eq_ok (by decide +kernel : (Policy.parse {}
    "*firstAppl(#permit(),*firstAppl(*act(#ref(a)),#deny()))").isOk = true)
  have hSwap : Moved
      [.command .actionLink [] "#ref(a)".toList, .gap ',', .command (.defaultPolicy .deny) [] []]
      [.command (.defaultPolicy .deny) [] [], .gap ',', .command .actionLink [] "#ref(a)".toList] :=
    @Moved.swap [] [.gap ','] [] _ _ (Or.inl ⟨rfl, rfl⟩) (by decide)
  have hInside := @AtAnyDepth.inside (fun _ => Moved) (.policySet .firstApplicable)
    (.policySet .firstApplicable) [.command (.defaultPolicy .permit) [] [], .gap ','] [] _ _ []
    (by decide) (by decide) (by decide +kernel) (.step hSwap)
  have hMoved := ((Policy.parse_interleaved hParse).2 ⟨[], .policySet .firstApplicable, [], _, []⟩
    (by decide +kernel) ⟨nofun, nofun, nofun, by decide +kernel⟩).2.2 _ hInside
  exact ⟨p, hParse, hMoved⟩

end PolicyText
