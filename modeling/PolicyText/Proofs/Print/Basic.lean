import PolicyText.Proofs.Options.Entries
import PolicyText.Proofs.Tree.Render

/-!
# Trees that print entities

An entity is printed as a tree of commands, and the tree as its plain text.  `Tree.Prints` collects
what has to be known of a tree for this: it means the entity, the commands in it are accepted where
they stand, and its tokens are read back as they are written.  `Items.Prints` is the same for what
stands between the parentheses of a command, and the lemmas about it go through the items one by
one.

All commands with options are printed alike (`Items.ofParts`): first the options, then a constraint
if there is one, then contents, then children.
-/

namespace PolicyText

/-! ## Items -/

/-- Items are written soundly and contribute the given pieces to the command around them. -/
structure Items.Prints (parent : Command) (items : Items) (pieces : List Piece) : Prop where
  pieces_eq : items.pieces parent = .ok pieces
  fits : items.fits parent = true
  sound : items.Sound

/-- A tree is written soundly and means the given entity. -/
structure Tree.Prints (tree : Tree) (node : Node) : Prop where
  node_eq : tree.node = .ok node
  fits : tree.fits = true
  sound : tree.items.Sound

namespace Items.Prints

variable {parent : Command} {rest : Items} {pieces : List Piece}

lemma nil (parent : Command) : Items.Prints parent .nil [] :=
  ⟨rfl, rfl, trivial⟩

lemma content {text : String} (hText : Representable text.toList)
    (hRest : rest.Prints parent pieces) :
    Items.Prints parent (.content (.ofText text.toList) rest) (.content text :: pieces) where
  pieces_eq := by
    rw [Items.pieces, hRest.pieces_eq, Token.text_ofText, String.ofList_toList]
    rfl
  fits := hRest.fits
  sound := ⟨Token.begins_ofText hText, Token.sound_ofText (Or.inl hText), hRest.sound⟩

lemma options {o : Options} (ho : o.Writable) (hRest : rest.Prints parent pieces) :
    Items.Prints parent (.options o.entries rest) (.options o :: pieces) where
  pieces_eq := by
    rw [Items.pieces, ho.ofRaw_entries, hRest.pieces_eq]
    rfl
  fits := hRest.fits
  sound := ⟨ho.isWritten_entries, hRest.sound⟩

/-- A tree that prints an entity contributes it as a child. -/
lemma child {tree : Tree} {node : Node} (hTree : tree.Prints node)
    (hAccepts : parent.accepts tree.command.kind = true) (hRest : rest.Prints parent pieces) :
    Items.Prints parent (.command tree.command tree.items rest) (.child node :: pieces) := by
  have hNode := hTree.node_eq
  rw [Tree.node] at hNode
  obtain ⟨args, hArgs, hNode⟩ := Except.bind_eq_ok.1 hNode
  obtain ⟨⟨⟩, hCount, hBuild⟩ := Except.bind_eq_ok.1 hNode
  obtain ⟨innerPieces, hInner, rfl⟩ := Except.map_eq_ok.1 hArgs
  -- Constraints, references and option lists are not built into entities.
  have hPlain : tree.command ≠ .constraint ∧ tree.command ≠ .reference ∧
      tree.command ≠ .options := by
    refine ⟨?_, ?_, ?_⟩ <;>
    · intro hCommand
      rw [hCommand] at hBuild
      cases hBuild
  obtain ⟨hConstraint, hReference, hOptions⟩ := hPlain
  refine ⟨?_, ?_, hOptions, hReference, hTree.sound, hRest.sound⟩
  · rw [Items.pieces, if_neg hConstraint, hInner]
    simp only [bind, Except.bind, hCount, hBuild, hRest.pieces_eq]
  · have hInnerFits : tree.items.fits tree.command = true := hTree.fits
    rw [Items.fits, hAccepts, hInnerFits, hRest.fits, Bool.or_true]
    rfl

lemma constraint {inner : Items} {slot : Slot Condition} {node : Node}
    (hInner : inner.Prints .constraint [.child node])
    (hSlot : node.conditionSlot .constraint = .ok slot) (hRest : rest.Prints parent pieces) :
    Items.Prints parent (.command .constraint inner rest) (.constraint slot :: pieces) where
  pieces_eq := by
    have hBuild : buildConstraint (.ofPieces [.child node]) = .ok slot := hSlot
    have hCount : Command.constraint.checkCount (.ofPieces [.child node]) = .ok () := rfl
    rw [Items.pieces, if_pos rfl, hInner.pieces_eq]
    simp only [bind, Except.bind, hCount, hBuild, hRest.pieces_eq]
  fits := by
    rw [Items.fits, hInner.fits, hRest.fits, decide_eq_true rfl, Bool.true_or]
    rfl
  sound := ⟨by decide, by decide, hInner.sound, hRest.sound⟩

end Items.Prints

/-! ## References -/

/-- The tokens of a reference: the id and the version, if there is one. -/
def EntityRef.tokens (target : EntityRef) : List Token :=
  .ofText target.id.toList ::
    match target.version with
    | none => []
    | some v => [.ofText v.text.toList]

lemma entityRefOf_tokens (target : EntityRef) :
    entityRefOf (target.tokens.map fun token => String.ofList token.text) = .ok target := by
  have hText (text : String) : String.ofList (Token.ofText text.toList).text = text := by
    rw [Token.text_ofText, String.ofList_toList]
  rcases target with ⟨id, _ | v⟩
  · have hTokens : (EntityRef.tokens ⟨id, none⟩).map (fun token => String.ofList token.text)
        = [id] := by
      rw [EntityRef.tokens, List.map_cons, hText, List.map_nil]
    rw [hTokens]
    rfl
  · have hTokens : (EntityRef.tokens ⟨id, some v⟩).map (fun token => String.ofList token.text)
        = [id, v.text] := by
      rw [EntityRef.tokens, List.map_cons, List.map_cons, hText, hText, List.map_nil]
    have hVersion : readVersion v.text = .ok v := by
      unfold readVersion
      rw [Version.parse?_text]
    rw [hTokens]
    unfold entityRefOf
    simp only [hVersion]

lemma EntityRef.sound_tokens {target : EntityRef} (h : Representable target.id.toList) :
    ∀ token ∈ target.tokens, token.Begins ∧ token.Sound := by
  have hText {text : List Char} (hText : Representable text) :
      (Token.ofText text).Begins ∧ (Token.ofText text).Sound :=
    ⟨Token.begins_ofText hText, Token.sound_ofText (Or.inl hText)⟩
  intro token hToken
  obtain rfl | hVersion := List.mem_cons.1 hToken
  · exact hText h
  · rcases target with ⟨id, _ | v⟩
    · cases hVersion
    · obtain rfl := List.mem_singleton.1 hVersion
      refine hText (representable_of_not_mem fun hBacktick => ?_)
      have hChar := v.isVersionChar_of_mem hBacktick
      cases hChar

lemma Items.Prints.reference {parent : Command} {rest : Items} {pieces : List Piece}
    {target : EntityRef} {kind : ReferenceKind} (hTarget : Representable target.id.toList)
    (hKind : parent.kind.referenceKind? = some kind) (hRest : rest.Prints parent pieces) :
    Items.Prints parent (.reference target.tokens rest)
      (.child (.reference ⟨kind, target⟩) :: pieces) where
  pieces_eq := by
    have hResolve : parent.resolveReference
        (target.tokens.map fun token => String.ofList token.text) = .ok ⟨kind, target⟩ := by
      rw [Command.resolveReference, entityRefOf_tokens]
      simp only [hKind]
    rw [Items.pieces, hResolve, hRest.pieces_eq]
    rfl
  fits := hRest.fits
  sound := by
    refine ⟨EntityRef.sound_tokens hTarget, ?_, hRest.sound⟩
    rcases target with ⟨id, _ | v⟩
    · exact Or.inl rfl
    · exact Or.inr rfl

/-! ## Slots -/

section Slots

variable {α : Type}

/-- What stands in a slot, in front of other items. -/
def Slot.item (tree : α → Tree) : Slot α → Items → Items
  | .value a, rest => .command (tree a).command (tree a).items rest
  | .ref target, rest => .reference target.tokens rest

/-- What stands in a slot, as it stands among the arguments of a command. -/
def Slot.node (node : α → Node) (kind : ReferenceKind) : Slot α → Node
  | .value a => node a
  | .ref target => .reference ⟨kind, target⟩

/-- What stands in slots, in front of other items. -/
def slotItems (tree : α → Tree) (slots : List (Slot α)) (rest : Items) : Items :=
  slots.foldr (Slot.item tree) rest

/-- What stands in a slot can be printed inside a command. -/
def Slot.IsPrinted (tree : α → Tree) (node : α → Node) (parent : Command) : Slot α → Prop
  | .value a => (tree a).Prints (node a) ∧ parent.accepts (tree a).command.kind = true
  | .ref target => Representable target.id.toList

variable {tree : α → Tree} {node : α → Node} {kind : ReferenceKind} {parent : Command}
  {rest : Items} {pieces : List Piece}

lemma Slot.prints_item {slot : Slot α} (hSlot : slot.IsPrinted tree node parent)
    (hKind : parent.kind.referenceKind? = some kind) (hRest : rest.Prints parent pieces) :
    (slot.item tree rest).Prints parent (.child (slot.node node kind) :: pieces) := by
  cases slot with
  | value a => exact .child hSlot.1 hSlot.2 hRest
  | ref target => exact .reference hSlot hKind hRest

lemma prints_slotItems {slots : List (Slot α)}
    (hSlots : ∀ slot ∈ slots, slot.IsPrinted tree node parent)
    (hKind : parent.kind.referenceKind? = some kind) (hRest : rest.Prints parent pieces) :
    (slotItems tree slots rest).Prints parent
      ((slots.map (Slot.node node kind)).map .child ++ pieces) := by
  induction slots with
  | nil => exact hRest
  | cons slot slots ih =>
    exact Slot.prints_item (hSlots slot List.mem_cons_self) hKind
      (ih fun other hOther => hSlots other (List.mem_cons_of_mem _ hOther))

lemma prints_slots {slots : List (Slot α)}
    (hSlots : ∀ slot ∈ slots, slot.IsPrinted tree node parent)
    (hKind : parent.kind.referenceKind? = some kind) :
    (slotItems tree slots .nil).Prints parent ((slots.map (Slot.node node kind)).map .child) := by
  have hItems := prints_slotItems hSlots hKind (.nil parent)
  rwa [List.append_nil] at hItems

lemma mapM_slotNode {read : Node → Except ParseError (Slot α)}
    (hRead : ∀ slot : Slot α, read (slot.node node kind) = .ok slot) (slots : List (Slot α)) :
    (slots.map (Slot.node node kind)).mapM read = .ok slots := by
  rw [Except.mapM_map_eq_ok hRead, List.map_id']

end Slots

/-! ## The parts of an entity -/

/-- The items of an entity: its options, the items of its constraint, its contents, its children. -/
def Items.ofParts (o : Options) (constraint : Option Items) (contents : List String)
    (children : Items) : Items :=
  .options o.entries
    ((constraint.map (Items.command .constraint ·)).getD id
      (contents.foldr (fun text rest => .content (.ofText text.toList) rest) children))

/-- What the parts of an entity contribute. -/
def partPieces (o : Options) (constraint : Option (Slot Condition)) (contents : List String)
    (children : List Node) : List Piece :=
  .options o :: (constraint.toList.map .constraint ++ (contents.map .content ++
    children.map .child))

/-- The items of a constraint are printed, if there is one. -/
def ConstraintPrints (inner : Option Items) (constraint : Option (Slot Condition)) : Prop :=
  match inner, constraint with
  | none, none => True
  | some items, some slot =>
    ∃ node, items.Prints .constraint [.child node] ∧ node.conditionSlot .constraint = .ok slot
  | _, _ => False

/-- The parts of an entity contribute themselves. -/
lemma Items.prints_ofParts {parent : Command} {o : Options} {inner : Option Items}
    {constraint : Option (Slot Condition)} {contents : List String} {children : Items}
    {nodes : List Node} (ho : o.Writable) (hConstraint : ConstraintPrints inner constraint)
    (hContents : ∀ text ∈ contents, Representable text.toList)
    (hChildren : children.Prints parent (nodes.map .child)) :
    (Items.ofParts o inner contents children).Prints parent
      (partPieces o constraint contents nodes) := by
  have hRest : (contents.foldr (fun text rest => Items.content (.ofText text.toList) rest)
      children).Prints parent (contents.map .content ++ nodes.map .child) := by
    induction contents with
    | nil => exact hChildren
    | cons text contents ih =>
      exact .content (hContents text List.mem_cons_self)
        (ih fun other hOther => hContents other (List.mem_cons_of_mem _ hOther))
  refine .options ho ?_
  cases inner with
  | none =>
    cases constraint with
    | none => exact hRest
    | some slot => exact hConstraint.elim
  | some items =>
    cases constraint with
    | none => exact hConstraint.elim
    | some slot =>
      obtain ⟨node, hItems, hSlot⟩ := hConstraint
      exact .constraint hItems hSlot hRest

/-- The arguments of a command are the parts of its entity. -/
lemma Collected.ofPieces_partPieces (o : Options) (constraint : Option (Slot Condition))
    (contents : List String) (children : List Node) :
    Collected.ofPieces (partPieces o constraint contents children)
      = ⟨children, contents, some o, constraint⟩ := by
  have hChildren : ofPieces (children.map .child) = ⟨children, [], none, none⟩ := by
    induction children with
    | nil => rfl
    | cons node children ih => rw [List.map_cons, ofPieces_child, ih]; rfl
  have hContents : ofPieces (contents.map .content ++ children.map .child)
      = ⟨children, contents, none, none⟩ := by
    induction contents with
    | nil => exact hChildren
    | cons text contents ih => rw [List.map_cons, List.cons_append, ofPieces_content, ih]; rfl
  rw [partPieces, ofPieces_options]
  cases constraint with
  | none => rw [Option.toList_none, List.map_nil, List.nil_append, hContents]; rfl
  | some slot =>
    rw [Option.toList_some, List.map_singleton, List.singleton_append, ofPieces_constraint,
      hContents]
    rfl

lemma Tree.prints_ofParts {command : Command} {o : Options} {inner : Option Items}
    {constraint : Option (Slot Condition)} {contents : List String} {children : Items}
    {nodes : List Node} {node : Node} (ho : o.Writable)
    (hConstraint : ConstraintPrints inner constraint)
    (hContents : ∀ text ∈ contents, Representable text.toList)
    (hChildren : children.Prints command (nodes.map .child))
    (hCount : command.checkCount ⟨nodes, contents, some o, constraint⟩ = .ok ())
    (hBuild : command.build ⟨nodes, contents, some o, constraint⟩ = .ok node) :
    Tree.Prints ⟨command, Items.ofParts o inner contents children⟩ node := by
  have hItems : (Items.ofParts o inner contents children).Prints command
      (partPieces o constraint contents nodes) :=
    Items.prints_ofParts ho hConstraint hContents hChildren
  refine ⟨?_, hItems.fits, hItems.sound⟩
  rw [Tree.node, Items.collected, hItems.pieces_eq, Except.map, Collected.ofPieces_partPieces]
  simp only [bind, Except.bind, hCount, hBuild]

lemma Command.checkCount_eq_ok {command : Command} {args : Collected}
    (hLeast : command.leastArguments ≤ args.count)
    (hMost : ∀ most ∈ command.mostArguments?, args.count ≤ most) :
    command.checkCount args = .ok () := by
  rw [checkCount, if_neg (by omega)]
  cases hBound : command.mostArguments? with
  | none => rfl
  | some most =>
    have hLe := hMost most hBound
    simp only [if_neg (show ¬ most < args.count by omega)]

lemma Tree.Prints.parseNode_render {tree : Tree} {node : Node} (hTree : tree.Prints node)
    {category : Category} (hRoot : category.accepts tree.command.kind = true) :
    parseNode {} category tree.render = .ok node := by
  rw [PolicyText.parseNode_render hTree.fits hRoot hTree.sound, hTree.node_eq]

end PolicyText
