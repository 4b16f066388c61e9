import PolicyText.Parse
import PolicyText.Proofs.Scan.Arguments

/-!
# Trees of commands

An expression is a tree of commands.  Between the parentheses of each stand its `Items`: contents,
references, option lists and other commands with items of their own; a constraint is a command like
the others.  This file says how a tree is written and what it means, and neither half knows of the
other.

## How a tree is written

`Items.IsWritten` relates items to the texts in which they can be written.  There is a comma between
two items and room for more of them, there are fillers wherever the scanner passes over fillers, and
every content can be bare or wrapped, as its `Token` says.  `Tree.IsWritten` is the same for a whole
expression.

## What a tree means

The items of a command contribute, from left to right, what the command is built from
(`Items.pieces`): a child, a content, options or a constraint.  Children and contents are collected
in their order, and of options and constraints the last ones count (`Collected.ofPieces`).  A tree
means the entity that its command is built into (`Tree.node`).
-/

namespace PolicyText

/-! ## Items -/

/-- What can stand between the parentheses of a command, from some place on. -/
inductive Items where
  | nil
  | content (token : Token) (rest : Items)
  | reference (entries : List Token) (rest : Items)
  | options (entries : List OptionEntry) (rest : Items)
  | command (child : Command) (inner rest : Items)

namespace Items

/-- Whether every command among the items is one that the command around it accepts.  A constraint
can stand in every command. -/
def fits (parent : Command) : Items → Bool
  | .nil => true
  | .content _ rest | .reference _ rest | .options _ rest => rest.fits parent
  | .command child inner rest =>
    (child = .constraint || parent.accepts child.kind) && inner.fits child && rest.fits parent

/-- The number of items that count as arguments: neither options nor a constraint do. -/
def argumentCount : Items → Nat
  | .nil => 0
  | .content _ rest | .reference _ rest => rest.argumentCount + 1
  | .options _ rest => rest.argumentCount
  | .command child _ rest =>
    if child = .constraint then rest.argumentCount else rest.argumentCount + 1

end Items

/-- A command with its items. -/
structure Tree where
  command : Command
  items : Items

/-- Whether every command of a tree is one that the command around it accepts. -/
def Tree.fits (tree : Tree) : Bool :=
  tree.items.fits tree.command

/-- The commands among the items, those inside other commands included. -/
def Items.nodes : Items → List Tree
  | .nil => []
  | .content _ rest | .reference _ rest | .options _ rest => rest.nodes
  | .command child inner rest => ⟨child, inner⟩ :: (inner.nodes ++ rest.nodes)

/-- All commands of a tree. -/
def Tree.nodes (tree : Tree) : List Tree :=
  tree :: tree.items.nodes

/-! ## How a tree is written -/

/-- A command with the text between its parentheses.  There can be room in front of them. -/
def Command.enclosing (command : Command) (space inner : List Char) : List Char :=
  command.keyword.toList ++ (space ++ '(' :: (inner ++ [')']))

/-- A text is made of fillers. -/
def IsPadding (text : List Char) : Prop :=
  ∀ c ∈ text, isFiller c = true

instance (text : List Char) : Decidable (IsPadding text) :=
  inferInstanceAs (Decidable (∀ c ∈ text, isFiller c = true))

/-- A text is what stands between the parentheses of a command, from a place on at which an argument
can begin, or from directly behind an argument on. -/
inductive Items.IsWritten : ListPlace → Items → List Char → Prop where
  | gap {gap : List Char} (hGap : ∀ c ∈ gap, separatesArguments c = true) :
    IsWritten .front .nil gap
  | closing : IsWritten .behind .nil []
  | comma {items : Items} {text : List Char} (hItems : IsWritten .front items text) :
    IsWritten .behind items (',' :: text)
  | content {gap written text : List Char} {token : Token} {rest : Items}
    (hGap : ∀ c ∈ gap, separatesArguments c = true) (hToken : token.IsArgument written)
    (hRest : IsWritten .behind rest text) :
    IsWritten .front (.content token rest) (gap ++ (written ++ text))
  | reference {gap space inner pad text : List Char} {entries : List Token} {rest : Items}
    (hGap : ∀ c ∈ gap, separatesArguments c = true) (hSpace : IsPadding space)
    (hEntries : Listed separatesArguments Token.IsArgument .front entries inner)
    (hCount : entries.length = 1 ∨ entries.length = 2) (hPad : IsPadding pad)
    (hRest : IsWritten .behind rest text) :
    IsWritten .front (.reference entries rest)
      (gap ++ (Command.reference.enclosing space inner ++ (pad ++ text)))
  | options {gap space inner pad text : List Char} {entries : List OptionEntry} {rest : Items}
    (hGap : ∀ c ∈ gap, separatesArguments c = true) (hSpace : IsPadding space)
    (hEntries : Listed separatesOptions OptionEntry.IsWritten .front entries inner)
    (hPad : IsPadding pad) (hRest : IsWritten .behind rest text) :
    IsWritten .front (.options entries rest)
      (gap ++ (Command.options.enclosing space inner ++ (pad ++ text)))
  | command {gap space innerText pad text : List Char} {child : Command} {inner rest : Items}
    (hGap : ∀ c ∈ gap, separatesArguments c = true) (hSpace : IsPadding space)
    (hOptions : child ≠ .options) (hReference : child ≠ .reference)
    (hInner : IsWritten .front inner innerText) (hPad : IsPadding pad)
    (hRest : IsWritten .behind rest text) :
    IsWritten .front (.command child inner rest)
      (gap ++ (child.enclosing space innerText ++ (pad ++ text)))

/-- A text is an expression: a command with its items, and fillers around it. -/
inductive Tree.IsWritten : Tree → List Char → Prop where
  | intro {lead space inner trail : List Char} {tree : Tree} (hLead : IsPadding lead)
    (hSpace : IsPadding space) (hItems : tree.items.IsWritten .front inner)
    (hTrail : IsPadding trail) :
    IsWritten tree (lead ++ (tree.command.enclosing space inner ++ trail))

lemma Command.enclosing_append (command : Command) (space inner rest : List Char) :
    command.enclosing space inner ++ rest
      = command.keyword.toList ++ (space ++ '(' :: (inner ++ ')' :: rest)) := by
  simp [enclosing]

lemma Items.IsWritten.exists_stop {items : Items} {text : List Char}
    (h : items.IsWritten .behind text) (tail : List Char) :
    ∃ d rest, text ++ ')' :: tail = d :: rest ∧ (d = ',' ∨ d = ')') := by
  cases h with
  | closing => exact ⟨')', tail, rfl, Or.inr rfl⟩
  | comma hItems => exact ⟨',', _, List.cons_append, Or.inl rfl⟩

/-! ## What a tree means -/

/-- What an item contributes to the command around it. -/
inductive Piece where
  | child (node : Node)
  | content (text : String)
  | options (options : Options)
  | constraint (constraint : Slot Condition)

namespace Piece

/-- The child that is contributed. -/
def child? : Piece → Option Node
  | .child found => some found
  | _ => none

/-- The content that is contributed. -/
def content? : Piece → Option String
  | .content found => some found
  | _ => none

/-- The options that are contributed. -/
def options? : Piece → Option Options
  | .options found => some found
  | _ => none

/-- The constraint that is contributed. -/
def constraint? : Piece → Option (Slot Condition)
  | .constraint found => some found
  | _ => none

end Piece

/-- What pieces amount to: children and contents in their order, the last options and the last
constraint. -/
def Collected.ofPieces (pieces : List Piece) : Collected :=
  { children := pieces.filterMap Piece.child?
    contents := pieces.filterMap Piece.content?
    options := (pieces.filterMap Piece.options?).getLast?
    constraint := (pieces.filterMap Piece.constraint?).getLast? }

/-- What the items of a command contribute, from left to right. -/
def Items.pieces (parent : Command) : Items → Except ParseError (List Piece)
  | .nil => .ok []
  | .content token rest => do
    let pieces ← rest.pieces parent
    .ok (.content (String.ofList token.text) :: pieces)
  | .reference entries rest => do
    let reference ← parent.resolveReference (entries.map fun token => String.ofList token.text)
    let pieces ← rest.pieces parent
    .ok (.child (.reference reference) :: pieces)
  | .options entries rest => do
    let options ← Options.ofRaw (RawOptions.ofPairs (entries.map OptionEntry.pair))
    let pieces ← rest.pieces parent
    .ok (.options options :: pieces)
  | .command child inner rest =>
    if child = .constraint then do
      let innerPieces ← inner.pieces child
      child.checkCount (.ofPieces innerPieces)
      let constraint ← buildConstraint (.ofPieces innerPieces)
      let pieces ← rest.pieces parent
      .ok (.constraint constraint :: pieces)
    else do
      let innerPieces ← inner.pieces child
      child.checkCount (.ofPieces innerPieces)
      let node ← child.build (.ofPieces innerPieces)
      let pieces ← rest.pieces parent
      .ok (.child node :: pieces)

/-- The arguments that the items of a command amount to. -/
def Items.collected (items : Items) (parent : Command) : Except ParseError Collected :=
  (items.pieces parent).map Collected.ofPieces

/-- The entity that a tree means. -/
def Tree.node (tree : Tree) : Except ParseError Node := do
  let args ← tree.items.collected tree.command
  tree.command.checkCount args
  tree.command.build args

end PolicyText
