import PolicyText.Proofs.Build.Append
import PolicyText.Proofs.Build.Compose
import PolicyText.Proofs.Build.Limits
import PolicyText.Proofs.Build.Replaced
import PolicyText.Proofs.Row.Basic

/-!
# What the items of a row contribute

Each item of a row contributes a piece to what the command around it is built from, and it does so
by itself (`WrittenItem.Gives`): what stands between its parentheses is read as if there were
nothing else, and nothing of what stands before or behind it matters.  From a row is collected what
its pieces amount to (`ReadAs.collect_eq_ok`).

An expression whose items are whole is read exactly if its pieces are counted and built
(`WrittenExpression.parseNode_eq_ok`), and every policy that is read is written in this way
(`exists_writtenExpression`).  A child that can be read on its own is so read
(`Command.Contributes.parseNode_eq_ok`).
-/

namespace PolicyText

variable {limits : Limits} {depth : Nat} {parent child : Command}

/-! ## Pieces -/

/-- What a command with its arguments contributes to the command around it. -/
def Command.piece (command : Command) (args : Collected) : Except ParseError Piece :=
  if command = .constraint then (buildConstraint args).map .constraint
  else (command.build args).map .child

/-- A piece in front of other arguments. -/
def Piece.add : Piece → Collected → Collected
  | .child found => Collected.consChild found
  | .content found => Collected.consContent found
  | .options found => Collected.consOptions found
  | .constraint found => Collected.consConstraint found

lemma Collected.ofPieces_cons (piece : Piece) (pieces : List Piece) :
    ofPieces (piece :: pieces) = piece.add (ofPieces pieces) := by
  cases piece with
  | child node => exact ofPieces_child node pieces
  | content text => exact ofPieces_content text pieces
  | options options => exact ofPieces_options options pieces
  | constraint constraint => exact ofPieces_constraint constraint pieces

lemma Command.piece_eq_ok {command : Command} {args : Collected} {piece : Piece}
    (h : command.piece args = .ok piece) :
    (∃ slot, command = .constraint ∧ buildConstraint args = .ok slot ∧
        piece = .constraint slot) ∨
      ∃ node, command ≠ .constraint ∧ command.build args = .ok node ∧ piece = .child node := by
  unfold Command.piece at h
  split at h
  · rename_i hConstraint
    obtain ⟨slot, hBuild, hPiece⟩ := Except.map_eq_ok.1 h
    exact Or.inl ⟨slot, hConstraint, hBuild, hPiece.symm⟩
  · rename_i hConstraint
    obtain ⟨node, hBuild, hPiece⟩ := Except.map_eq_ok.1 h
    exact Or.inr ⟨node, hConstraint, hBuild, hPiece.symm⟩

lemma Command.attach_eq_map (command : Command) (args : Collected) :
    command.attach args = (command.piece args).map Piece.add := by
  unfold attach Command.piece
  split
  · cases buildConstraint args <;> rfl
  · cases command.build args <;> rfl

lemma Command.complete_eq_ok {command : Command} {args : Collected} {add : Collected → Collected} :
    command.complete args = .ok add ↔
      command.checkCount args = .ok () ∧ ∃ piece, command.piece args = .ok piece ∧
        piece.add = add := by
  rw [Command.complete, Except.bind_eq_ok]
  simp only [Command.attach_eq_map, Except.map_eq_ok]
  constructor
  · rintro ⟨⟨⟩, h⟩
    exact h
  · exact fun h => ⟨(), h⟩

/-! ## Items -/

/-- What a command contributes with what stands between its own parentheses. -/
def Command.Contributes (limits : Limits) (depth : Nat) (command : Command) (inner : List Char)
    (piece : Piece) : Prop :=
  limits.enter depth 0 = .ok () ∧ ∃ args,
    collect limits depth command (command.ownArguments inner).1 = .ok args ∧
      command.checkCount args = .ok () ∧ command.piece args = .ok piece

/-- What an item contributes to the command around it, which stands at a depth. -/
inductive WrittenItem.Gives (limits : Limits) (depth : Nat) (parent : Command) :
    WrittenItem → Piece → Prop where
  | options {space inner : List Char} {raw : RawOptions} {last : Cursor} {o : Options}
    (hScan : scanOptions Command.options.keyword (Cursor.start ('(' :: inner ++ [')']))
      = .ok (raw, last)) (hOptions : Options.ofRaw raw = .ok o) :
    Gives limits depth parent (.command .options space inner) (.options o)
  | reference {space inner : List Char} {entries : List String} {last : Cursor} {r : Reference}
    (hScan : scanReference Command.reference.keyword (Cursor.start ('(' :: inner ++ [')']))
      = .ok (entries, last)) (hReference : parent.resolveReference entries = .ok r) :
    Gives limits depth parent (.command .reference space inner) (.child (.reference r))
  | command {child : Command} {space inner : List Char} {piece : Piece}
    (hOptions : child ≠ .options) (hReference : child ≠ .reference)
    (hAdmits : parent.admits child) (hPiece : child.Contributes limits (depth + 1) inner piece) :
    Gives limits depth parent (.command child space inner) piece

/-- What a reference means is what it points at, and its kind is settled by the command around
it. -/
lemma Command.resolveReference_eq_ok {kind : ReferenceKind} {entries : List String} {r : Reference}
    (hKind : parent.kind.referenceKind? = some kind) :
    parent.resolveReference entries = .ok r ↔
      ∃ target, entityRefOf entries = .ok target ∧ r = ⟨kind, target⟩ := by
  unfold resolveReference
  cases entityRefOf entries with
  | error e =>
    constructor
    · rintro ⟨⟩
    · rintro ⟨target, ⟨⟩, -⟩
  | ok target =>
    rw [hKind]
    constructor
    · rintro ⟨⟩
      exact ⟨target, rfl, rfl⟩
    · rintro ⟨_, ⟨⟩, rfl⟩
      rfl

/-- What the items of a row contribute, from left to right. -/
inductive RowGives (limits : Limits) (depth : Nat) (parent : Command) :
    List WrittenItem → List Piece → Prop where
  | nil : RowGives limits depth parent [] []
  | gap {items : List WrittenItem} {pieces : List Piece} (c : Char)
    (hRest : RowGives limits depth parent items pieces) :
    RowGives limits depth parent (.gap c :: items) pieces
  | item {item : WrittenItem} {items : List WrittenItem} {piece : Piece} {pieces : List Piece}
    (hItem : item.Gives limits depth parent piece)
    (hRest : RowGives limits depth parent items pieces) :
    RowGives limits depth parent (item :: items) (piece :: pieces)

lemma gives_options {space inner : List Char} {raw : RawOptions} {last : Cursor} {piece : Piece}
    (hScan : scanOptions Command.options.keyword (Cursor.start ('(' :: inner ++ [')']))
      = .ok (raw, last)) :
    (WrittenItem.command .options space inner).Gives limits depth parent piece ↔
      ∃ o, Options.ofRaw raw = .ok o ∧ piece = .options o := by
  constructor
  · intro h
    cases h with
    | options hSame hOptions =>
      cases hScan.symm.trans hSame
      exact ⟨_, hOptions, rfl⟩
    | command hNot => exact absurd rfl hNot
  · rintro ⟨o, hOptions, rfl⟩
    exact .options hScan hOptions

lemma gives_reference {space inner : List Char} {entries : List String} {last : Cursor}
    {piece : Piece}
    (hScan : scanReference Command.reference.keyword (Cursor.start ('(' :: inner ++ [')']))
      = .ok (entries, last)) :
    (WrittenItem.command .reference space inner).Gives limits depth parent piece ↔
      ∃ r, parent.resolveReference entries = .ok r ∧ piece = .child (.reference r) := by
  constructor
  · intro h
    cases h with
    | reference hSame hReference =>
      cases hScan.symm.trans hSame
      exact ⟨_, hReference, rfl⟩
    | command _ hNot => exact absurd rfl hNot
  · rintro ⟨r, hReference, rfl⟩
    exact .reference hScan hReference

lemma gives_command {space inner : List Char} {piece : Piece} (hOptions : child ≠ .options)
    (hReference : child ≠ .reference) :
    (WrittenItem.command child space inner).Gives limits depth parent piece ↔
      parent.admits child ∧ child.Contributes limits (depth + 1) inner piece := by
  constructor
  · intro h
    cases h with
    | options => exact absurd rfl hOptions
    | reference => exact absurd rfl hReference
    | command _ _ hAdmits hPiece => exact ⟨hAdmits, hPiece⟩
  · rintro ⟨hAdmits, hPiece⟩
    exact .command hOptions hReference hAdmits hPiece

/-- An item contributes one thing only. -/
lemma WrittenItem.Gives.unique {item : WrittenItem} {piece other : Piece}
    (h : item.Gives limits depth parent piece)
    (hOther : item.Gives limits depth parent other) : piece = other := by
  cases h with
  | options hScan hOptions =>
    obtain ⟨o, hSame, rfl⟩ := (gives_options hScan).1 hOther
    rw [Except.ok.inj (hOptions.symm.trans hSame)]
  | reference hScan hReference =>
    obtain ⟨r, hSame, rfl⟩ := (gives_reference hScan).1 hOther
    rw [Except.ok.inj (hReference.symm.trans hSame)]
  | command hOptions hReference hAdmits hPiece =>
    obtain ⟨-, -, same, hSame, -, hOther⟩ := (gives_command hOptions hReference).1 hOther
    obtain ⟨-, args, hCollect, -, hPiece⟩ := hPiece
    cases hCollect.symm.trans hSame
    exact Except.ok.inj (hPiece.symm.trans hOther)

lemma RowGives.unique {items : List WrittenItem} {pieces others : List Piece}
    (h : RowGives limits depth parent items pieces)
    (hOthers : RowGives limits depth parent items others) : pieces = others := by
  induction h generalizing others with
  | nil =>
    cases hOthers
    rfl
  | gap c hRest ih =>
    cases hOthers with
    | gap _ hOthers => exact ih hOthers
    | item hGap => cases hGap
  | item hItem hRest ih =>
    cases hOthers with
    | gap => cases hItem
    | item hOther hOthers => rw [hItem.unique hOther, ih hOthers]

lemma RowGives.replace {front back : List WrittenItem} {space inner : List Char}
    {other : WrittenItem} {pieces : List Piece}
    (hOther : ∀ piece, (WrittenItem.command child space inner).Gives limits depth parent piece →
      other.Gives limits depth parent piece)
    (h : RowGives limits depth parent (front ++ .command child space inner :: back) pieces) :
    RowGives limits depth parent (front ++ other :: back) pieces := by
  induction front generalizing pieces with
  | nil =>
    cases h with
    | item hItem hRest => exact .item (hOther _ hItem) hRest
  | cons first front ih =>
    cases h with
    | gap c hRest => exact .gap c (ih hRest)
    | item hItem hRest => exact .item hItem (ih hRest)

lemma Arguments.Alike.symm {args other : Arguments} (h : args.Alike other) : other.Alike args := by
  induction h with
  | closed => exact .closed
  | fault e => exact .fault e
  | content text _ ih => exact .content text ih
  | options raw _ ih => exact .options raw ih
  | reference entries _ ih => exact .reference entries ih
  | command position place child _ _ ihInner ih => exact .command place position child ihInner ih

lemma exists_rowGives_command {space inner : List Char} {items : List WrittenItem}
    {args : Collected} :
    (∃ pieces, RowGives limits depth parent (.command child space inner :: items) pieces ∧
        .ofPieces pieces = args) ↔
      ∃ piece others, (WrittenItem.command child space inner).Gives limits depth parent piece ∧
        (∃ pieces, RowGives limits depth parent items pieces ∧ .ofPieces pieces = others) ∧
        piece.add others = args := by
  constructor
  · rintro ⟨_, hRow, rfl⟩
    cases hRow with
    | @item _ _ piece pieces hItem hRest =>
      exact ⟨piece, _, hItem, ⟨pieces, hRest, rfl⟩, (Collected.ofPieces_cons _ _).symm⟩
  · rintro ⟨piece, _, hItem, ⟨pieces, hRest, rfl⟩, rfl⟩
    exact ⟨piece :: pieces, .item hItem hRest, Collected.ofPieces_cons _ _⟩

/-- From a row is collected what its pieces amount to. -/
lemma ReadAs.collect_eq_ok {items : List WrittenItem} {arguments : Arguments} {args : Collected}
    (h : ReadAs items arguments) :
    collect limits depth parent arguments = .ok args ↔
      ∃ pieces, RowGives limits depth parent items pieces ∧ .ofPieces pieces = args := by
  induction h generalizing args with
  | nil =>
    constructor
    · rintro ⟨⟩
      exact ⟨[], .nil, rfl⟩
    · rintro ⟨_, ⟨⟩, rfl⟩
      rfl
  | gap c hRest ih =>
    rw [ih]
    constructor
    · rintro ⟨pieces, hPieces, rfl⟩
      exact ⟨pieces, .gap c hPieces, rfl⟩
    · rintro ⟨pieces, hPieces, rfl⟩
      cases hPieces with
      | gap _ hRest => exact ⟨pieces, hRest, rfl⟩
      | item hItem => cases hItem
  | options hScan hRest ih =>
    rw [collect_options, exists_rowGives_command]
    simp only [gives_options hScan, ← ih]
    constructor
    · intro h
      obtain ⟨o, hOptions, h⟩ := Except.bind_eq_ok.1 h
      obtain ⟨others, hOthers, h⟩ := Except.bind_eq_ok.1 h
      exact ⟨_, others, ⟨o, hOptions, rfl⟩, hOthers, Except.ok.inj h⟩
    · rintro ⟨_, others, ⟨o, hOptions, rfl⟩, hOthers, rfl⟩
      rw [hOptions, Except.ok_bind, hOthers]
      rfl
  | reference hScan hRest ih =>
    rw [collect_reference, exists_rowGives_command]
    simp only [gives_reference hScan, ← ih]
    constructor
    · intro h
      obtain ⟨r, hReference, h⟩ := Except.bind_eq_ok.1 h
      obtain ⟨others, hOthers, h⟩ := Except.bind_eq_ok.1 h
      exact ⟨_, others, ⟨r, hReference, rfl⟩, hOthers, Except.ok.inj h⟩
    · rintro ⟨_, others, ⟨r, hReference, rfl⟩, hOthers, rfl⟩
      rw [hReference, Except.ok_bind, hOthers]
      rfl
  | command position hOptions hReference hInner hRest ih =>
    rw [collect_command_eq_ok, exists_rowGives_command]
    simp only [gives_command hOptions hReference, ← ih]
    constructor
    · rintro ⟨hAdmits, hEnter, args, add, others, hCollect, hComplete, hOthers, hSum⟩
      obtain ⟨hCount, piece, hPiece, rfl⟩ := Command.complete_eq_ok.1 hComplete
      exact ⟨piece, others, ⟨hAdmits, Limits.enter_place hEnter 0, args,
        hInner.symm.collect hCollect, hCount, hPiece⟩, hOthers, hSum⟩
    · rintro ⟨piece, others, ⟨hAdmits, hEnter, args, hCollect, hCount, hPiece⟩, hOthers, hSum⟩
      exact ⟨hAdmits, Limits.enter_place hEnter position, args, piece.add, others,
        hInner.collect hCollect, Command.complete_eq_ok.2 ⟨hCount, piece, hPiece, rfl⟩, hOthers,
        hSum⟩

lemma Command.contributes_row {items : List WrittenItem} {piece : Piece}
    (hWhole : ∀ item ∈ items, item.IsWhole) :
    child.Contributes limits depth (rowText items) piece ↔
      limits.enter depth 0 = .ok () ∧ ∃ pieces, RowGives limits depth child items pieces ∧
        child.checkCount (.ofPieces pieces) = .ok () ∧
        child.piece (.ofPieces pieces) = .ok piece := by
  obtain ⟨arguments, hReadAs, hRead⟩ := readArguments_row hWhole child.keyword 0 0 []
  have hOwn : (child.ownArguments (rowText items)).1 = arguments := congrArg Prod.fst hRead
  rw [Command.Contributes, hOwn]
  refine and_congr_right fun _ => ?_
  constructor
  · rintro ⟨args, hCollect, hCount, hPiece⟩
    obtain ⟨pieces, hPieces, rfl⟩ := hReadAs.collect_eq_ok.1 hCollect
    exact ⟨pieces, hPieces, hCount, hPiece⟩
  · rintro ⟨pieces, hPieces, hCount, hPiece⟩
    exact ⟨_, hReadAs.collect_eq_ok.2 ⟨pieces, hPieces, rfl⟩, hCount, hPiece⟩

lemma Command.isClosedBy_row {items : List WrittenItem} (hWhole : ∀ item ∈ items, item.IsWhole)
    (hOptions : child ≠ .options) (hReference : child ≠ .reference) :
    child.IsClosedBy (rowText items) := by
  obtain ⟨arguments, -, hRead⟩ := readArguments_row hWhole child.keyword 0 0 []
  exact (Command.isClosedBy_iff hOptions hReference).2 ⟨_, congrArg Prod.snd hRead, rfl⟩

/-! ## Expressions -/

/-- An expression as it is written: a command with the items between its parentheses, and what
stands around it. -/
structure WrittenExpression where
  lead : List Char
  command : Command
  space : List Char
  items : List WrittenItem
  trail : List Char

namespace WrittenExpression

variable {category : Category} {e : WrittenExpression}

/-- An expression as it is written. -/
def text (e : WrittenExpression) : List Char :=
  e.lead ++ (e.command.enclosing e.space (rowText e.items) ++ e.trail)

/-- An expression with other items. -/
def withItems (e : WrittenExpression) (items : List WrittenItem) : WrittenExpression :=
  { e with items := items }

/-- Around an expression stand fillers, and its items begin and end where a reader takes them to
begin and to end. -/
structure IsWhole (e : WrittenExpression) : Prop where
  lead : IsPadding e.lead
  space : IsPadding e.space
  trail : IsPadding e.trail
  items : ∀ item ∈ e.items, item.IsWhole

/-- An expression is read exactly if its pieces are counted and built. -/
lemma parseNode_eq_ok (hWhole : e.IsWhole) {node : Node} :
    parseNode limits category e.text = .ok node ↔
      limits.checkLength e.text = .ok () ∧ category.accepts e.command.kind = true ∧
        limits.enter 1 0 = .ok () ∧ ∃ pieces, RowGives limits 1 e.command e.items pieces ∧
          e.command.checkCount (.ofPieces pieces) = .ok () ∧
          e.command.build (.ofPieces pieces) = .ok node := by
  obtain ⟨code, hStart, hKeyword⟩ :=
    e.command.scanKeyword_start (rowText e.items) e.trail hWhole.lead hWhole.space
  obtain ⟨arguments, hReadAs, hRead⟩ := readArguments_row hWhole.items e.command.keyword
    e.lead.length (e.lead.length + e.command.keyword.toList.length + e.space.length + 1) e.trail
  have hEnd (position : Nat) : (Cursor.skipFiller ⟨position, e.trail⟩).rest = [] :=
    List.dropWhile_eq_nil_iff.2 hWhole.trail
  rw [PolicyText.parseNode_eq_ok, text, hStart]
  refine and_congr_right fun _ => ?_
  constructor
  · rintro ⟨last, hExpression, -⟩
    obtain ⟨command, opened, hSame, hAccepts, hEnter, args, hCollect, hCount, hBuild, -⟩ :=
      readExpression_eq_ok.1 hExpression
    cases hKeyword.symm.trans hSame
    have hArguments := congrArg Prod.fst hRead
    obtain ⟨pieces, hPieces, rfl⟩ :=
      hReadAs.collect_eq_ok.1 ((congrArg _ hArguments).symm.trans hCollect)
    exact ⟨hAccepts, Limits.enter_place hEnter 0, pieces, hPieces, hCount, hBuild⟩
  · rintro ⟨hAccepts, hEnter, pieces, hPieces, hCount, hBuild⟩
    refine ⟨_, readExpression_eq_ok.2 ⟨e.command, _, hKeyword, hAccepts,
      Limits.enter_place hEnter _, _, ?_, hCount, hBuild, congrArg Prod.snd hRead⟩, hEnd _⟩
    exact (congrArg _ (congrArg Prod.fst hRead)).trans
      (hReadAs.collect_eq_ok.2 ⟨pieces, hPieces, rfl⟩)

end WrittenExpression

/-- Where no content is collected there was none. -/
lemma hasContents_of_collect {arguments : Arguments} {args : Collected}
    (h : collect limits depth parent arguments = .ok args) (hNone : args.contents = []) :
    arguments.hasContents = false := by
  induction arguments generalizing args with
  | closed => rfl
  | fault e => rfl
  | content text rest ih =>
    rw [collect_content] at h
    obtain ⟨others, -, h⟩ := Except.bind_eq_ok.1 h
    cases h
    cases hNone
  | options raw rest ih =>
    rw [collect_options] at h
    obtain ⟨o, -, h⟩ := Except.bind_eq_ok.1 h
    obtain ⟨others, hOthers, h⟩ := Except.bind_eq_ok.1 h
    cases h
    exact ih hOthers hNone
  | reference entries rest ih =>
    rw [collect_reference] at h
    obtain ⟨r, -, h⟩ := Except.bind_eq_ok.1 h
    obtain ⟨others, hOthers, h⟩ := Except.bind_eq_ok.1 h
    cases h
    exact ih hOthers hNone
  | command position child inner rest _ ih =>
    obtain ⟨-, -, innerArgs, add, others, -, hComplete, hOthers, rfl⟩ := collect_command_eq_ok.1 h
    obtain ⟨⟨⟩, -, hAttach⟩ := Except.bind_eq_ok.1 hComplete
    obtain ⟨slot, -, -, rfl⟩ | ⟨node, -, -, rfl⟩ := Command.attach_eq_ok hAttach
    · exact ih hOthers hNone
    · exact ih hOthers hNone

/-- No policy is built from contents. -/
lemma contents_of_build {command : Command} {args : Collected} {node : Node}
    (hPolicy : Category.policy.accepts command.kind = true) (h : command.build args = .ok node) :
    args.contents = [] := by
  have hReject (hContents : args.rejectContents command = .ok ()) : args.contents = [] := by
    unfold Collected.rejectContents at hContents
    split at hContents
    · assumption
    · cases hContents
  cases command with
  | basicPolicy effect =>
    obtain ⟨p, hBuild, -⟩ := Except.map_eq_ok.1 h
    obtain ⟨⟨⟩, hContents, -⟩ := Except.bind_eq_ok.1 hBuild
    exact hReject hContents
  | policySet logic =>
    obtain ⟨p, hBuild, -⟩ := Except.map_eq_ok.1 h
    obtain ⟨⟨⟩, hContents, -⟩ := Except.bind_eq_ok.1 hBuild
    exact hReject hContents
  | defaultPolicy decision =>
    obtain ⟨p, hBuild, -⟩ := Except.map_eq_ok.1 h
    obtain ⟨⟨⟩, hContents, -⟩ := Except.bind_eq_ok.1 hBuild
    exact hReject hContents
  | _ => cases hPolicy

lemma exists_writtenExpression {text : List Char} {node : Node}
    (h : parseNode limits .policy text = .ok node) :
    ∃ e : WrittenExpression, text = e.text ∧ e.IsWhole := by
  obtain ⟨-, last, hRead, hEnd⟩ := parseNode_eq_ok.1 h
  obtain ⟨command, opened, hKeyword, hAccepts, -, args, hCollect, -, hBuild, hLast⟩ :=
    readExpression_eq_ok.1 hRead
  have hReads := readsArguments command.keyword (Cursor.start text).skipFiller.position
    (opened.advance 1)
  obtain ⟨items, tail, hText, hStop, hItems⟩ := hReads.exists_row last hLast
    (hasContents_of_collect hCollect (contents_of_build hAccepts hBuild))
  obtain ⟨space, rest, hSpace, hOpened, hEnclosing⟩ := exists_enclosing hKeyword
  have hBehind : (opened.advance 1).rest = rest := by rw [Cursor.advance, hOpened]; rfl
  refine ⟨⟨text.takeWhile isFiller, command, space, items, tail⟩, ?_, ?_, hSpace, ?_, hItems⟩
  · rw [WrittenExpression.text, ← hEnclosing _ tail (hBehind.symm.trans hText)]
    exact List.takeWhile_append_dropWhile.symm
  · exact fun c hc => List.mem_takeWhile_imp hc
  · exact List.dropWhile_eq_nil_iff.1 (hStop.symm.trans hEnd)

lemma collect_unlimited {arguments : Arguments} {args : Collected}
    (h : collect limits depth parent arguments = .ok args) (other : Nat) :
    collect {} other parent arguments = .ok args := by
  rw [collect_depth other depth]
  have hUnlimited : limits.DepthLE {} := nofun
  obtain hSame | ⟨least, position, -, hDeep⟩ := hUnlimited.cutOff_collect depth parent arguments
  · rw [← hSame]
    exact h
  · rw [h] at hDeep
    cases hDeep

lemma Command.Contributes.unlimited {inner : List Char} {piece : Piece}
    (h : child.Contributes limits depth inner piece) (other : Nat) :
    child.Contributes {} other inner piece := by
  obtain ⟨-, args, hCollect, hCount, hPiece⟩ := h
  exact ⟨rfl, args, collect_unlimited hCollect other, hCount, hPiece⟩

lemma Command.Contributes.kind_eq {inner : List Char} {node : Node}
    (h : child.Contributes limits depth inner (.child node)) : node.kind = child.kind := by
  obtain ⟨-, args, -, -, hPiece⟩ := h
  obtain ⟨slot, -, -, ⟨⟩⟩ | ⟨_, -, hBuild, ⟨⟩⟩ := Command.piece_eq_ok hPiece
  exact Command.kind_of_build hBuild

/-- A child that belongs to a category is read on its own as what it contributes. -/
lemma Command.Contributes.parseNode_eq_ok {category : Category} {space inner : List Char}
    {node : Node} (h : child.Contributes limits depth inner (.child node))
    (hAccepts : category.accepts child.kind = true) (hSpace : IsPadding space)
    (hClosed : child.IsClosedBy inner) :
    parseNode {} category (child.enclosing space inner) = .ok node := by
  obtain ⟨-, hReference, hOptions⟩ := Category.ne_of_accepts hAccepts
  obtain ⟨-, args, hCollect, hCount, hPiece⟩ := h
  obtain ⟨slot, -, -, ⟨⟩⟩ | ⟨_, -, hBuild, ⟨⟩⟩ := Command.piece_eq_ok hPiece
  obtain ⟨last, hOwn, hLast⟩ := (Command.isClosedBy_iff hOptions hReference).1 hClosed
  obtain ⟨code, hStart, hKeyword⟩ :=
    @Command.scanKeyword_start child [] space inner [] (List.forall_mem_nil _) hSpace
  rw [List.append_nil, List.nil_append] at hStart
  have hReads := readsArguments child.keyword 0 (Cursor.start (inner ++ [')']))
  obtain ⟨innerArgs, hInner, hAlike⟩ := (hReads.encloses last hOwn).anywhere hLast
    (0 + child.keyword.toList.length + space.length + 1) [] 0
  have hCollected := hAlike.collect (collect_unlimited hCollect 1)
  have hExpression := readExpression_eq_ok.2 ⟨child, _, hKeyword, hAccepts, rfl, args,
    (congrArg _ (congrArg Prod.fst hInner)).trans hCollected, hCount, hBuild,
    congrArg Prod.snd hInner⟩
  exact PolicyText.parseNode_eq_ok.2
    ⟨rfl, _, (congrArg (readExpression {} category) hStart).trans hExpression, rfl⟩

end PolicyText
