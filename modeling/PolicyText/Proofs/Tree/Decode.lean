import PolicyText.Proofs.Build.Collect
import PolicyText.Proofs.Build.Expression
import PolicyText.Proofs.Tree.Basic

/-!
# Every written tree is decoded

A tree can be written in many texts, and each of them is read as what the tree means.  There are two
steps.  The scanner finds the items of every command again, in their order and up to the closing
parenthesis (`readArguments_written`); the induction is on the way in which the items are written,
and what carries it is that behind every item the scanner stands at a comma or at the parenthesis.
From the arguments that were found, what a command is built from is then collected as `Items.pieces`
says (`collect_readAs`).

`parse_written_tree` says both of every command of a tree, wherever it stands, and of the whole
text.
-/

namespace PolicyText

/-! ## Scanning -/

/-- Arguments are items as they have been read; only the positions of commands are new. -/
inductive Items.ReadAs : Items → Arguments → Prop where
  | nil : ReadAs .nil .closed
  | content {token : Token} {rest : Items} {args : Arguments} (hRest : ReadAs rest args) :
    ReadAs (.content token rest) (.content (String.ofList token.text) args)
  | reference {entries : List Token} {rest : Items} {args : Arguments}
    (hRest : ReadAs rest args) :
    ReadAs (.reference entries rest)
      (.reference (entries.map fun token => String.ofList token.text) args)
  | options {entries : List OptionEntry} {rest : Items} {args : Arguments}
    (hRest : ReadAs rest args) :
    ReadAs (.options entries rest)
      (.options (RawOptions.ofPairs (entries.map OptionEntry.pair)) args)
  | command {child : Command} {inner rest : Items} {innerArgs args : Arguments} (position : Nat)
    (hInner : ReadAs inner innerArgs) (hRest : ReadAs rest args) :
    ReadAs (.command child inner rest) (.command position child innerArgs args)

lemma skipFiller_pad {pad tail : List Char} {d : Char} (position : Nat) (hPad : IsPadding pad)
    (hd : d = ',' ∨ d = ')') :
    Cursor.skipFiller ⟨position, pad ++ d :: tail⟩ = ⟨position + pad.length, d :: tail⟩ :=
  Cursor.skipWhile_append_cons position hPad (isFiller_of_stop hd)

lemma Command.scanKeyword_enclosing (command : Command) {space : List Char}
    (inner rest : List Char) (position : Nat) (hSpace : IsPadding space) :
    ∃ d tail, command.enclosing space inner ++ rest = d :: tail ∧ CharClass.of d = .sigil ∧
      scanKeyword ⟨position, d :: tail⟩
        = .ok (command, ⟨position + command.keyword.toList.length + space.length,
            '(' :: (inner ++ ')' :: rest)⟩) := by
  obtain ⟨d, tail, hKeyword, hClass⟩ := command.exists_sigil
  have hScan := scanKeyword_written command (inner ++ ')' :: rest) position hSpace
  rw [← command.enclosing_append] at hScan
  have hText : command.enclosing space inner ++ rest
      = d :: (tail ++ (space ++ '(' :: (inner ++ ')' :: rest))) := by
    rw [command.enclosing_append, hKeyword, List.cons_append]
  exact ⟨d, _, hText, hClass, hText ▸ hScan⟩

lemma Command.scanKeyword_start (command : Command) {lead space : List Char}
    (inner rest : List Char) (hLead : IsPadding lead) (hSpace : IsPadding space) :
    ∃ code, (Cursor.start (lead ++ (command.enclosing space inner ++ rest))).skipFiller
        = ⟨lead.length, code⟩ ∧
      scanKeyword ⟨lead.length, code⟩
        = .ok (command, ⟨lead.length + command.keyword.toList.length + space.length,
            '(' :: (inner ++ ')' :: rest)⟩) := by
  obtain ⟨d, tail, hText, hClass, hKeyword⟩ :=
    command.scanKeyword_enclosing inner rest lead.length hSpace
  refine ⟨d :: tail, ?_, hKeyword⟩
  have hFiller : isFiller d = false := isFiller_eq_false (by rw [hClass]; decide)
  rw [hText, Cursor.start, Cursor.skipFiller, Cursor.skipWhile_append_cons 0 hLead hFiller,
    Nat.zero_add]

lemma Command.length_enclosing (command : Command) (space inner : List Char) :
    (command.enclosing space inner).length
      = command.keyword.toList.length + space.length + inner.length + 2 := by
  simp only [enclosing, List.length_append, List.length_cons, List.length_nil]
  omega

/-- The items of a command are found in their order, up to the closing parenthesis. -/
lemma readArguments_written {place : ListPlace} {items : Items} {text : List Char}
    (hText : items.IsWritten place text) (keyword : String) (start position : Nat)
    (tail : List Char) :
    ∃ args, items.ReadAs args ∧
      readArguments keyword start ⟨position, text ++ ')' :: tail⟩
        = (args, .ok (Cursor.skipFiller ⟨position + text.length + 1, tail⟩)) := by
  induction hText generalizing keyword start position tail with
  | gap hGap =>
    refine ⟨.closed, .nil, ?_⟩
    rw [(passesOver_readArguments keyword start).append hGap, readArguments_closing]
  | closing => exact ⟨.closed, .nil, readArguments_closing⟩
  | comma hItems ih =>
    obtain ⟨args, hRead, hArgs⟩ := ih keyword start (position + 1) tail
    refine ⟨args, hRead, ?_⟩
    rw [List.cons_append, passesOver_readArguments keyword start position ',' _ rfl, hArgs,
      List.length_cons, Nat.add_right_comm position 1, ← Nat.add_assoc]
  | @content gap written text token rest hGap hToken hRest ih =>
    obtain ⟨stop, after, hStop, hIsStop⟩ := hRest.exists_stop tail
    obtain ⟨d, tail', hWritten, hClass⟩ := hToken.exists_content (stop :: after)
    have hContent := scanContent_padded (position + gap.length) after hToken.2 hIsStop
    rw [hWritten] at hContent
    obtain ⟨args, hRead, hArgs⟩ :=
      ih keyword start (position + gap.length + written.length) tail
    refine ⟨_, .content hRead, ?_⟩
    rw [List.append_assoc, List.append_assoc, (passesOver_readArguments keyword start).append hGap,
      hStop, hWritten, readArguments_content hClass hContent, ← hStop, hArgs]
    simp only [Prod.map, id, List.length_append, Nat.add_assoc]
  | @reference gap space inner pad text entries rest hGap hSpace hEntries hCount hPad hRest ih =>
    obtain ⟨stop, after, hStop, hIsStop⟩ := hRest.exists_stop tail
    obtain ⟨d, tail', hWritten, hClass, hKeyword⟩ :=
      Command.reference.scanKeyword_enclosing inner (pad ++ stop :: after)
        (position + gap.length) hSpace
    have hReference := scanReference_written Command.reference.keyword
      (position + gap.length + Command.reference.keyword.toList.length + space.length)
      (pad ++ stop :: after) hEntries hCount
    rw [skipFiller_pad _ hPad hIsStop] at hReference
    obtain ⟨args, hRead, hArgs⟩ := ih keyword start _ tail
    refine ⟨_, .reference hRead, ?_⟩
    rw [List.append_assoc, List.append_assoc, List.append_assoc,
      (passesOver_readArguments keyword start).append hGap, hStop, hWritten,
      readArguments_reference hClass hKeyword hReference, ← hStop, hArgs]
    simp only [Prod.map, id, List.length_append, Command.length_enclosing]
    congr 4
    omega
  | @options gap space inner pad text entries rest hGap hSpace hEntries hPad hRest ih =>
    obtain ⟨stop, after, hStop, hIsStop⟩ := hRest.exists_stop tail
    obtain ⟨d, tail', hWritten, hClass, hKeyword⟩ :=
      Command.options.scanKeyword_enclosing inner (pad ++ stop :: after)
        (position + gap.length) hSpace
    have hOptions := scanOptions_written Command.options.keyword
      (position + gap.length + Command.options.keyword.toList.length + space.length)
      (pad ++ stop :: after) hEntries
    rw [skipFiller_pad _ hPad hIsStop] at hOptions
    obtain ⟨args, hRead, hArgs⟩ := ih keyword start _ tail
    refine ⟨_, .options hRead, ?_⟩
    rw [List.append_assoc, List.append_assoc, List.append_assoc,
      (passesOver_readArguments keyword start).append hGap, hStop, hWritten,
      readArguments_options hClass hKeyword hOptions, ← hStop, hArgs]
    simp only [Prod.map, id, List.length_append, Command.length_enclosing]
    congr 4
    omega
  | @command gap space innerText pad text child inner rest hGap hSpace hOptions hReference hInner
      hPad hRest ihInner ih =>
    obtain ⟨stop, after, hStop, hIsStop⟩ := hRest.exists_stop tail
    obtain ⟨d, tail', hWritten, hClass, hKeyword⟩ :=
      child.scanKeyword_enclosing innerText (pad ++ stop :: after) (position + gap.length) hSpace
    obtain ⟨innerArgs, hInnerRead, hInnerArgs⟩ := ihInner child.keyword (position + gap.length)
      (position + gap.length + child.keyword.toList.length + space.length + 1)
      (pad ++ stop :: after)
    rw [skipFiller_pad _ hPad hIsStop] at hInnerArgs
    obtain ⟨args, hRead, hArgs⟩ := ih keyword start _ tail
    refine ⟨_, .command (position + gap.length) hInnerRead hRead, ?_⟩
    rw [List.append_assoc, List.append_assoc, List.append_assoc,
      (passesOver_readArguments keyword start).append hGap, hStop, hWritten,
      readArguments_command hClass hOptions hReference hKeyword hInnerArgs, ← hStop, hArgs]
    simp only [Prod.map, id, List.length_append, Command.length_enclosing]
    congr 4
    omega

/-! ## Collecting -/

namespace Collected

lemma ofPieces_child (node : Node) (pieces : List Piece) :
    ofPieces (.child node :: pieces) = (ofPieces pieces).consChild node :=
  rfl

lemma ofPieces_content (text : String) (pieces : List Piece) :
    ofPieces (.content text :: pieces) = (ofPieces pieces).consContent text :=
  rfl

lemma ofPieces_options (options : Options) (pieces : List Piece) :
    ofPieces (.options options :: pieces) = (ofPieces pieces).consOptions options := by
  have hLast : ((Piece.options options :: pieces).filterMap Piece.options?).getLast?
      = some (((pieces.filterMap Piece.options?).getLast?).getD options) :=
    List.getLast?_cons
  simp only [ofPieces, consOptions, hLast]
  rfl

lemma ofPieces_constraint (constraint : Slot Condition) (pieces : List Piece) :
    ofPieces (.constraint constraint :: pieces)
      = (ofPieces pieces).consConstraint constraint := by
  have hLast : ((Piece.constraint constraint :: pieces).filterMap Piece.constraint?).getLast?
      = some (((pieces.filterMap Piece.constraint?).getLast?).getD constraint) :=
    List.getLast?_cons
  simp only [ofPieces, consConstraint, hLast]
  rfl

end Collected

lemma Limits.enter_empty (depth position : Nat) : Limits.enter {} depth position = .ok () :=
  rfl

/-- From items that have been read, what they contribute is collected. -/
lemma collect_readAs {items : Items} {args : Arguments} (hRead : items.ReadAs args)
    {parent : Command} (hFits : items.fits parent = true) (depth : Nat) :
    collect {} depth parent args = items.collected parent := by
  induction hRead generalizing parent depth with
  | nil => rfl
  | content hRest ih =>
    rw [collect_content, ih hFits, Items.collected, Items.collected, Items.pieces]
    cases Items.pieces parent _ <;> rfl
  | reference hRest ih =>
    rw [collect_reference, ih hFits, Items.collected, Items.collected, Items.pieces]
    cases parent.resolveReference _ with
    | error => rfl
    | ok => cases Items.pieces parent _ <;> rfl
  | options hRest ih =>
    rw [collect_options, ih hFits, Items.collected, Items.collected, Items.pieces]
    cases Options.ofRaw _ with
    | error => rfl
    | ok options =>
      cases hPieces : Items.pieces parent _ with
      | error => rfl
      | ok pieces => exact congrArg Except.ok (Collected.ofPieces_options options pieces).symm
  | @command child inner rest innerArgs args position hInner hRest ihInner ih =>
    simp only [Items.fits, Bool.and_eq_true, Bool.or_eq_true, decide_eq_true_eq] at hFits
    obtain ⟨⟨hChild, hInnerFits⟩, hRestFits⟩ := hFits
    have hAdmits : parent.admits child := hChild
    have hInnerCollected := ihInner hInnerFits (depth + 1)
    have hRestCollected := ih hRestFits depth
    rw [collect_command, if_pos hAdmits]
    simp only [Command.complete, Command.attach, hInnerCollected, hRestCollected,
      Limits.enter_empty, Items.collected, Items.pieces]
    by_cases hConstraint : child = .constraint
    · simp only [if_pos hConstraint, Except.map, bind, Except.bind]
      cases inner.pieces child with
      | error => rfl
      | ok innerPieces =>
        simp only []
        cases child.checkCount (.ofPieces innerPieces) with
        | error => rfl
        | ok =>
          simp only []
          cases buildConstraint (.ofPieces innerPieces) with
          | error => rfl
          | ok constraint =>
            cases rest.pieces parent with
            | error => rfl
            | ok pieces =>
              exact congrArg Except.ok (Collected.ofPieces_constraint constraint pieces).symm
    · simp only [if_neg hConstraint, Except.map, bind, Except.bind]
      cases inner.pieces child with
      | error => rfl
      | ok innerPieces =>
        simp only []
        cases child.checkCount (.ofPieces innerPieces) with
        | error => rfl
        | ok =>
          simp only []
          cases child.build (.ofPieces innerPieces) with
          | error => rfl
          | ok node => cases rest.pieces parent <;> rfl

/-! ## The number of arguments -/

/-- Pieces count as the items that they come from. -/
lemma Items.count_pieces {items : Items} {parent : Command} {pieces : List Piece}
    (h : items.pieces parent = .ok pieces) :
    (Collected.ofPieces pieces).count = items.argumentCount := by
  induction items generalizing parent pieces with
  | nil =>
    cases h
    rfl
  | content token rest ih =>
    obtain ⟨restPieces, hRest, hPieces⟩ := Except.bind_eq_ok.1 h
    cases hPieces
    rw [Collected.ofPieces_content, argumentCount, ← ih hRest]
    rfl
  | reference entries rest ih =>
    obtain ⟨reference, -, h⟩ := Except.bind_eq_ok.1 h
    obtain ⟨restPieces, hRest, hPieces⟩ := Except.bind_eq_ok.1 h
    cases hPieces
    rw [Collected.ofPieces_child, argumentCount, ← ih hRest]
    simp only [Collected.count, Collected.consChild, List.length_cons]
    omega
  | options entries rest ih =>
    obtain ⟨options, -, h⟩ := Except.bind_eq_ok.1 h
    obtain ⟨restPieces, hRest, hPieces⟩ := Except.bind_eq_ok.1 h
    cases hPieces
    rw [Collected.ofPieces_options, argumentCount, ← ih hRest]
    rfl
  | command child inner rest _ ih =>
    rw [Items.pieces] at h
    rw [argumentCount]
    split at h
    · rename_i hConstraint
      obtain ⟨innerPieces, -, h⟩ := Except.bind_eq_ok.1 h
      obtain ⟨-, -, h⟩ := Except.bind_eq_ok.1 h
      obtain ⟨constraint, -, h⟩ := Except.bind_eq_ok.1 h
      obtain ⟨restPieces, hRest, hPieces⟩ := Except.bind_eq_ok.1 h
      cases hPieces
      rw [if_pos hConstraint, Collected.ofPieces_constraint, ← ih hRest]
      rfl
    · rename_i hConstraint
      obtain ⟨innerPieces, -, h⟩ := Except.bind_eq_ok.1 h
      obtain ⟨-, -, h⟩ := Except.bind_eq_ok.1 h
      obtain ⟨node, -, h⟩ := Except.bind_eq_ok.1 h
      obtain ⟨restPieces, hRest, hPieces⟩ := Except.bind_eq_ok.1 h
      cases hPieces
      rw [if_neg hConstraint, Collected.ofPieces_child, ← ih hRest]
      simp only [Collected.count, Collected.consChild, List.length_cons]
      omega

/-! ## Whole expressions -/

lemma Items.fits_of_mem_nodes {items : Items} {parent : Command} {node : Tree}
    (hFits : items.fits parent = true) (hNode : node ∈ items.nodes) : node.fits = true := by
  induction items generalizing parent with
  | nil => cases hNode
  | content token rest ih => exact ih hFits hNode
  | reference entries rest ih => exact ih hFits hNode
  | options entries rest ih => exact ih hFits hNode
  | command child inner rest ihInner ih =>
    rw [fits, Bool.and_eq_true, Bool.and_eq_true] at hFits
    obtain ⟨⟨-, hInner⟩, hRest⟩ := hFits
    rw [nodes, List.mem_cons, List.mem_append] at hNode
    obtain rfl | hNode | hNode := hNode
    · exact hInner
    · exact ihInner hInner hNode
    · exact ih hRest hNode

lemma Tree.fits_of_mem_nodes {tree node : Tree} (hFits : tree.fits = true)
    (hNode : node ∈ tree.nodes) : node.fits = true := by
  rw [nodes, List.mem_cons] at hNode
  obtain rfl | hNode := hNode
  · exact hFits
  · exact Items.fits_of_mem_nodes hFits hNode

/-- An expression of a category means what its tree means. -/
lemma parseNode_written {tree : Tree} {category : Category} {text : List Char}
    (hFits : tree.fits = true) (hRoot : category.accepts tree.command.kind = true)
    (hText : tree.IsWritten text) : parseNode {} category text = tree.node := by
  obtain @⟨lead, space, inner, trail, tree, hLead, hSpace, hItems, hTrail⟩ := hText
  obtain ⟨code, hStart, hKeyword⟩ := tree.command.scanKeyword_start inner trail hLead hSpace
  obtain ⟨args, hRead, hArgs⟩ := readArguments_written hItems tree.command.keyword lead.length
    (lead.length + tree.command.keyword.toList.length + space.length + 1) trail
  have hEnd (position : Nat) : (Cursor.skipFiller ⟨position, trail⟩).expectEnd = .ok () := by
    have hSkipped := Cursor.skipWhile_append_of_all position [] hTrail
    rw [List.append_nil, Cursor.skipWhile_nil] at hSkipped
    rw [Cursor.skipFiller, hSkipped]
    rfl
  have hOpened (position : Nat) (c : Char) (rest : List Char) :
      (Cursor.mk position (c :: rest)).advance 1 = ⟨position + 1, rest⟩ := rfl
  have hCollected := collect_readAs hRead hFits 1
  rw [parseNode_eq, hStart]
  simp only [Limits.checkLength, readExpression, readCommand, bind, Except.bind, hKeyword,
    if_pos hRoot, hOpened, hArgs, hCollected, Limits.enter_empty, Tree.node]
  cases tree.items.collected tree.command with
  | error => rfl
  | ok args =>
    simp only []
    cases tree.command.checkCount args with
    | error => rfl
    | ok =>
      cases tree.command.build args with
      | error => rfl
      | ok node => simp only [hEnd]

/-- **Every rendering of a tree of commands is decoded.**  Let a tree have in each of its commands
only commands that are accepted there.  Wherever the items of one of its commands are written, they
are read up to what follows the closing parenthesis, and collected are exactly the children and the
contents in their order, the last options and the last constraint; neither of these two counts as an
argument.  The text of the whole tree is read as the entity that the tree means, by every reader to
whose category its command belongs. -/
theorem parse_written_tree {tree : Tree} (hFits : tree.fits = true) :
    (∀ node ∈ tree.nodes, ∀ inner : List Char, node.items.IsWritten .front inner →
      ∀ (keyword : String) (start position depth : Nat) (tail : List Char),
        let scanned := scanArguments keyword start ⟨position, inner ++ ')' :: tail⟩
        collect {} depth node.command scanned.arguments
            = (node.items.pieces node.command).map (fun pieces =>
                { children := pieces.filterMap Piece.child?
                  contents := pieces.filterMap Piece.content?
                  options := (pieces.filterMap Piece.options?).getLast?
                  constraint := (pieces.filterMap Piece.constraint?).getLast? }) ∧
          scanned.last.map Subtype.val
            = .ok (Cursor.skipFiller ⟨position + inner.length + 1, tail⟩)) ∧
      (∀ node ∈ tree.nodes, ∀ args, node.items.collected node.command = .ok args →
        args.count = node.items.argumentCount) ∧
      ∀ (category : Category) (text : List Char), category.accepts tree.command.kind = true →
        tree.IsWritten text → parseNode {} category text = tree.node := by
  refine ⟨?_, ?_, fun category text hRoot hText => parseNode_written hFits hRoot hText⟩
  · intro node hNode inner hInner keyword start position depth tail
    have hNodeFits := Tree.fits_of_mem_nodes hFits hNode
    obtain ⟨args, hRead, hArgs⟩ := readArguments_written hInner keyword start position tail
    obtain ⟨hArguments, hLast⟩ := Prod.ext_iff.1 hArgs
    refine ⟨?_, hLast⟩
    have hCollected := collect_readAs hRead hNodeFits depth
    rw [← show (scanArguments keyword start ⟨position, inner ++ ')' :: tail⟩).arguments = args
      from hArguments] at hCollected
    exact hCollected
  · intro node _ args hArgs
    obtain ⟨pieces, hPieces, rfl⟩ := Except.map_eq_ok.1 hArgs
    exact Items.count_pieces hPieces

/-- The negation of a test whether a variable is missing. -/
def absenceTree : Tree :=
  ⟨.composite .not, .command (.atomic .isNull) (.reference [.bare ['x']] .nil) .nil⟩

/-- Semicolons are fillers, and a comma behind the last argument is as good as none. -/
theorem parse_written_tree_absence :
    absenceTree.fits = true ∧
      parseNode {} .condition "*not ( *isNull(#ref(x) ;) , )".toList
        = .ok (.condition (.composite {} .not
            [.value (.atomic { operation := .isNull, args := [.ref { id := "x" }] })] {})) := by
  have hEntry : Token.IsArgument (.bare ['x']) ['x'] :=
    ⟨rfl, ⟨by decide, by decide, 'x', rfl, by decide, by decide⟩, [], by decide, rfl⟩
  have hEntries := @Listed.item Token separatesArguments Token.IsArgument [] ['x'] [] _ []
    (by decide) hEntry .closing
  have hReference := @Items.IsWritten.reference [] [] _ [' ', ';'] [] _ .nil (by decide)
    (by decide) hEntries (Or.inl rfl) (by decide) .closing
  have hEnd : Items.IsWritten .behind .nil [',', ' '] :=
    .comma (@Items.IsWritten.gap [' '] (by decide))
  have hItems := @Items.IsWritten.command [' '] [] _ [' '] _ (.atomic .isNull) _ .nil (by decide)
    (by decide) (by decide) (by decide) hReference (by decide) hEnd
  have hText : absenceTree.IsWritten "*not ( *isNull(#ref(x) ;) , )".toList :=
    @Tree.IsWritten.intro [] [' '] _ [] absenceTree (by decide) (by decide) hItems (by decide)
  have hFits : absenceTree.fits = true := by decide
  have hParse := (parse_written_tree hFits).2.2 .condition _ (by decide) hText
  exact ⟨hFits, hParse.trans rfl⟩

end PolicyText
