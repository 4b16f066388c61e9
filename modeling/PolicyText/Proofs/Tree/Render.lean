import PolicyText.Proofs.Scan.Expressible
import PolicyText.Proofs.Tree.Decode

/-!
# The plain text of a tree

Of all texts in which a tree can be written this is the one without any room (`Tree.render`): single
commas between the items and nothing else that could be left out.  It is among the texts of the tree
if every token of the tree can be read back (`Items.Sound`, `Tree.isWritten_render`), and so it is
read as what the tree means (`parseNode_render`).
-/

namespace PolicyText

/-! ## Lists -/

/-- The comma that stands in front of an item, if there is one. -/
def ListPlace.comma : ListPlace → List Char
  | .front => []
  | .behind => [',']

/-- The items of a list with single commas between them. -/
def renderList {α : Type} (write : α → List Char) : ListPlace → List α → List Char
  | _, [] => []
  | place, a :: rest => place.comma ++ (write a ++ renderList write .behind rest)

lemma Listed.comma_append {α : Type} {separates : Char → Bool} {IsItem : α → List Char → Prop}
    {items : List α} {text : List Char} (h : Listed separates IsItem .front items text)
    (place : ListPlace) : Listed separates IsItem place items (place.comma ++ text) := by
  cases place with
  | front => exact h
  | behind => exact .comma h

lemma listed_renderList {α : Type} {separates : Char → Bool} {IsItem : α → List Char → Prop}
    {write : α → List Char} {items : List α} (hItems : ∀ a ∈ items, IsItem a (write a))
    (place : ListPlace) : Listed separates IsItem place items (renderList write place items) := by
  induction items generalizing place with
  | nil =>
    cases place with
    | front => exact .gap (List.forall_mem_nil _)
    | behind => exact .closing
  | cons a rest ih =>
    have hRest := ih (fun b hb => hItems b (List.mem_cons_of_mem _ hb)) .behind
    exact (Listed.item (List.forall_mem_nil _) (hItems a List.mem_cons_self) hRest).comma_append
      place

/-! ## Trees -/

namespace Items

/-- The items of a command with single commas between them. -/
def render : ListPlace → Items → List Char
  | _, .nil => []
  | place, .content token rest => place.comma ++ (token.written ++ rest.render .behind)
  | place, .reference entries rest =>
    place.comma ++ (Command.reference.enclosing [] (renderList Token.written .front entries) ++
      rest.render .behind)
  | place, .options entries rest =>
    place.comma ++ (Command.options.enclosing [] (renderList OptionEntry.written .front entries) ++
      rest.render .behind)
  | place, .command child inner rest =>
    place.comma ++ (child.enclosing [] (inner.render .front) ++ rest.render .behind)

/-- Whether everything among the items is read back as it is written. -/
def Sound : Items → Prop
  | .nil => True
  | .content token rest => token.Begins ∧ token.Sound ∧ rest.Sound
  | .reference entries rest =>
    (∀ token ∈ entries, token.Begins ∧ token.Sound) ∧
      (entries.length = 1 ∨ entries.length = 2) ∧ rest.Sound
  | .options entries rest => (∀ entry ∈ entries, entry.IsWritten entry.written) ∧ rest.Sound
  | .command child inner rest =>
    child ≠ .options ∧ child ≠ .reference ∧ inner.Sound ∧ rest.Sound

lemma IsWritten.comma_append {items : Items} {text : List Char} (h : items.IsWritten .front text)
    (place : ListPlace) : items.IsWritten place (place.comma ++ text) := by
  cases place with
  | front => exact h
  | behind => exact .comma h

/-- The plain text of items is one of their texts. -/
lemma isWritten_render {items : Items} (hSound : items.Sound) (place : ListPlace) :
    items.IsWritten place (items.render place) := by
  have hGap (separates : Char → Bool) : ∀ c ∈ [], separates c = true := List.forall_mem_nil _
  induction items generalizing place with
  | nil =>
    cases place with
    | front => exact .gap (hGap _)
    | behind => exact .closing
  | content token rest ih =>
    obtain ⟨hBegins, hToken, hRest⟩ := hSound
    have hArgument : token.IsArgument token.written := ⟨hBegins, Token.isPadded_written hToken⟩
    exact (IsWritten.content (hGap _) hArgument (ih hRest .behind)).comma_append place
  | reference entries rest ih =>
    obtain ⟨hEntries, hCount, hRest⟩ := hSound
    have hListed : Listed separatesArguments Token.IsArgument .front entries
        (renderList Token.written .front entries) := by
      refine listed_renderList (fun token hToken => ?_) .front
      exact ⟨(hEntries token hToken).1, Token.isPadded_written (hEntries token hToken).2⟩
    exact (IsWritten.reference (hGap _) (hGap _) hListed hCount (hGap _)
      (ih hRest .behind)).comma_append place
  | options entries rest ih =>
    obtain ⟨hEntries, hRest⟩ := hSound
    exact (IsWritten.options (hGap _) (hGap _) (listed_renderList hEntries .front) (hGap _)
      (ih hRest .behind)).comma_append place
  | command child inner rest ihInner ih =>
    obtain ⟨hOptions, hReference, hInner, hRest⟩ := hSound
    exact (IsWritten.command (hGap _) (hGap _) hOptions hReference (ihInner hInner .front)
      (hGap _) (ih hRest .behind)).comma_append place

end Items

/-- The plain text of a tree. -/
def Tree.render (tree : Tree) : List Char :=
  tree.command.enclosing [] (tree.items.render .front)

lemma Tree.isWritten_render {tree : Tree} (hSound : tree.items.Sound) :
    tree.IsWritten tree.render := by
  have hNil : IsPadding [] := List.forall_mem_nil _
  have hText := @Tree.IsWritten.intro [] [] _ [] tree hNil hNil
    (Items.isWritten_render hSound .front) hNil
  rwa [List.nil_append, List.append_nil] at hText

lemma parseNode_render {tree : Tree} {category : Category} (hFits : tree.fits = true)
    (hRoot : category.accepts tree.command.kind = true) (hSound : tree.items.Sound) :
    parseNode {} category tree.render = tree.node :=
  parseNode_written hFits hRoot (Tree.isWritten_render hSound)

end PolicyText
