import PolicyText.Proofs.Scan.Token

/-!
# Lists with commas between their items

Arguments, the entries of references and options are written alike: items with commas between them,
and around the commas as much room as one likes.  `Listed` is this layout for items of any sort.  It
says where an item can begin (`ListPlace.front`) and what can stand directly behind one
(`ListPlace.behind`), namely a comma or nothing more; several commas in a row are as good as one.

A loop that reads such a list passes over what separates the items (`Cursor.PassesOver`), so that
the gap in front of an item makes no difference to it (`Cursor.PassesOver.append`).

Room behind an item belongs to the item.  For a token of content this is `Token.IsPadded`, and
`scanContent_padded` says that a padded token is read up to the stop behind its padding.
-/

namespace PolicyText

/-! ## Gaps -/

namespace Cursor

variable {α : Type} {skips : Char → Bool} {scan : Cursor → α}

/-- A scanner that passes over characters of some sort: it does in front of one of them what it
does behind it. -/
def PassesOver (skips : Char → Bool) (scan : Cursor → α) : Prop :=
  ∀ position c rest, skips c = true → scan ⟨position, c :: rest⟩ = scan ⟨position + 1, rest⟩

lemma PassesOver.append (hScan : PassesOver skips scan) {gap : List Char}
    (hGap : ∀ c ∈ gap, skips c = true) (position : Nat) (rest : List Char) :
    scan ⟨position, gap ++ rest⟩ = scan ⟨position + gap.length, rest⟩ := by
  induction gap generalizing position with
  | nil => rfl
  | cons c gap ih =>
    have hFirst := hScan position c (gap ++ rest) (hGap c (by simp))
    rw [List.cons_append, hFirst, ih (fun d hd => hGap d (by simp [hd])), List.length_cons]
    congr 2
    omega

end Cursor

/-- Whether a character can stand between arguments: a comma or a filler. -/
def separatesArguments (c : Char) : Bool :=
  c == ',' || isFiller c

lemma class_of_separatesArguments {c : Char} (h : separatesArguments c = true) :
    CharClass.of c = .delimiter ∨ CharClass.of c = .filler := by
  rw [separatesArguments, Bool.or_eq_true, beq_iff_eq, isFiller_iff] at h
  rcases h with rfl | hFiller
  · exact Or.inl (by decide)
  · exact Or.inr hFiller

/-! ## The layout of a list -/

/-- The two places at which the text of a list can be continued: where an item can begin, and
directly behind an item. -/
inductive ListPlace where
  | front
  | behind
  deriving DecidableEq

/-- A text is a list of items: between two of them stands a comma, and there can be further
separators in front of every item and behind the last comma. -/
inductive Listed {α : Type} (separates : Char → Bool) (IsItem : α → List Char → Prop) :
    ListPlace → List α → List Char → Prop where
  | gap {gap : List Char} (hGap : ∀ c ∈ gap, separates c = true) :
    Listed separates IsItem .front [] gap
  | closing : Listed separates IsItem .behind [] []
  | comma {items : List α} {text : List Char} (hItems : Listed separates IsItem .front items text) :
    Listed separates IsItem .behind items (',' :: text)
  | item {gap written text : List Char} {a : α} {items : List α}
    (hGap : ∀ c ∈ gap, separates c = true) (hItem : IsItem a written)
    (hItems : Listed separates IsItem .behind items text) :
    Listed separates IsItem .front (a :: items) (gap ++ (written ++ text))

lemma Listed.exists_stop {α : Type} {separates : Char → Bool} {IsItem : α → List Char → Prop}
    {items : List α} {text : List Char} (h : Listed separates IsItem .behind items text)
    (tail : List Char) :
    ∃ d rest, text ++ ')' :: tail = d :: rest ∧ (d = ',' ∨ d = ')') := by
  cases h with
  | closing => exact ⟨')', tail, rfl, Or.inr rfl⟩
  | comma hItems => exact ⟨',', _, List.cons_append, Or.inl rfl⟩

/-! ## Padded tokens -/

lemma isFiller_of_stop {d : Char} (hd : d = ',' ∨ d = ')') : isFiller d = false := by
  rcases hd with rfl | rfl <;> rfl

namespace Token

/-- Whether a token can stand among arguments, where the first character of a bare token tells it
from a command. -/
def Begins : Token → Prop
  | .bare text => text.head?.map CharClass.of = some .content
  | .wrapped .. => True

/-- A token with padding behind it: as much as is passed over there. -/
def IsPadded (token : Token) (written : List Char) : Prop :=
  token.Sound ∧ ∃ pad, (∀ c ∈ pad, token.skips c = true) ∧ written = token.written ++ pad

/-- A token among arguments, with its padding. -/
def IsArgument (token : Token) (written : List Char) : Prop :=
  token.Begins ∧ token.IsPadded written

lemma exists_content {token : Token} (hToken : token.Begins) :
    ∃ d tail, token.written = d :: tail ∧ CharClass.of d = .content := by
  cases token with
  | bare text =>
    obtain ⟨d, hd, hClass⟩ := Option.map_eq_some_iff.1 hToken
    obtain ⟨tail, hTail⟩ := List.head?_eq_some_iff.1 hd
    exact ⟨d, tail, hTail, hClass⟩
  | wrapped wrapper text =>
    cases wrapper with
    | backtick => exact ⟨'\x60', text ++ ['\x60'], rfl, by decide⟩
    | quote => exact ⟨'\x22', text ++ ['\x22'], rfl, by decide⟩
    | tripleQuote =>
      exact ⟨'\x22', ['\x22', '\x22'] ++ (text ++ ['\x22', '\x22', '\x22']), rfl, by decide⟩

lemma IsArgument.exists_content {token : Token} {written : List Char}
    (hToken : token.IsArgument written) (rest : List Char) :
    ∃ d tail, written ++ rest = d :: tail ∧ CharClass.of d = .content := by
  obtain ⟨hBegins, -, pad, -, rfl⟩ := hToken
  obtain ⟨d, tail, hWritten, hClass⟩ := Token.exists_content hBegins
  exact ⟨d, tail ++ (pad ++ rest), by simp [hWritten], hClass⟩

lemma endsBefore_pad {token : Token} {pad tail : List Char} {d : Char}
    (hPad : ∀ c ∈ pad, token.skips c = true) (hd : d = ',' ∨ d = ')') :
    token.EndsBefore (pad ++ d :: tail) := by
  cases token with
  | bare text => exact ⟨pad, d, tail, rfl, hPad, hd⟩
  | wrapped wrapper text =>
    cases pad with
    | nil => rcases hd with rfl | rfl <;> simp [EndsBefore]
    | cons c pad =>
      have hFiller : isFiller c = true := hPad c (by simp)
      simp only [EndsBefore, List.cons_append, List.head?_cons, ne_eq, Option.some.injEq]
      rintro rfl
      cases hFiller

end Token

lemma scanContent_padded {token : Token} {written : List Char} {d : Char} (position : Nat)
    (tail : List Char) (hToken : token.IsPadded written) (hd : d = ',' ∨ d = ')') :
    scanContent ',' ⟨position, written ++ d :: tail⟩
      = .ok (String.ofList token.text, ⟨position + written.length, d :: tail⟩) := by
  obtain ⟨hSound, pad, hPad, rfl⟩ := hToken
  have hStop : token.skips d = false := by
    cases token with
    | bare => exact isBlank_of_stop hd
    | wrapped => exact isFiller_of_stop hd
  rw [List.append_assoc, scanContent_written position hSound (Token.endsBefore_pad hPad hd),
    Cursor.skipWhile_append_cons _ hPad hStop, List.length_append, Nat.add_assoc]

end PolicyText
