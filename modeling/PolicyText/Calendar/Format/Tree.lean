import PolicyText.Calendar.Format
import PolicyText.Text.Blank
import PolicyText.Text.Utf8

/-!
# Brackets of format descriptions

The first look at a format description: which brackets belong together, and what the names and
modifiers between them are.  What these mean is left to later.

A component is a name, then modifiers `key:value`, then nested descriptions in brackets of their
own; white space stands before every modifier and before the first nested description.  Inside a
nested description text and components follow each other as they do outside, and a doubled opening
bracket stands for itself.  A backslash between brackets is part of no name and no modifier.

Nothing is said about a fault inside a nested description: the nested descriptions of a component
are those that can be read, and where the last of them ends, or where one cannot be read on, the
component has to be closed.  That is why a component that cannot be read still has a rest
(`Reading.rest`).
-/

namespace PolicyText.Format

/-- A piece of a description and the byte at which it begins. -/
structure Piece where
  text : List Char
  index : Nat
  deriving DecidableEq

namespace Piece

/-- What follows the first characters of a piece that are of a class. -/
def skip (p : Char → Bool) (piece : Piece) : Piece :=
  ⟨piece.text.dropWhile p, piece.index + Text.utf8Length (piece.text.takeWhile p)⟩

/-- The first characters of a piece that are of a class. -/
def take (p : Char → Bool) (piece : Piece) : Piece :=
  ⟨piece.text.takeWhile p, piece.index⟩

theorem length_text_skip_le (p : Char → Bool) (piece : Piece) :
    (piece.skip p).text.length ≤ piece.text.length :=
  Text.length_dropWhile_le p piece.text

theorem length_text_skip_skip_le (p q : Char → Bool) (piece : Piece) :
    ((piece.skip p).skip q).text.length ≤ piece.text.length :=
  Nat.le_trans ((piece.skip p).length_text_skip_le q) (piece.length_text_skip_le p)

theorem length_text_skip_lt {p : Char → Bool} {piece : Piece} (h : (piece.take p).text ≠ []) :
    (piece.skip p).text.length < piece.text.length := by
  have hAll : piece.text.takeWhile p ++ piece.text.dropWhile p = piece.text :=
    List.takeWhile_append_dropWhile
  have hPos : 0 < (piece.text.takeWhile p).length := List.length_pos_iff.mpr h
  have hLength := congrArg List.length hAll
  rw [List.length_append] at hLength
  show (piece.text.dropWhile p).length < piece.text.length
  omega

theorem length_text_skip_skip_lt (p q : Char → Bool) (piece : Piece)
    (h : ((piece.skip p).take q).text ≠ []) :
    ((piece.skip p).skip q).text.length < piece.text.length :=
  Nat.lt_of_lt_of_le (length_text_skip_lt h) (piece.length_text_skip_le p)

/-- What follows a given first character. -/
def after? (mark : Char) (piece : Piece) : Option Piece :=
  match piece.text with
  | [] => none
  | c :: rest => if c = mark then some ⟨rest, piece.index + c.utf8Size⟩ else none

theorem length_text_of_after? {mark : Char} {piece rest : Piece}
    (h : piece.after? mark = some rest) : rest.text.length < piece.text.length := by
  obtain ⟨text, index⟩ := piece
  cases text with
  | nil => simp [after?] at h
  | cons c tail =>
    simp only [after?] at h
    split at h
    · obtain rfl := Option.some.inj h
      exact Nat.lt_succ_self tail.length
    · simp at h

end Piece

/-- The white space that separates the parts of a component. -/
def isSpace (c : Char) : Bool :=
  c == ' ' || c == '\t' || c == '\n' || c == '\r' || c.toNat == 12

/-- The characters that names and modifiers are made of. -/
def isWordChar (c : Char) : Bool :=
  !(isSpace c || c == '[' || c == ']' || c == '\\')

/-- A modifier of a component. -/
structure Modifier where
  key : Piece
  value : Piece
  deriving DecidableEq

mutual

/-- A part of a description: text that stands for itself, or a component between brackets, which
stand at the bytes `opening` and `closing`. -/
inductive Node where
  | literal (text : List Char)
  | component (opening : Nat) (name : Piece) (modifiers : List Modifier)
    (nested : List Description) (closing : Nat)

/-- A nested description, whose bracket stands at the byte `opening`. -/
inductive Description where
  | mk (opening : Nat) (nodes : List Node)

end

/-- The byte at which the bracket of a nested description stands. -/
def Description.opening : Description → Nat
  | .mk opening _ => opening

/-! ## Names and modifiers -/

/-- Takes a modifier apart at its colon. -/
def readModifier (piece : Piece) : Except FormatFault Modifier :=
  let key := piece.take (· != ':')
  let colon := piece.skip (· != ':')
  match colon.text with
  | [] => .error (.invalidModifier (String.ofList piece.text) piece.index)
  | _ :: value =>
    if key.text.isEmpty then .error (.invalidModifier "" piece.index)
    else if value.isEmpty then .error (.invalidModifier "" colon.index)
    else .ok ⟨key, ⟨value, colon.index + 1⟩⟩

/-- Reads modifiers as long as there are any, and the white space behind them. -/
def readModifiers (source : Piece) : Except FormatFault (List Modifier) × Piece :=
  let word := source.skip isSpace
  if (source.take isSpace).text.isEmpty then
    if word.text.head? = some '[' then (.error (.missingSpace word.index), word)
    else (.ok [], word)
  else if _h : (word.take isWordChar).text = [] then (.ok [], word)
  else
    match readModifier (word.take isWordChar) with
    | .error fault => (.error fault, word.skip isWordChar)
    | .ok modifier =>
      let (modifiers, rest) := readModifiers (word.skip isWordChar)
      (modifiers.map (modifier :: ·), rest)
termination_by source.text.length
decreasing_by exact source.length_text_skip_skip_lt isSpace isWordChar _h

theorem length_text_readModifiers_le (source : Piece) :
    (readModifiers source).2.text.length ≤ source.text.length := by
  fun_induction readModifiers source with
  | case1 source => exact source.length_text_skip_le isSpace
  | case2 source => exact source.length_text_skip_le isSpace
  | case3 source => exact source.length_text_skip_le isSpace
  | case4 source => exact source.length_text_skip_skip_le isSpace isWordChar
  | case5 source _ _ _ _ _ _ _ h ih =>
    rw [h] at ih
    exact Nat.le_trans ih (source.length_text_skip_skip_le isSpace isWordChar)

/-- Reads the name of a component, whose bracket stands at the byte `opening`, and its modifiers. -/
def readHead (opening : Nat) (source : Piece) :
    Except FormatFault (Piece × List Modifier) × Piece :=
  let blank := source.take isSpace
  let name := (source.skip isSpace).take isWordChar
  if name.text.isEmpty then
    (.error (.missingName (if blank.text.isEmpty then opening else blank.index)),
      source.skip isSpace)
  else
    let (modifiers, rest) := readModifiers ((source.skip isSpace).skip isWordChar)
    (modifiers.map (name, ·), rest)

theorem length_text_readHead_le (opening : Nat) (source : Piece) :
    (readHead opening source).2.text.length ≤ source.text.length := by
  simp only [readHead]
  split
  · exact source.length_text_skip_le isSpace
  · exact Nat.le_trans (length_text_readModifiers_le _)
      (source.length_text_skip_skip_le isSpace isWordChar)

/-! ## Components and nested descriptions -/

/-- What has been read of a piece, and what is left of it. -/
structure Reading (α : Type) (source : Piece) where
  value : α
  rest : Piece
  length_le : rest.text.length ≤ source.text.length

mutual

/-- Reads a component whose bracket, at the byte `opening`, has been read. -/
def readComponent (opening : Nat) (source : Piece) : Reading (Except FormatFault Node) source :=
  have hHead := length_text_readHead_le opening source
  match (readHead opening source).1 with
  | .error fault => ⟨.error fault, (readHead opening source).2, hHead⟩
  | .ok (name, modifiers) =>
    match readNested (readHead opening source).2 with
    | ⟨nested, rest, hRest⟩ =>
      match hClose : rest.after? ']' with
      | none => ⟨.error (.unclosedBracket opening), rest, Nat.le_trans hRest hHead⟩
      | some after =>
        ⟨.ok (.component opening name modifiers nested rest.index), after,
          Nat.le_trans (Nat.le_of_lt (Piece.length_text_of_after? hClose))
            (Nat.le_trans hRest hHead)⟩
termination_by 2 * source.text.length + 1

/-- Reads nested descriptions, and the white space behind each, as long as there are any. -/
def readNested (source : Piece) : Reading (List Description) source :=
  match hOpen : source.after? '[' with
  | none => ⟨[], source, Nat.le_refl _⟩
  | some inner =>
    have hInner := Nat.le_of_lt (Piece.length_text_of_after? hOpen)
    match readNodes inner with
    | ⟨none, rest, hRest⟩ => ⟨[], rest, Nat.le_trans hRest hInner⟩
    | ⟨some nodes, rest, hRest⟩ =>
      match hClose : rest.after? ']' with
      | none => ⟨[], rest, Nat.le_trans hRest hInner⟩
      | some after =>
        have hAfter : (after.skip isSpace).text.length ≤ source.text.length :=
          Nat.le_trans (after.length_text_skip_le isSpace)
            (Nat.le_trans (Nat.le_of_lt (Piece.length_text_of_after? hClose))
              (Nat.le_trans hRest hInner))
        match readNested (after.skip isSpace) with
        | ⟨later, rest, hLater⟩ =>
          ⟨.mk source.index nodes :: later, rest, Nat.le_trans hLater hAfter⟩
termination_by 2 * source.text.length
decreasing_by
  · have := Piece.length_text_of_after? hOpen
    omega
  · have := Piece.length_text_of_after? hOpen
    have := Piece.length_text_of_after? hClose
    have := after.length_text_skip_le isSpace
    omega

/-- Reads what stands inside a nested description, up to its closing bracket or the end, unless a
component in it cannot be read. -/
def readNodes (source : Piece) : Reading (Option (List Node)) source :=
  match hOpen : source.after? '[' with
  | some inner =>
    have hInner := Nat.le_of_lt (Piece.length_text_of_after? hOpen)
    match hSecond : inner.after? '[' with
    | some tail =>
      have hTail := Nat.le_of_lt (Piece.length_text_of_after? hSecond)
      match readNodes tail with
      | ⟨later, rest, hRest⟩ =>
        ⟨later.map (.literal ['['] :: ·), rest, Nat.le_trans hRest (Nat.le_trans hTail hInner)⟩
    | none =>
      match readComponent source.index inner with
      | ⟨.error _, rest, hRest⟩ => ⟨none, rest, Nat.le_trans hRest hInner⟩
      | ⟨.ok node, rest, hRest⟩ =>
        match readNodes rest with
        | ⟨later, rest, hLater⟩ =>
          ⟨later.map (node :: ·), rest, Nat.le_trans hLater (Nat.le_trans hRest hInner)⟩
  | none =>
    match source with
    | ⟨[], index⟩ => ⟨some [], ⟨[], index⟩, Nat.le_refl _⟩
    | ⟨c :: tail, index⟩ =>
      if c = ']' then ⟨some [], ⟨c :: tail, index⟩, Nat.le_refl _⟩
      else
        match readNodes ⟨tail, index + c.utf8Size⟩ with
        | ⟨later, rest, hRest⟩ =>
          ⟨later.map (.literal [c] :: ·), rest, Nat.le_succ_of_le hRest⟩
termination_by 2 * source.text.length
decreasing_by
  · have := Piece.length_text_of_after? hOpen
    have := Piece.length_text_of_after? hSecond
    omega
  · have := Piece.length_text_of_after? hOpen
    omega
  · have := Piece.length_text_of_after? hOpen
    omega
  · simp only [List.length_cons]
    omega

end

end PolicyText.Format
