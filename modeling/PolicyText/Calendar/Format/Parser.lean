import PolicyText.Calendar.Format.Component

/-!
# Reading format descriptions

`Format.parse` turns a description into the items of a format, or says what is wrong with it and at
which byte.  A description is read part by part: of two faults the one in the earlier part is
reported, and inside a part all brackets, names and modifiers are taken apart before any of them is
looked up.

Optional parts, `[optional …]`, and alternatives, `[first … …]`, belong to the notation and are
checked like all else, but they cannot stand in a description that is read while the program runs.
-/

namespace PolicyText.Format

/-- What a part of a description means. -/
inductive Part where
  | item (item : FormatItem)
  /-- Nested descriptions to choose from; `what` names the kind of choice. -/
  | choice (what : String) (opening : Nat)

mutual

/-- What a part of a description means, if all its names and modifiers are known. -/
def Node.part : Node → Except FormatFault Part
  | .literal text => .ok (.item (.literal (Text.utf8 text)))
  | .component opening name modifiers nested closing =>
    if isWord name.text "optional" then do
      let _ ← applyModifiers [.format] {} modifiers
      match nested with
      | [] => throw (.missingNested closing)
      | [_] => pure ()
      | first :: _ => throw (.manyNested first.opening)
      checkNested nested
      .ok (.choice "optional" opening)
    else if isWord name.text "first" then do
      let _ ← applyModifiers [] {} modifiers
      checkNested nested
      .ok (.choice "'first'" opening)
    else if nested.isEmpty then
      (readComponentName name modifiers).map fun component => .item (.component component)
    else .error (.strayNested opening)

/-- Checks nested descriptions in their order. -/
def checkNested : List Description → Except FormatFault Unit
  | [] => .ok ()
  | .mk _ nodes :: later => do
    checkNodes nodes
    checkNested later

/-- Checks the parts of a nested description in their order. -/
def checkNodes : List Node → Except FormatFault Unit
  | [] => .ok ()
  | node :: later => do
    let _ ← node.part
    checkNodes later

end

/-- The item that a part is, if the part can be read while the program runs. -/
def Part.toItem : Part → Except FormatFault FormatItem
  | .item whole => .ok whole
  | .choice what opening => .error (.unsupported what opening)

/-- Reads a description. -/
def readItems (source : Piece) : Except FormatFault (List FormatItem) :=
  match _hOpen : source.after? '[' with
  | some inner =>
    match _hSecond : inner.after? '[' with
    | some tail => do
      let items ← readItems tail
      .ok (.literal (Text.utf8 ['[']) :: items)
    | none =>
      match readComponent source.index inner with
      | ⟨value, rest, _hRest⟩ => do
        let node ← value
        let part ← node.part
        let item ← part.toItem
        let items ← readItems rest
        .ok (item :: items)
  | none =>
    if _h : (source.take (· != '[')).text = [] then .ok []
    else do
      let items ← readItems (source.skip (· != '['))
      .ok (.literal (Text.utf8 (source.take (· != '[')).text) :: items)
termination_by source.text.length
decreasing_by
  · exact Nat.lt_trans (Piece.length_text_of_after? _hSecond) (Piece.length_text_of_after? _hOpen)
  · exact Nat.lt_of_le_of_lt _hRest (Piece.length_text_of_after? _hOpen)
  · exact Piece.length_text_skip_lt _h

/-- Reads a format description. -/
def parse (description : String) : Except FormatFault (List FormatItem) :=
  readItems ⟨description.toList, 0⟩

end PolicyText.Format
