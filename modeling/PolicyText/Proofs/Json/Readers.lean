import Mathlib.Logic.Basic
import PolicyText.Json.Parser

/-!
# The readers of JSON without their measures

The readers of values, items and fields say along with what they read that they have taken something
from the text, because they end for that reason.  `Json.scanValue`, `Json.scanItems` and
`Json.scanFields` leave this out and give a value with the text behind it.  Each of them satisfies
the equation that its reader would have without the measure (`Json.scanValue_eq`,
`Json.scanItems_eq`, `Json.scanFields_eq`).
-/

namespace PolicyText.Json

/-- Reads a value, with `depth` levels of nesting left. -/
def scanValue (depth : Nat) (text : List Char) : Except JsonFault (Json × List Char) :=
  (readValue depth text).map Subtype.val

/-- Reads one or more items of an array, up to and with its bracket. -/
def scanItems (depth : Nat) (text : List Char) : Except JsonFault (List Json × List Char) :=
  (readItems depth text).map Subtype.val

/-- Reads one or more fields of an object from behind the first opening quote, up to and with its
brace. -/
def scanFields (depth : Nat) (text : List Char) :
    Except JsonFault (List (String × Json) × List Char) :=
  (readFields depth text).map Subtype.val

/-- The first character behind white space tells what kind of value is read. -/
lemma scanValue_eq (depth : Nat) (text : List Char) :
    scanValue depth text =
      match skipSpace text with
      | [] => faultBefore .endInValue []
      | c :: tail =>
        if c = 'n' then (readWord ['u', 'l', 'l'] tail).map fun rest => (.null, rest)
        else if c = 't' then (readWord ['r', 'u', 'e'] tail).map fun rest => (.bool true, rest)
        else if c = 'f' then
          (readWord ['a', 'l', 's', 'e'] tail).map fun rest => (.bool false, rest)
        else if c = '-' then (readNumber true tail).map fun read => (.number read.1, read.2)
        else if c.isDigit then
          (readNumber false (c :: tail)).map fun read => (.number read.1, read.2)
        else if c = '\x22' then
          (readString tail).map fun read => (.string (String.ofList read.1), read.2)
        else if c = '[' then
          if depth ≤ 1 then faultAt .tooDeep (c :: tail)
          else
            match skipSpace tail with
            | [] => faultBefore .endInArray []
            | d :: inner =>
              if d = ']' then .ok (.array [], inner)
              else (scanItems (depth - 1) tail).map fun read => (.array read.1, read.2)
        else if c = '\x7b' then
          if depth ≤ 1 then faultAt .tooDeep (c :: tail)
          else
            match skipSpace tail with
            | [] => faultBefore .endInObject []
            | d :: inner =>
              if d = '\x7d' then .ok (.object [], inner)
              else if d = '\x22' then
                (scanFields (depth - 1) inner).map fun read => (.object read.1, read.2)
              else faultAt .nameMustBeString (d :: inner)
        else faultAt .expectedValue (c :: tail) := by
  rw [scanValue, readValue]
  split
  · rename_i hText
    simp only [hText]
    rfl
  · rename_i c tail hText
    simp only [hText, apply_ite (Except.map _), scanItems, scanFields]
    refine if_congr Iff.rfl ?null <| if_congr Iff.rfl ?yes <| if_congr Iff.rfl ?no <|
      if_congr Iff.rfl ?negative <| if_congr Iff.rfl ?digit <| if_congr Iff.rfl ?string <|
      if_congr Iff.rfl (if_congr Iff.rfl rfl ?array) <|
      if_congr Iff.rfl (if_congr Iff.rfl rfl ?object) rfl
    case array =>
      split
      · rename_i hInner
        simp only [hInner]
        rfl
      · rename_i hInner
        simp only [hInner, apply_ite (Except.map _)]
        refine if_congr Iff.rfl rfl ?_
        split <;> rename_i hRead <;> simp only [hRead] <;> rfl
    case object =>
      split
      · rename_i hInner
        simp only [hInner]
        rfl
      · rename_i hInner
        simp only [hInner, apply_ite (Except.map _)]
        refine if_congr Iff.rfl rfl (if_congr Iff.rfl ?_ rfl)
        split <;> rename_i hRead <;> simp only [hRead] <;> rfl
    -- Every other branch asks one reader, and keeps its fault or what it has read.
    all_goals split <;> rename_i hRead <;> simp only [hRead] <;> rfl

/-- Behind an item an array ends, or a comma comes before more items. -/
lemma scanItems_eq (depth : Nat) (text : List Char) :
    scanItems depth text =
      match scanValue depth text with
      | .error fault => .error fault
      | .ok (item, rest) =>
        match skipSpace rest with
        | [] => faultBefore .endInArray []
        | c :: tail =>
          if c = ']' then .ok ([item], tail)
          else if c = ',' then
            match skipSpace tail with
            | [] => faultBefore .endInValue []
            | d :: after =>
              if d = ']' then faultAt .trailingComma (d :: after)
              else (scanItems depth tail).map fun read => (item :: read.1, read.2)
          else faultAt .expectedArrayCommaOrEnd (c :: tail) := by
  rw [scanItems, readItems]
  split
  · rename_i fault hItem
    have hScan : scanValue depth text = .error fault := by rw [scanValue, hItem]; rfl
    simp only [hScan]
    rfl
  · rename_i item rest hLength hItem
    have hScan : scanValue depth text = .ok (item, rest) := by rw [scanValue, hItem]; rfl
    simp only [hScan]
    split
    · rename_i hRest
      simp only [hRest]
      rfl
    · rename_i c tail hRest
      simp only [hRest, apply_ite (Except.map _)]
      refine if_congr Iff.rfl rfl (if_congr Iff.rfl ?_ rfl)
      cases skipSpace tail with
      | nil => rfl
      | cons d after =>
        simp only [apply_ite (Except.map _)]
        refine if_congr Iff.rfl rfl ?_
        split <;> rename_i hRead <;> simp only [scanItems, hRead] <;> rfl

/-- A field is a name, a colon and a value; behind it an object ends, or a comma comes before more
fields. -/
lemma scanFields_eq (depth : Nat) (text : List Char) :
    scanFields depth text =
      match readString text with
      | .error fault => .error fault
      | .ok (name, rest) =>
        match skipSpace rest with
        | [] => faultBefore .endInObject []
        | colon :: afterColon =>
          if colon = ':' then
            match scanValue depth afterColon with
            | .error fault => .error fault
            | .ok (value, rest) =>
              match skipSpace rest with
              | [] => faultBefore .endInObject []
              | c :: tail =>
                if c = '\x7d' then .ok ([(String.ofList name, value)], tail)
                else if c = ',' then
                  match skipSpace tail with
                  | [] => faultBefore .endInValue []
                  | d :: after =>
                    if d = '\x22' then
                      (scanFields depth after).map fun read =>
                        ((String.ofList name, value) :: read.1, read.2)
                    else if d = '\x7d' then faultAt .trailingComma (d :: after)
                    else faultAt .nameMustBeString (d :: after)
                else faultAt .expectedObjectCommaOrEnd (c :: tail)
          else faultAt .expectedColon (colon :: afterColon) := by
  rw [scanFields, readFields]
  split
  · rename_i hName
    simp only [hName]
    rfl
  · rename_i name rest hName
    simp only [hName]
    split
    · rename_i hColon
      simp only [hColon]
      rfl
    · rename_i colon afterColon hColon
      simp only [hColon, apply_ite (Except.map _)]
      refine if_congr Iff.rfl ?_ rfl
      split
      · rename_i fault hValue
        have hScan : scanValue depth afterColon = .error fault := by
          rw [scanValue, hValue]
          rfl
        simp only [hScan]
        rfl
      · rename_i value rest hLength hValue
        have hScan : scanValue depth afterColon = .ok (value, rest) := by
          rw [scanValue, hValue]
          rfl
        simp only [hScan]
        split
        · rename_i hRest
          simp only [hRest]
          rfl
        · rename_i hRest
          simp only [hRest, apply_ite (Except.map _)]
          refine if_congr Iff.rfl rfl (if_congr Iff.rfl ?_ rfl)
          split
          · rename_i hNext
            simp only [hNext]
            rfl
          · rename_i hNext
            simp only [hNext, apply_ite (Except.map _)]
            refine if_congr Iff.rfl ?_ rfl
            split <;> rename_i hRead <;> simp only [scanFields, hRead] <;> rfl

end PolicyText.Json
