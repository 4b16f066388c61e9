import PolicyText.ParseError
import PolicyText.Scan.Cursor

/-!
# Content

A token of content is text that stands for itself.  It can be wrapped in backticks, quotes or triple
quotes, and is then taken as it is up to the closing wrapper; quotes directly behind closing triple
quotes still belong to it.  Without a wrapper it reaches to the next stop character or closing
parenthesis and is trimmed.

`scanContent` makes progress wherever it is called on a character that is not a stop
(`length_of_scanContent`).
-/

namespace PolicyText

/-- What can stand around content. -/
inductive Wrapper where
  | backtick
  | quote
  | tripleQuote
  deriving DecidableEq, Repr

namespace Wrapper

/-- The characters of a wrapper. -/
def mark : Wrapper → List Char
  | .backtick => ['\x60']
  | .quote => ['\x22']
  | .tripleQuote => ['\x22', '\x22', '\x22']

/-- How content in a wrapper is called in messages. -/
def description : Wrapper → String
  | .backtick => "backtick"
  | .quote => "quoted"
  | .tripleQuote => "triple-quoted"

/-- The wrapper with which a text begins.  Three quotes are never taken for one. -/
def of? : List Char → Option Wrapper
  | '\x22' :: '\x22' :: '\x22' :: _ => some .tripleQuote
  | '\x22' :: _ => some .quote
  | '\x60' :: _ => some .backtick
  | _ => none

theorem eq_mark_append_of_of? {text : List Char} {w : Wrapper} (h : of? text = some w) :
    text = w.mark ++ text.drop w.mark.length := by
  unfold of? at h
  split at h <;> simp_all [mark] <;> cases h <;> rfl

end Wrapper

/-- Splits a text at the first occurrence of a mark: what stands before it and what follows it. -/
def splitAtMark? (mark : List Char) : List Char → Option (List Char × List Char)
  | [] => none
  | c :: rest =>
    if mark.isPrefixOf (c :: rest) then some ([], (c :: rest).drop mark.length)
    else (splitAtMark? mark rest).map fun (body, after) => (c :: body, after)

theorem length_of_splitAtMark? {mark text body after : List Char}
    (h : splitAtMark? mark text = some (body, after)) : after.length ≤ text.length := by
  induction text generalizing body with
  | nil => cases h
  | cons c rest ih =>
    simp only [splitAtMark?] at h
    split at h
    · cases h
      simp only [List.length_drop]
      omega
    · obtain ⟨⟨inner, found⟩, hFound, hEq⟩ := Option.map_eq_some_iff.1 h
      cases hEq
      have := ih hFound
      simp only [List.length_cons] at this ⊢
      omega

/-- The quotes directly behind the closing wrapper that still belong to the body. -/
def trailingQuotes (w : Wrapper) (after : List Char) : List Char :=
  match w with
  | .tripleQuote => after.takeWhile (· == '\x22')
  | _ => []

/-- Reads the body of wrapped content, given what follows the opening wrapper: the text and what
follows it. -/
def wrappedBody? (w : Wrapper) (text : List Char) : Option (List Char × List Char) :=
  match splitAtMark? w.mark text with
  | none => none
  | some (body, after) =>
    some (body ++ trailingQuotes w after, after.drop (trailingQuotes w after).length)

/-- Reads wrapped content. -/
def scanWrapped (w : Wrapper) (c : Cursor) : Except ParseError (String × Cursor) :=
  match wrappedBody? w (c.rest.drop w.mark.length) with
  | none => .error (.unterminatedLiteral w.description c.position)
  | some (body, after) =>
    .ok
      (String.ofList body,
        Cursor.skipFiller ⟨c.position + 2 * w.mark.length + body.length, after⟩)

/-- Whether a character ends content without a wrapper. -/
def endsContent (stop c : Char) : Bool :=
  c == stop || c == ')'

/-- Reads a token of content. -/
def scanContent (stop : Char) (c : Cursor) : Except ParseError (String × Cursor) :=
  match Wrapper.of? c.rest with
  | some w => scanWrapped w c
  | none =>
    if (c.skipWhile fun d => !endsContent stop d).rest.isEmpty then
      .error (.missingTerminator c.position)
    else
      .ok
        (String.ofList (Text.trim (c.rest.takeWhile fun d => !endsContent stop d)),
          c.skipWhile fun d => !endsContent stop d)

/-- Wrapped content leaves less than there was. -/
theorem length_of_scanWrapped {w : Wrapper} {c next : Cursor} {text : String}
    (hw : Wrapper.of? c.rest = some w) (h : scanWrapped w c = .ok (text, next)) :
    next.rest.length < c.rest.length := by
  have hRest := congrArg List.length (Wrapper.eq_mark_append_of_of? hw)
  have hMark : 0 < w.mark.length := by cases w <;> decide
  unfold scanWrapped at h
  split at h
  · cases h
  · rename_i body after hBody
    cases h
    unfold wrappedBody? at hBody
    split at hBody
    · cases hBody
    rename_i inner found hFound
    cases hBody
    have hSplit := length_of_splitAtMark? hFound
    have hSkip := Cursor.length_rest_skipFiller_le
      ⟨c.position + 2 * w.mark.length + (inner ++ trailingQuotes w found).length,
        found.drop (trailingQuotes w found).length⟩
    simp only [List.length_append, List.length_drop] at hRest hSplit hSkip ⊢
    omega

theorem length_of_scanContent_le {stop : Char} {c next : Cursor} {text : String}
    (h : scanContent stop c = .ok (text, next)) : next.rest.length ≤ c.rest.length := by
  unfold scanContent at h
  split at h
  · exact Nat.le_of_lt (length_of_scanWrapped ‹_› h)
  · split at h
    · cases h
    · cases h
      exact Cursor.length_rest_skipWhile_le _ _

theorem length_of_scanContent {stop d : Char} {tail : List Char} {c next : Cursor} {text : String}
    (hc : c.rest = d :: tail) (hd : endsContent stop d = false)
    (h : scanContent stop c = .ok (text, next)) : next.rest.length < c.rest.length := by
  unfold scanContent at h
  split at h
  · exact length_of_scanWrapped ‹_› h
  · split at h
    · cases h
    · cases h
      have := Text.length_dropWhile_le (fun d => !endsContent stop d) tail
      simp only [Cursor.skipWhile, hc, List.dropWhile_cons, hd, Bool.not_false, if_true,
        List.length_cons]
      omega

theorem endsContent_of_content {d : Char} (h : CharClass.of d = .content) :
    endsContent ',' d = false := by
  unfold endsContent
  by_cases hComma : d = ','
  · subst hComma
    revert h
    decide
  · by_cases hClose : d = ')'
    · subst hClose
      revert h
      decide
    · simp [hComma, hClose]

end PolicyText
