import PolicyText.Json.Basic
import PolicyText.Text.Blank
import PolicyText.Text.Integer
import PolicyText.Text.Utf8

/-!
# Reading JSON

`Json.parse` reads one complete JSON value, with white space around it, and refuses everything
else, naming the first fault and where it was met.  Values may be nested up to 127 levels deep.  In
an object the last value of a repeated name wins and the fields are ordered by name;
`Json.parseAsWritten` keeps all fields in their places.

An integer literal in the range of the 64-bit integers, signed or unsigned, is an integer; `-0`,
wider integers and literals with a point or an exponent are binary numbers.  For those the leading
digits that fit 64 bits are taken as a whole number, and this is multiplied or divided by the power
of ten that remains, each step being rounded.
-/

namespace PolicyText

/-- What is wrong with a text that is no JSON value. -/
inductive JsonFaultKind where
  | endInArray
  | endInObject
  | endInString
  | endInValue
  | expectedColon
  | expectedArrayCommaOrEnd
  | expectedObjectCommaOrEnd
  | expectedWord
  | expectedValue
  | invalidEscape
  | invalidNumber
  | numberOutOfRange
  | controlCharacter
  | nameMustBeString
  | loneSurrogate
  | trailingComma
  | trailingCharacters
  | endOfHexEscape
  | tooDeep
  deriving DecidableEq, Repr

/-- What is said about the fault. -/
def JsonFaultKind.message : JsonFaultKind → String
  | .endInArray => "EOF while parsing a list"
  | .endInObject => "EOF while parsing an object"
  | .endInString => "EOF while parsing a string"
  | .endInValue => "EOF while parsing a value"
  | .expectedColon => "expected `:`"
  | .expectedArrayCommaOrEnd => "expected `,` or `]`"
  | .expectedObjectCommaOrEnd => "expected `,` or `\x7d`"
  | .expectedWord => "expected ident"
  | .expectedValue => "expected value"
  | .invalidEscape => "invalid escape"
  | .invalidNumber => "invalid number"
  | .numberOutOfRange => "number out of range"
  | .controlCharacter =>
    "control character (\\u0000-\\u001F) found while parsing a string"
  | .nameMustBeString => "key must be a string"
  | .loneSurrogate => "lone leading surrogate in hex escape"
  | .trailingComma => "trailing comma"
  | .trailingCharacters => "trailing characters"
  | .endOfHexEscape => "unexpected end of hex escape"
  | .tooDeep => "recursion limit exceeded"

/-- A fault and where it was met: `ahead` bytes behind the start of what is left of the text. -/
structure JsonFault where
  kind : JsonFaultKind
  unread : List Char
  ahead : Nat
  deriving DecidableEq

/-- What is said about a fault in a text. -/
def JsonFault.message (text : List Char) (fault : JsonFault) : String :=
  let offset := Text.utf8Length text - Text.utf8Length fault.unread + fault.ahead
  let (line, column) := Text.lineAndColumn text offset
  s!"{fault.kind.message} at line {line} column {column}"

namespace Json

/-- A fault met at the character that comes next, which counts as looked at. -/
def faultAt {α : Type} (kind : JsonFaultKind) (unread : List Char) : Except JsonFault α :=
  .error ⟨kind, unread, 1⟩

/-- A fault met after everything before `unread`. -/
def faultBefore {α : Type} (kind : JsonFaultKind) (unread : List Char) : Except JsonFault α :=
  .error ⟨kind, unread, 0⟩

/-- The white space of JSON. -/
def isSpace (c : Char) : Bool :=
  c == ' ' || c == '\n' || c == '\t' || c == '\r'

/-- The text without leading white space. -/
def skipSpace (text : List Char) : List Char :=
  text.dropWhile isSpace

/-- Reads the rest of a word whose first letter has been seen. -/
def readWord : List Char → List Char → Except JsonFault (List Char)
  | [], text => .ok text
  | _ :: _, [] => faultBefore .endInValue []
  | expected :: word, c :: rest =>
    if c = expected then readWord word rest else faultAt .expectedWord (c :: rest)

/-! ## Strings -/

/-- Reads four hexadecimal digits. -/
def readHex (text : List Char) : Except JsonFault (Nat × List Char) :=
  match text with
  | a :: b :: c :: d :: rest =>
    match Text.hexDigitValue? a, Text.hexDigitValue? b, Text.hexDigitValue? c,
        Text.hexDigitValue? d with
    | some a, some b, some c, some d => .ok (((a * 16 + b) * 16 + c) * 16 + d, rest)
    | _, _, _, _ => .error ⟨.invalidEscape, text, 4⟩
  | _ =>
    if Text.utf8Length text < 4 then faultBefore .endInString []
    else .error ⟨.invalidEscape, text, 4⟩

/-- Whether a code unit is the first half of a pair. -/
def isLeadingSurrogate (n : Nat) : Bool :=
  0xD800 ≤ n && n ≤ 0xDBFF

/-- Whether a code unit is the second half of a pair. -/
def isTrailingSurrogate (n : Nat) : Bool :=
  0xDC00 ≤ n && n ≤ 0xDFFF

/-- Reads the code unit behind `\u`, and a second one where the first is half of a pair. -/
def readUnicodeEscape (text : List Char) : Except JsonFault (Char × List Char) :=
  match readHex text with
  | .error fault => .error fault
  | .ok (unit, rest) =>
    if isTrailingSurrogate unit then faultBefore .loneSurrogate rest
    else if isLeadingSurrogate unit then
      match rest with
      | [] => faultBefore .endInString []
      | '\\' :: rest =>
        match rest with
        | [] => faultBefore .endInString []
        | 'u' :: rest =>
          match readHex rest with
          | .error fault => .error fault
          | .ok (second, rest) =>
            if isTrailingSurrogate second then
              .ok (Char.ofNat ((unit - 0xD800) * 0x400 + (second - 0xDC00) + 0x10000), rest)
            else faultBefore .loneSurrogate rest
        | c :: rest => faultAt .endOfHexEscape (c :: rest)
      | c :: rest => faultAt .endOfHexEscape (c :: rest)
    else .ok (Char.ofNat unit, rest)

/-- Reads what stands behind a backslash. -/
def readEscape : List Char → Except JsonFault (Char × List Char)
  | [] => faultBefore .endInString []
  | c :: rest =>
    if c = '\x22' || c = '\\' || c = '/' then .ok (c, rest)
    else if c = 'b' then .ok (Char.ofNat 8, rest)
    else if c = 'f' then .ok (Char.ofNat 12, rest)
    else if c = 'n' then .ok ('\n', rest)
    else if c = 'r' then .ok ('\r', rest)
    else if c = 't' then .ok ('\t', rest)
    else if c = 'u' then readUnicodeEscape rest
    else faultAt .invalidEscape (c :: rest)

theorem length_of_readHex {text rest : List Char} {n : Nat} (h : readHex text = .ok (n, rest)) :
    rest.length < text.length := by
  unfold readHex at h
  split at h
  · split at h <;> simp at h
    obtain ⟨-, rfl⟩ := h
    simp; omega
  · split at h <;> simp [faultBefore] at h

/-- A code unit takes characters from the text. -/
theorem length_of_readUnicodeEscape {text rest : List Char} {c : Char}
    (h : readUnicodeEscape text = .ok (c, rest)) : rest.length < text.length := by
  unfold readUnicodeEscape at h
  split at h
  · simp at h
  · next unit first hFirst =>
    have := length_of_readHex hFirst
    split at h
    · simp [faultBefore] at h
    · split at h
      · split at h
        · simp [faultBefore] at h
        · split at h
          · simp [faultBefore] at h
          · split at h
            · simp at h
            · next second after hSecond =>
              have := length_of_readHex hSecond
              split at h
              · simp at h
                obtain ⟨-, rfl⟩ := h
                simp at *; omega
              · simp [faultBefore] at h
          · simp [faultAt] at h
        · simp [faultAt] at h
      · simp at h
        obtain ⟨-, rfl⟩ := h
        omega

theorem length_of_readEscape {text rest : List Char} {c : Char}
    (h : readEscape text = .ok (c, rest)) : rest.length < text.length := by
  cases text with
  | nil => simp [readEscape, faultBefore] at h
  | cons first tail =>
    simp only [readEscape] at h
    repeat' split at h
    all_goals first
      | exact Nat.lt_succ_of_lt (length_of_readUnicodeEscape h)
      | (simp at h; obtain ⟨-, rfl⟩ := h; simp)
      | simp [faultAt] at h

/-- Reads a string whose opening quote has been read, up to and with its closing quote. -/
def readString (text : List Char) : Except JsonFault (List Char × List Char) :=
  match text with
  | [] => faultBefore .endInString []
  | c :: rest =>
    if c = '\x22' then .ok ([], rest)
    else if c = '\\' then
      match _h : readEscape rest with
      | .error fault => .error fault
      | .ok (escaped, after) =>
        match readString after with
        | .error fault => .error fault
        | .ok (chars, rest) => .ok (escaped :: chars, rest)
    else if c.toNat < 32 then faultAt .controlCharacter (c :: rest)
    else
      match readString rest with
      | .error fault => .error fault
      | .ok (chars, rest) => .ok (c :: chars, rest)
termination_by text.length
decreasing_by
  · have := length_of_readEscape _h
    simp; omega
  · simp

theorem length_of_readString {text chars rest : List Char}
    (h : readString text = .ok (chars, rest)) : rest.length < text.length := by
  fun_induction readString text generalizing chars rest with
  | case1 => simp [faultBefore] at h
  | case2 => simp at h; obtain ⟨-, rfl⟩ := h; simp
  | case3 => simp at h
  | case4 => simp at h
  | case5 _ _ _ hEscape _ _ hRest _ ih =>
    have := length_of_readEscape hEscape
    have := ih hRest
    simp at h; obtain ⟨-, rfl⟩ := h
    simp; omega
  | case6 => simp [faultAt] at h
  | case7 => simp at h
  | case8 c tail _ _ _ chars' rest' hRest ih =>
    have := ih hRest
    simp at h; obtain ⟨-, rfl⟩ := h
    simp; omega

/-! ## Numbers -/

/-- Appends digits to a number of 64 bits as long as it fits, and returns what is left of them. -/
def takeDigits (significand : Nat) : List Char → Nat × List Char
  | [] => (significand, [])
  | c :: rest =>
    let next := significand * 10 + (Text.digitValue? c).getD 0
    if next < 2 ^ 64 then takeDigits next rest else (significand, c :: rest)

/-- A power of ten as a number of 64 bits. -/
def powerOfTen (exponent : Nat) : Binary64 :=
  .ofDecimal .double false 1 exponent

/-- Divides by a power of ten, in steps of at most `10 ^ 308`, and stops at zero. -/
def divideByPower (x : Binary64) (exponent : Nat) : Binary64 :=
  if exponent ≤ 308 then x.div (powerOfTen exponent)
  else if x.isZero then x
  else divideByPower (x.div (powerOfTen 308)) (exponent - 308)
termination_by exponent

/-- The number `significand · 10 ^ exponent`, unless it overflows. -/
def scaled? (negative : Bool) (significand : Nat) (exponent : Int) : Option Binary64 :=
  let whole : Binary64 := .ofInt .double significand
  let signed (x : Binary64) := if negative then x.neg else x
  if exponent < 0 then some (signed (divideByPower whole exponent.natAbs))
  else if exponent ≤ 308 then
    let x := whole.mul (powerOfTen exponent.toNat)
    if x.isFinite then some (signed x) else none
  else if whole.isZero then some (signed whole)
  else none

/-- Ends a number that has a point or an exponent or does not fit 64 bits. -/
def finishNumber (negative : Bool) (significand : Nat) (exponent : Int) (rest : List Char) :
    Except JsonFault (JsonNumber × List Char) :=
  match scaled? negative significand exponent with
  | some x => .ok (.double x, rest)
  | none => faultBefore .numberOutOfRange rest

/-- Reads the digits of an exponent.  Beyond 31 bits it is decided without its remaining digits: a
positive one is out of range unless the number is zero, all else is zero. -/
def readExponentDigits (negative : Bool) (significand : Nat) (start : Int)
    (negativeExponent : Bool) (exponent : Nat) :
    List Char → Except JsonFault (JsonNumber × List Char)
  | [] => finishNumber negative significand
      (if negativeExponent then start - exponent else start + exponent) []
  | c :: rest =>
    match Text.digitValue? c with
    | none => finishNumber negative significand
        (if negativeExponent then start - exponent else start + exponent) (c :: rest)
    | some d =>
      let next := exponent * 10 + d
      if next < 2 ^ 31 then
        readExponentDigits negative significand start negativeExponent next rest
      else if significand != 0 && !negativeExponent then faultBefore .numberOutOfRange rest
      else
        finishNumber negative 0 0 (rest.dropWhile Char.isDigit)

/-- The sign of an exponent and what follows it. -/
def exponentSign : List Char → Bool × List Char
  | '-' :: digits => (true, digits)
  | '+' :: digits => (false, digits)
  | digits => (false, digits)

/-- Reads an exponent behind its mark. -/
def readExponent (negative : Bool) (significand : Nat) (start : Int) (text : List Char) :
    Except JsonFault (JsonNumber × List Char) :=
  match (exponentSign text).2 with
  | [] => faultBefore .endInValue []
  | c :: rest =>
    match Text.digitValue? c with
    | none => faultAt .invalidNumber (c :: rest)
    | some d =>
      readExponentDigits negative significand start (exponentSign text).1 d rest

/-- Reads the places behind the point of a number. -/
def readPlaces (negative : Bool) (significand : Nat) (start : Int) (text : List Char) :
    Except JsonFault (JsonNumber × List Char) :=
  let places := text.takeWhile Char.isDigit
  let rest := text.dropWhile Char.isDigit
  if places.isEmpty then
    if rest.isEmpty then faultBefore .endInValue [] else faultAt .invalidNumber rest
  else
    let (significand, left) := takeDigits significand places
    let exponent := start - ((places.length : Int) - left.length)
    match rest with
    | 'e' :: rest => readExponent negative significand exponent rest
    | 'E' :: rest => readExponent negative significand exponent rest
    | rest => finishNumber negative significand exponent rest

/-- Ends a number that is written without point and exponent. -/
def finishInteger (negative : Bool) (significand : Nat) (rest : List Char) :
    Except JsonFault (JsonNumber × List Char) :=
  if !negative then .ok (.integer significand, rest)
  else if significand = 0 || 2 ^ 63 < significand then
    .ok (.double (Binary.ofInt .double significand).neg, rest)
  else .ok (.integer (-significand), rest)

/-- Reads a number behind its sign. -/
def readNumber (negative : Bool) (text : List Char) :
    Except JsonFault (JsonNumber × List Char) :=
  match text with
  | [] => faultBefore .endInValue []
  | c :: tail =>
    if !c.isDigit then faultAt .invalidNumber text
    else
      let digits := text.takeWhile Char.isDigit
      if c = '0' && digits.length != 1 then faultAt .invalidNumber tail
      else
        let rest := text.dropWhile Char.isDigit
        let (significand, left) := takeDigits 0 digits
        match rest with
        | '.' :: rest => readPlaces negative significand left.length rest
        | 'e' :: rest => readExponent negative significand left.length rest
        | 'E' :: rest => readExponent negative significand left.length rest
        | rest =>
          if left.isEmpty then finishInteger negative significand rest
          else finishNumber negative significand left.length rest

theorem rest_of_finishNumber {negative : Bool} {significand : Nat} {exponent : Int}
    {text rest : List Char} {n : JsonNumber}
    (h : finishNumber negative significand exponent text = .ok (n, rest)) : rest = text := by
  unfold finishNumber at h
  split at h
  · simp at h; exact h.2.symm
  · simp [faultBefore] at h

theorem length_of_readExponentDigits {negative negativeExponent : Bool} {significand : Nat}
    {start : Int} {exponent : Nat} {text rest : List Char} {n : JsonNumber}
    (h : readExponentDigits negative significand start negativeExponent exponent text =
      .ok (n, rest)) : rest.length ≤ text.length := by
  induction text generalizing exponent with
  | nil => simp [rest_of_finishNumber (h : finishNumber _ _ _ [] = _)]
  | cons c tail ih =>
    simp only [readExponentDigits] at h
    split at h
    · simp [rest_of_finishNumber h]
    · split at h
      · have := ih h
        simp; omega
      · split at h
        · simp [faultBefore] at h
        · rw [rest_of_finishNumber h]
          have := Text.length_dropWhile_le Char.isDigit tail
          simp; omega

theorem length_of_readExponent {negative : Bool} {significand : Nat} {start : Int}
    {text rest : List Char} {n : JsonNumber}
    (h : readExponent negative significand start text = .ok (n, rest)) :
    rest.length ≤ text.length := by
  have hDigits : (exponentSign text).2.length ≤ text.length := by
    unfold exponentSign
    split <;> simp
  unfold readExponent at h
  split at h
  · simp [faultBefore] at h
  · next c tail hText =>
    rw [hText] at hDigits
    split at h
    · simp [faultAt] at h
    · have := length_of_readExponentDigits h
      simp at hDigits; omega

theorem length_of_readPlaces {negative : Bool} {significand : Nat} {start : Int}
    {text rest : List Char} {n : JsonNumber}
    (h : readPlaces negative significand start text = .ok (n, rest)) :
    rest.length ≤ text.length := by
  have hDrop := Text.length_dropWhile_le Char.isDigit text
  simp only [readPlaces] at h
  split at h
  · split at h <;> simp [faultBefore, faultAt] at h
  · split at h
    · next tail hRest =>
      have := length_of_readExponent h
      rw [hRest] at hDrop; simp at hDrop; omega
    · next tail hRest =>
      have := length_of_readExponent h
      rw [hRest] at hDrop; simp at hDrop; omega
    · rw [rest_of_finishNumber h]; exact hDrop

/-- A number takes at least one digit from the text. -/
theorem length_of_readNumber {negative : Bool} {text rest : List Char} {n : JsonNumber}
    (h : readNumber negative text = .ok (n, rest)) : rest.length < text.length := by
  cases text with
  | nil => simp [readNumber, faultBefore] at h
  | cons c tail =>
    simp only [readNumber] at h
    split at h
    · simp [faultAt] at h
    · next hDigit =>
      have hDrop : ((c :: tail).dropWhile Char.isDigit).length < (c :: tail).length := by
        simp only [Bool.not_eq_true, Bool.not_eq_false'] at hDigit
        rw [List.dropWhile_cons, if_pos hDigit]
        have := Text.length_dropWhile_le Char.isDigit tail
        simp; omega
      split at h
      · simp [faultAt] at h
      · split at h
        · next rest' hRest =>
          have := length_of_readPlaces h
          rw [hRest] at hDrop; simp at hDrop ⊢; omega
        · next rest' hRest =>
          have := length_of_readExponent h
          rw [hRest] at hDrop; simp at hDrop ⊢; omega
        · next rest' hRest =>
          have := length_of_readExponent h
          rw [hRest] at hDrop; simp at hDrop ⊢; omega
        · split at h
          · unfold finishInteger at h
            repeat' split at h
            all_goals simp at h; obtain ⟨-, rfl⟩ := h; exact hDrop
          · rw [rest_of_finishNumber h]; exact hDrop

/-! ## Values -/

theorem length_skipSpace (text : List Char) : (skipSpace text).length ≤ text.length :=
  Text.length_dropWhile_le isSpace text

theorem length_lt_of_skipSpace {text tail : List Char} {c : Char}
    (h : skipSpace text = c :: tail) : tail.length < text.length := by
  have hLe := length_skipSpace text
  rwa [h, List.length_cons] at hLe

theorem length_of_readWord {word text rest : List Char} (h : readWord word text = .ok rest) :
    rest.length ≤ text.length := by
  induction word generalizing text with
  | nil => simp [readWord] at h; simp [h]
  | cons expected word ih =>
    cases text with
    | nil => simp [readWord, faultBefore] at h
    | cons c tail =>
      simp only [readWord] at h
      split at h
      · have := ih h
        simp; omega
      · simp [faultAt] at h

/-- What a reader leaves of a text of which it has taken something. -/
abbrev Reading (α : Type) (text : List Char) : Type :=
  { reading : α × List Char // reading.2.length < text.length }

mutual

/-- Reads a value, with `depth` levels of nesting left. -/
def readValue (depth : Nat) (text : List Char) : Except JsonFault (Reading Json text) :=
  match hText : skipSpace text with
  | [] => faultBefore .endInValue []
  | c :: tail =>
    have hLength : tail.length < text.length := length_lt_of_skipSpace hText
    if c = 'n' then
      match hWord : readWord ['u', 'l', 'l'] tail with
      | .error fault => .error fault
      | .ok rest => .ok ⟨(.null, rest), by have := length_of_readWord hWord; simp; omega⟩
    else if c = 't' then
      match hWord : readWord ['r', 'u', 'e'] tail with
      | .error fault => .error fault
      | .ok rest => .ok ⟨(.bool true, rest), by have := length_of_readWord hWord; simp; omega⟩
    else if c = 'f' then
      match hWord : readWord ['a', 'l', 's', 'e'] tail with
      | .error fault => .error fault
      | .ok rest => .ok ⟨(.bool false, rest), by have := length_of_readWord hWord; simp; omega⟩
    else if c = '-' then
      match hNumber : readNumber true tail with
      | .error fault => .error fault
      | .ok (n, rest) =>
        .ok ⟨(.number n, rest), by have := length_of_readNumber hNumber; simp; omega⟩
    else if c.isDigit then
      match hNumber : readNumber false (c :: tail) with
      | .error fault => .error fault
      | .ok (n, rest) =>
        .ok ⟨(.number n, rest), by have := length_of_readNumber hNumber; simp at this ⊢; omega⟩
    else if c = '\x22' then
      match hString : readString tail with
      | .error fault => .error fault
      | .ok (chars, rest) =>
        .ok ⟨(.string (String.ofList chars), rest),
          by have := length_of_readString hString; simp; omega⟩
    else if c = '[' then
      if depth ≤ 1 then faultAt .tooDeep (c :: tail)
      else
        match hInner : skipSpace tail with
        | [] => faultBefore .endInArray []
        | d :: inner =>
          have hInnerLength : inner.length < tail.length := length_lt_of_skipSpace hInner
          if d = ']' then .ok ⟨(.array [], inner), by simp; omega⟩
          else
            match readItems (depth - 1) tail with
            | .error fault => .error fault
            | .ok ⟨(items, rest), h⟩ => .ok ⟨(.array items, rest), by simp at h ⊢; omega⟩
    else if c = '\x7b' then
      if depth ≤ 1 then faultAt .tooDeep (c :: tail)
      else
        match hInner : skipSpace tail with
        | [] => faultBefore .endInObject []
        | d :: inner =>
          have hInnerLength : inner.length < tail.length := length_lt_of_skipSpace hInner
          if d = '\x7d' then .ok ⟨(.object [], inner), by simp; omega⟩
          else if d = '\x22' then
            match readFields (depth - 1) inner with
            | .error fault => .error fault
            | .ok ⟨(fields, rest), h⟩ =>
              .ok ⟨(.object fields, rest), by simp at h ⊢; omega⟩
          else faultAt .nameMustBeString (d :: inner)
    else faultAt .expectedValue (c :: tail)
termination_by (text.length, 0)

/-- Reads one or more items of an array, up to and with its bracket. -/
def readItems (depth : Nat) (text : List Char) : Except JsonFault (Reading (List Json) text) :=
  match readValue depth text with
  | .error fault => .error fault
  | .ok ⟨(item, rest), hItem⟩ =>
    match hRest : skipSpace rest with
    | [] => faultBefore .endInArray []
    | c :: tail =>
      have hTail : tail.length < text.length :=
        Nat.lt_trans (length_lt_of_skipSpace hRest) hItem
      if c = ']' then .ok ⟨([item], tail), hTail⟩
      else if c = ',' then
        match skipSpace tail with
        | [] => faultBefore .endInValue []
        | d :: after =>
          if d = ']' then faultAt .trailingComma (d :: after)
          else
            match readItems depth tail with
            | .error fault => .error fault
            | .ok ⟨(items, rest), h⟩ => .ok ⟨(item :: items, rest), by simp at h ⊢; omega⟩
      else faultAt .expectedArrayCommaOrEnd (c :: tail)
termination_by (text.length, 1)

/-- Reads one or more fields of an object, up to and with its brace, from behind the quote that
opens the first name. -/
def readFields (depth : Nat) (text : List Char) :
    Except JsonFault (Reading (List (String × Json)) text) :=
  match hName : readString text with
  | .error fault => .error fault
  | .ok (name, rest) =>
    have hNameLength := length_of_readString hName
    match hColon : skipSpace rest with
    | [] => faultBefore .endInObject []
    | colon :: afterColon =>
      have hColonLength : afterColon.length < rest.length := length_lt_of_skipSpace hColon
      if colon = ':' then
        match readValue depth afterColon with
        | .error fault => .error fault
        | .ok ⟨(value, rest), hValue⟩ =>
          match hRest : skipSpace rest with
          | [] => faultBefore .endInObject []
          | c :: tail =>
            have hTail : tail.length < text.length :=
              Nat.lt_trans (length_lt_of_skipSpace hRest)
                (Nat.lt_trans hValue (Nat.lt_trans hColonLength hNameLength))
            if c = '\x7d' then .ok ⟨([(String.ofList name, value)], tail), hTail⟩
            else if c = ',' then
              match hNext : skipSpace tail with
              | [] => faultBefore .endInValue []
              | d :: after =>
                have hAfter : after.length < tail.length := length_lt_of_skipSpace hNext
                if d = '\x22' then
                  match readFields depth after with
                  | .error fault => .error fault
                  | .ok ⟨(fields, rest), h⟩ =>
                    .ok ⟨((String.ofList name, value) :: fields, rest), by simp at h ⊢; omega⟩
                else if d = '\x7d' then faultAt .trailingComma (d :: after)
                else faultAt .nameMustBeString (d :: after)
            else faultAt .expectedObjectCommaOrEnd (c :: tail)
      else faultAt .expectedColon (colon :: afterColon)
termination_by (text.length, 0)

end

/-- The levels of nesting at which reading stops. -/
def nestingLimit : Nat := 128

/-- Reads a text that is one JSON value, with the fields of objects as they are written. -/
def parseAsWritten (text : List Char) : Except JsonFault Json :=
  match readValue nestingLimit text with
  | .error fault => .error fault
  | .ok ⟨(value, rest), _⟩ =>
    match skipSpace rest with
    | [] => .ok value
    | c :: tail => faultAt .trailingCharacters (c :: tail)

/-- Reads a text that is one JSON value. -/
def parse (text : List Char) : Except JsonFault Json :=
  (parseAsWritten text).map ordered

end Json

end PolicyText
