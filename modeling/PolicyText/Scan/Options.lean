import PolicyText.Scan.Content

/-!
# Options in the text

The parentheses of an option list, `#opts(key=value, flag)`, hold entries with commas and white
space between them.  A key reaches to the next `=`, comma or closing parenthesis; a value is a token
of content.  Some keys can stand alone and then mean `true`.  Of two values of a key the later one
holds.

`RawOptions` are the entries in the order of their keys, each key once.  `scanOptions` reads them
and makes progress (`length_of_scanOptions`).
-/

namespace PolicyText

/-- The keys that can stand without a value. -/
def flagOptions : List String :=
  ["isJson", "negateResult", "stringIgnoreCase", "fieldsStrictCheck", "arrayOrderStrictCheck",
    "strictCheck", "optimize", "lenientConstraints", "ignoreErrors", "strictTargetEffect",
    "skipCache", "runChildActions", "runAction", "indeterminateOnActionFail", "strictUnlessLogic",
    "failOnMissingKey", "failOnExistingKey", "failOnNullSource", "castNullSourceToArray",
    "failOnNullMerge"]

/-- The entries of an option list in the order of their keys. -/
abbrev RawOptions := List (String × String)

namespace RawOptions

/-- Sets the value of a key. -/
def insert (key value : String) : RawOptions → RawOptions
  | [] => [(key, value)]
  | (other, old) :: rest =>
    if key = other then (key, value) :: rest
    else if key < other then (key, value) :: (other, old) :: rest
    else (other, old) :: insert key value rest

/-- The value of a key. -/
def get? (key : String) (raw : RawOptions) : Option String :=
  raw.lookup key

theorem get?_cons (key value other : String) (rest : RawOptions) :
    get? other ((key, value) :: rest) = if other = key then some value else get? other rest := by
  by_cases h : other = key
  · simp [get?, h]
  · simp [get?, List.lookup_cons, beq_eq_false_iff_ne.2 h, h]

theorem get?_insert (key value other : String) (raw : RawOptions) :
    (raw.insert key value).get? other = if other = key then some value else raw.get? other := by
  induction raw with
  | nil => simp [insert, get?_cons]
  | cons entry rest ih =>
    obtain ⟨found, old⟩ := entry
    unfold insert
    split
    · rename_i hKey
      subst hKey
      simp only [get?_cons]
      split <;> rfl
    · split
      · simp only [get?_cons]
      · simp only [get?_cons, ih]
        grind

end RawOptions

/-- Whether a character separates entries. -/
def separatesOptions (c : Char) : Bool :=
  c == ',' || Text.isBlank c

/-- Whether a character ends a key. -/
def endsKey (c : Char) : Bool :=
  c == '=' || c == ',' || c == ')'

/-- Reads the value behind an equals sign. -/
def scanOptionValue (keyword : String) (opened : Nat) (key : String) (c : Cursor) :
    Except ParseError (String × Cursor) :=
  match (c.skipWhile Text.isBlank).rest with
  | [] => .error (.notCompleted keyword opened)
  | d :: _ =>
    if endsContent ',' d then .error (.emptyOptionValue key)
    else scanContent ',' (c.skipWhile Text.isBlank)

/-- Reads what follows a key: its value, or nothing where the key can stand alone. -/
def scanOptionRest (keyword : String) (opened : Nat) (key : String) (c : Cursor) :
    Except ParseError (String × Cursor) :=
  if c.rest.head? = some '=' then scanOptionValue keyword opened key (c.advance 1)
  else if flagOptions.contains key then .ok ("true", c)
  else .error (.emptyOptionValue key)

/-- Reads an entry. -/
def scanOption (keyword : String) (opened : Nat) (c : Cursor) :
    Except ParseError ((String × String) × Cursor) :=
  let name := c.rest.takeWhile fun d => !endsKey d
  let key := String.ofList (Text.trim name)
  let next := c.skipWhile fun d => !endsKey d
  if next.rest.isEmpty then .error (.notCompleted keyword opened)
  else if (Text.trim name).isEmpty then .error (.emptyOptionKey c.position)
  else
    match scanOptionRest keyword opened key next with
    | .error error => .error error
    | .ok (value, last) =>
      if value.isEmpty then .error (.emptyOptionValue key) else .ok ((key, value), last)

theorem length_of_scanOptionRest {keyword key value : String} {opened : Nat} {c last : Cursor}
    (h : scanOptionRest keyword opened key c = .ok (value, last)) :
    last.rest.length ≤ c.rest.length := by
  unfold scanOptionRest at h
  split at h
  · unfold scanOptionValue at h
    split at h
    · cases h
    · split at h
      · cases h
      · have hContent := length_of_scanContent_le h
        have hSkip := Cursor.length_rest_skipWhile_le Text.isBlank (c.advance 1)
        simp only [Cursor.length_rest_advance] at hSkip
        omega
  · split at h <;> cases h
    exact Nat.le_refl _

/-- An entry ends behind the place at which it was looked for. -/
theorem length_of_scanOption {keyword : String} {opened : Nat} {c last : Cursor}
    {entry : String × String} (h : scanOption keyword opened c = .ok (entry, last)) :
    last.rest.length < c.rest.length := by
  simp only [scanOption] at h
  split at h
  · cases h
  · split at h
    · cases h
    · rename_i hName
      split at h
      · cases h
      · rename_i hRest
        have hLast := length_of_scanOptionRest hRest
        split at h <;> cases h
        have hLess :
            (c.skipWhile fun d => !endsKey d).rest.length < c.rest.length := by
          unfold Cursor.skipWhile
          cases hCursor : c.rest with
          | nil => simp [hCursor] at hName
          | cons d tail =>
            cases hEnds : endsKey d with
            | true => simp [hCursor, hEnds] at hName
            | false =>
              have := Text.length_dropWhile_le (fun d => !endsKey d) tail
              simp only [List.dropWhile_cons, hEnds, Bool.not_false, if_true, List.length_cons]
              omega
        omega

/-- Reads entries up to the closing parenthesis.  The keyword and the place of the opening
parenthesis are those of the option list. -/
def scanOptionEntries (keyword : String) (opened : Nat) (raw : RawOptions) (c : Cursor) :
    Except ParseError (RawOptions × Cursor) :=
  match (c.skipWhile separatesOptions).rest with
  | [] => .error (.notCompleted keyword opened)
  | d :: _ =>
    if d = ')' then .ok (raw, ((c.skipWhile separatesOptions).advance 1).skipFiller)
    else
      match _ : scanOption keyword opened (c.skipWhile separatesOptions) with
      | .error error => .error error
      | .ok ((key, value), next) =>
        scanOptionEntries keyword opened (raw.insert key value) next
termination_by c.rest.length
decreasing_by
  have hOption := length_of_scanOption ‹_›
  have hSkip := Cursor.length_rest_skipWhile_le separatesOptions c
  omega

theorem length_of_scanOptionEntries {keyword : String} {opened : Nat} {raw result : RawOptions}
    {c last : Cursor} (h : scanOptionEntries keyword opened raw c = .ok (result, last)) :
    last.rest.length < c.rest.length := by
  fun_induction scanOptionEntries keyword opened raw c generalizing result last with
  | case1 => cases h
  | case2 raw c _ hRest =>
    cases h
    have hSkip := Cursor.length_rest_skipFiller_le ((c.skipWhile separatesOptions).advance 1)
    have hFirst := Cursor.length_rest_skipWhile_le separatesOptions c
    simp only [Cursor.length_rest_advance, hRest, List.length_cons] at hSkip hFirst
    omega
  | case3 => cases h
  | case4 raw c _ _ _ _ _ _ _ hOption ih =>
    have hLast := ih h
    have hNext := length_of_scanOption hOption
    have hFirst := Cursor.length_rest_skipWhile_le separatesOptions c
    omega

/-- Reads the entries of the option list whose parenthesis opens at a place. -/
def scanOptions (keyword : String) (c : Cursor) : Except ParseError (RawOptions × Cursor) :=
  if c.rest.head? = some '(' then scanOptionEntries keyword c.position [] (c.advance 1)
  else .error (.notStarted keyword c.position)

theorem length_of_scanOptions {keyword : String} {c last : Cursor} {raw : RawOptions}
    (h : scanOptions keyword c = .ok (raw, last)) : last.rest.length < c.rest.length := by
  unfold scanOptions at h
  split at h
  · have := length_of_scanOptionEntries h
    simp only [Cursor.length_rest_advance] at this
    omega
  · cases h

end PolicyText
