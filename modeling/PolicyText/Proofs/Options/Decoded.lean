import PolicyText.Proofs.Lookup
import PolicyText.Proofs.Options.Sound
import PolicyText.Proofs.Outcome
import PolicyText.Proofs.Scan.OptionList

/-!
# How option lists are decoded

An option list is decoded in two steps: its entries are scanned, of two values of a key the later one
being kept, and then every known key is converted to its field.

What is kept is the value of the last entry (`RawOptions.get?_ofPairs`).  Which other entries there
are, and in which order, makes no difference to a key; so entries with different keys can be
permuted.

`Options.rows` is the table of all options: every known key with the form of its value and the field
to which it belongs (`Options.mem_rows`).  `OptionForm.convert` is what becomes of a value, and
`OptionRow.read` what becomes of the key of a row in an option list.  The options are refused with
the error of the least key whose value cannot be converted, and otherwise every field holds what has
been read for its key (`Options.ofRaw_eq_error`, `Options.ofRaw_eq_ok`).  `options_decoded` puts the
two steps together.
-/

namespace PolicyText

/-! ## The last value of a key -/

namespace RawOptions

/-- The entries are in the order of their keys, and no key is there twice. -/
def Ordered (raw : RawOptions) : Prop :=
  raw.Pairwise fun a b => a.1 < b.1

instance (raw : RawOptions) : Decidable raw.Ordered :=
  inferInstanceAs (Decidable (List.Pairwise _ _))

/-- An entry that is set is put where it belongs. -/
lemma Ordered.insert {raw : RawOptions} (h : raw.Ordered) (key value : String) :
    (raw.insert key value).Ordered := by
  induction raw with
  | nil => exact List.pairwise_singleton _ _
  | cons first rest ih =>
    obtain ⟨other, old⟩ := first
    obtain ⟨hFirst, hRest⟩ := List.pairwise_cons.1 h
    unfold RawOptions.insert
    by_cases hSame : key = other
    · rw [if_pos hSame]
      subst hSame
      exact List.pairwise_cons.2 ⟨hFirst, hRest⟩
    rw [if_neg hSame]
    by_cases hLess : key < other
    · rw [if_pos hLess]
      refine List.pairwise_cons.2 ⟨fun entry hEntry => ?_, h⟩
      obtain rfl | hEntry := List.mem_cons.1 hEntry
      · exact hLess
      · exact String.lt_trans hLess (hFirst entry hEntry)
    · rw [if_neg hLess]
      have hGreater : other < key := by
        by_contra hNot
        exact hSame (String.le_antisymm (String.not_lt.1 hNot) (String.not_lt.1 hLess))
      refine List.pairwise_cons.2 ⟨fun entry hEntry => ?_, ih hRest⟩
      obtain rfl | hEntry := mem_insert hEntry
      · exact hGreater
      · exact hFirst entry hEntry

lemma Ordered.insertAll {raw : RawOptions} (h : raw.Ordered) (pairs : List (String × String)) :
    (raw.insertAll pairs).Ordered := by
  induction pairs generalizing raw with
  | nil => exact h
  | cons pair rest ih => exact ih (h.insert pair.1 pair.2)

/-- After entries have been set, the value of a key is that of the last entry that has it, or the
value that it had before. -/
lemma get?_insertAll (raw : RawOptions) (pairs : List (String × String)) (key : String) :
    (raw.insertAll pairs).get? key = (pairs.reverse.lookup key).or (raw.get? key) := by
  induction pairs generalizing raw with
  | nil => rfl
  | cons pair rest ih =>
    obtain ⟨other, value⟩ := pair
    have hRest : ((raw.insert other value).insertAll rest).get? key
        = (rest.reverse.lookup key).or ((raw.insert other value).get? key) := ih _
    have hAppend : (rest.reverse ++ [(other, value)]).lookup key
        = (rest.reverse.lookup key).or (get? key [(other, value)]) := List.lookup_append
    rw [List.reverse_cons, hAppend, Option.or_assoc]
    refine hRest.trans (congrArg (Option.or _) ?_)
    rw [get?_insert, get?_cons]
    by_cases hKey : key = other
    · rw [if_pos hKey, if_pos hKey, Option.some_or]
    · rw [if_neg hKey, if_neg hKey]
      rfl

lemma get?_ofPairs (pairs : List (String × String)) (key : String) :
    (ofPairs pairs).get? key = pairs.reverse.lookup key := by
  rw [ofPairs, get?_insertAll]
  exact Option.or_none

lemma Ordered.get?_of_mem {raw : RawOptions} (h : raw.Ordered) {entry : String × String}
    (hEntry : entry ∈ raw) : raw.get? entry.1 = some entry.2 := by
  refine List.lookup_of_mem ?_ hEntry
  exact List.pairwise_map.2 (h.imp fun hLess => String.ne_of_lt hLess)

lemma lookup_eq_of_perm {pairs others : List (String × String)} (hPerm : pairs.Perm others)
    (hKeys : (pairs.map Prod.fst).Nodup) (key : String) : pairs.lookup key = others.lookup key := by
  have hOthers : (others.map Prod.fst).Nodup := (hPerm.map Prod.fst).nodup_iff.1 hKeys
  by_cases hKey : key ∈ pairs.map Prod.fst
  · obtain ⟨pair, hPair, rfl⟩ := List.mem_map.1 hKey
    rw [List.lookup_of_mem hKeys hPair, List.lookup_of_mem hOthers (hPerm.mem_iff.1 hPair)]
  · have hAbsent : key ∉ others.map Prod.fst :=
      fun hMem => hKey ((hPerm.map Prod.fst).mem_iff.2 hMem)
    rw [List.lookup_of_not_mem hKey, List.lookup_of_not_mem hAbsent]

end RawOptions

/-! ## The conversion of a value -/

namespace OptionForm

/-- The values that are written in a form. -/
def Value : OptionForm → Type
  | .text => String
  | .version => Version
  | .labels => List String
  | .executionModes => ExecutionModes
  | .integer => Text.Integer32
  | .truthValue => Bool
  | .valueType => ValueType
  | .valueSource => ValueSource
  | .strategy => ExecutionStrategy

instance : (form : OptionForm) → DecidableEq form.Value
  | .text => inferInstanceAs (DecidableEq String)
  | .version => inferInstanceAs (DecidableEq Version)
  | .labels => inferInstanceAs (DecidableEq (List String))
  | .executionModes => inferInstanceAs (DecidableEq ExecutionModes)
  | .integer => inferInstanceAs (DecidableEq Text.Integer32)
  | .truthValue => inferInstanceAs (DecidableEq Bool)
  | .valueType => inferInstanceAs (DecidableEq ValueType)
  | .valueSource => inferInstanceAs (DecidableEq ValueSource)
  | .strategy => inferInstanceAs (DecidableEq ExecutionStrategy)

/-- What a word of a type becomes. -/
def convertWord (α : Type) [Literal α] (key value : String) : Except ParseError (Option α) :=
  match (Literal.ofLiteral? value : Option α) with
  | some word => .ok (some word)
  | none => .error (.invalidOptionValue key value "unknown literal")

/-- What the value of a key becomes.  A list without labels or without modes becomes nothing. -/
def convert (key value : String) : (form : OptionForm) → Except ParseError (Option form.Value)
  | .text => .ok (some value)
  | .version =>
    match Version.parse? value with
    | some v => .ok (some v)
    | none => .error (.invalidVersion value)
  | .labels => .ok (labels? value)
  | .executionModes =>
    match unknownMode? value with
    | some item => .error (.invalidOptionValue key item "unknown execution mode")
    | none => .ok (executionModes? value)
  | .integer =>
    match Text.readBounded .int32 value.toList with
    | .ok n => .ok (some n)
    | .error fault => .error (.invalidOptionValue key value fault.message)
  | .truthValue =>
    match truthValue? value with
    | some b => .ok (some b)
    | none => .error (.invalidOptionValue key value "expected 'true' or 'false'")
  | .valueType => convertWord ValueType key value
  | .valueSource => convertWord ValueSource key value
  | .strategy => convertWord ExecutionStrategy key value

/-- What a value that has its form reads as. -/
def read? (value : String) : (form : OptionForm) → Option form.Value
  | .text => some value
  | .version => Version.parse? value
  | .labels => labels? value
  | .executionModes => executionModes? value
  | .integer => integer32? value
  | .truthValue => truthValue? value
  | .valueType => (Literal.ofLiteral? value : Option ValueType)
  | .valueSource => (Literal.ofLiteral? value : Option ValueSource)
  | .strategy => (Literal.ofLiteral? value : Option ExecutionStrategy)

/-- A value is converted by checking that it has its form and then reading it. -/
lemma convert_eq (form : OptionForm) (key value : String) :
    form.convert key value = (form.check key value).map fun _ => form.read? value := by
  have hWord (α : Type) [Literal α] : convertWord α key value
      = (checkWord α key value).map fun _ => (Literal.ofLiteral? value : Option α) := by
    unfold convertWord checkWord
    cases hRead : (Literal.ofLiteral? value : Option α) <;> rfl
  cases form with
  | text | labels => rfl
  | valueType => exact hWord ValueType
  | valueSource => exact hWord ValueSource
  | strategy => exact hWord ExecutionStrategy
  | version =>
    simp only [convert, check, read?]
    cases hRead : Version.parse? value <;> rfl
  | executionModes =>
    simp only [convert, check, read?]
    cases hUnknown : unknownMode? value <;> rfl
  | integer =>
    simp only [convert, check, read?, integer32?]
    cases hRead : Text.readBounded .int32 value.toList <;> rfl
  | truthValue =>
    simp only [convert, check, read?]
    cases hRead : truthValue? value <;> rfl

end OptionForm

/-! ## The table of options -/

/-- An option: its key, the form of its value, and the field to which it belongs. -/
structure OptionRow where
  key : String
  form : OptionForm
  field : Options → Option form.Value

/-- What becomes of the key of an option in an option list: nothing if it is not there. -/
def OptionRow.read (row : OptionRow) (raw : RawOptions) :
    Except ParseError (Option row.form.Value) :=
  match raw.get? row.key with
  | none => .ok none
  | some value => row.form.convert row.key value

namespace Options

/-- All options. -/
def rows : List OptionRow :=
  [⟨"id", .text, id⟩,
    ⟨"ver", .version, version⟩,
    ⟨"desc", .text, description⟩,
    ⟨"labels", .labels, labels⟩,
    ⟨"executionMode", .executionModes, executionMode⟩,
    ⟨"priority", .integer, priority⟩,
    ⟨"isJson", .truthValue, isJson⟩,
    ⟨"dateFormat", .text, dateFormat⟩,
    ⟨"timeFormat", .text, timeFormat⟩,
    ⟨"dateTimeFormat", .text, dateTimeFormat⟩,
    ⟨"type", .valueType, type⟩,
    ⟨"format", .text, format⟩,
    ⟨"key", .text, key⟩,
    ⟨"source", .valueSource, source⟩,
    ⟨"negateResult", .truthValue, negateResult⟩,
    ⟨"stringIgnoreCase", .truthValue, stringIgnoreCase⟩,
    ⟨"fieldsStrictCheck", .truthValue, fieldsStrictCheck⟩,
    ⟨"arrayOrderStrictCheck", .truthValue, arrayOrderStrictCheck⟩,
    ⟨"strictCheck", .truthValue, strictCheck⟩,
    ⟨"minimumConditions", .integer, minimumConditions⟩,
    ⟨"optimize", .truthValue, optimize⟩,
    ⟨"lenientConstraints", .truthValue, lenientConstraints⟩,
    ⟨"actionExecutionStrategy", .strategy, actionExecutionStrategy⟩,
    ⟨"ignoreErrors", .truthValue, ignoreErrors⟩,
    ⟨"strictTargetEffect", .truthValue, strictTargetEffect⟩,
    ⟨"skipCache", .truthValue, skipCache⟩,
    ⟨"runChildActions", .truthValue, runChildActions⟩,
    ⟨"runAction", .truthValue, runAction⟩,
    ⟨"indeterminateOnActionFail", .truthValue, indeterminateOnActionFail⟩,
    ⟨"strictUnlessLogic", .truthValue, strictUnlessLogic⟩,
    ⟨"failOnMissingKey", .truthValue, failOnMissingKey⟩,
    ⟨"failOnExistingKey", .truthValue, failOnExistingKey⟩,
    ⟨"failOnNullSource", .truthValue, failOnNullSource⟩,
    ⟨"castNullSourceToArray", .truthValue, castNullSourceToArray⟩,
    ⟨"failOnNullMerge", .truthValue, failOnNullMerge⟩]

lemma mem_rows (key : String) (form : OptionForm) :
    OptionForm.of? key = some form ↔ ∃ row ∈ rows, row.key = key ∧ row.form = form := by
  constructor
  · intro h
    have hFlags : ∀ key ∈ flagOptions, ∃ row ∈ rows, row.key = key ∧ row.form = .truthValue := by
      decide +kernel
    have hTable : ∀ pair ∈ OptionForm.table, ∃ row ∈ rows, row.key = pair.1 ∧ row.form = pair.2 := by
      decide +kernel
    unfold OptionForm.of? at h
    split at h
    · rename_i hFlag
      cases h
      exact hFlags key (List.contains_iff_mem.1 hFlag)
    · obtain ⟨before, after, hSplit, -⟩ := List.lookup_eq_some_iff.1 h
      exact hTable (key, form) (by rw [hSplit]; simp)
  · rintro ⟨row, hRow, rfl, rfl⟩
    have hForms : ∀ row ∈ rows, OptionForm.of? row.key = some row.form := by decide +kernel
    exact hForms row hRow

lemma eq_of_rows {o other : Options} (h : ∀ row ∈ rows, row.field o = row.field other) :
    o = other := by
  simp only [rows, List.forall_mem_cons, List.not_mem_nil, false_implies, implies_true,
    and_true] at h
  cases o
  cases other
  simp only [mk.injEq]
  exact h

lemma field_ofValues (raw : RawOptions) :
    ∀ row ∈ rows, row.field (ofValues raw) = (raw.get? row.key).bind (row.form.read? ·) := by
  have hText (key : String) : raw.get? key = (raw.get? key).bind (OptionForm.text.read? ·) := by
    cases raw.get? key <;> rfl
  simp only [rows, List.forall_mem_cons, List.not_mem_nil, false_implies, implies_true, and_true]
  exact ⟨hText _, rfl, hText _, rfl, rfl, rfl, rfl, hText _, hText _, hText _, rfl, hText _,
    hText _, rfl, rfl, rfl, rfl, rfl, rfl, rfl, rfl, rfl, rfl, rfl, rfl, rfl, rfl, rfl, rfl, rfl,
    rfl, rfl, rfl, rfl, rfl⟩

/-! ## Checking the entries -/

/-- The entries of an ordered option list are refused with the error of the least known key whose
value does not have its form. -/
lemma checkEntries_eq_error {raw : RawOptions} (hOrdered : raw.Ordered) {e : ParseError} :
    checkEntries raw = .error e ↔
      ∃ entry ∈ raw, ∃ form, OptionForm.of? entry.1 = some form ∧
        form.check entry.1 entry.2 = .error e ∧
        ∀ other ∈ raw, other.1 < entry.1 → ∀ known, OptionForm.of? other.1 = some known →
          known.check other.1 other.2 = .ok () := by
  induction raw with
  | nil => simp [checkEntries]
  | cons first rest ih =>
    obtain ⟨key, value⟩ := first
    obtain ⟨hFirst, hRest⟩ := List.pairwise_cons.1 hOrdered
    -- Where the first entry passes, it neither is the least that fails nor stands in its way.
    have hPass (hFirstPasses : ∀ known, OptionForm.of? key = some known →
        known.check key value = .ok ()) :
        checkEntries rest = .error e ↔ ∃ entry ∈ (key, value) :: rest, ∃ form,
          OptionForm.of? entry.1 = some form ∧ form.check entry.1 entry.2 = .error e ∧
          ∀ other ∈ (key, value) :: rest, other.1 < entry.1 → ∀ known,
            OptionForm.of? other.1 = some known → known.check other.1 other.2 = .ok () := by
      rw [ih hRest]
      constructor
      · rintro ⟨entry, hEntry, form, hForm, hFails, hLeast⟩
        exact ⟨entry, List.mem_cons_of_mem _ hEntry, form, hForm, hFails,
          List.forall_mem_cons.2 ⟨fun _ => hFirstPasses, hLeast⟩⟩
      · rintro ⟨entry, hEntry, form, hForm, hFails, hLeast⟩
        obtain rfl | hEntry := List.mem_cons.1 hEntry
        · cases hFails.symm.trans (hFirstPasses form hForm)
        · exact ⟨entry, hEntry, form, hForm, hFails, (List.forall_mem_cons.1 hLeast).2⟩
    unfold checkEntries
    split
    · rename_i hNone
      apply hPass
      intro known hKnown
      cases hNone.symm.trans hKnown
    · rename_i form hForm
      split
      · rename_i error hFails
        constructor
        · rintro ⟨⟩
          refine ⟨(key, value), List.mem_cons_self, form, hForm, hFails, ?_⟩
          intro other hOther hLess
          obtain rfl | hOther := List.mem_cons.1 hOther
          · exact absurd hLess (String.lt_irrefl _)
          · exact absurd (hFirst other hOther) (String.lt_asymm hLess)
        · rintro ⟨entry, hEntry, found, hFound, hFoundFails, hLeast⟩
          obtain rfl | hEntry := List.mem_cons.1 hEntry
          · cases hForm.symm.trans hFound
            rw [← hFoundFails, hFails]
          · have hPasses := hLeast (key, value) List.mem_cons_self (hFirst entry hEntry) form hForm
            cases hFails.symm.trans hPasses
      · rename_i hPasses
        apply hPass
        intro known hKnown
        cases hForm.symm.trans hKnown
        exact hPasses

/-- What is read for a row is refused exactly if the entry with its key does not have its form. -/
lemma read_eq_error {raw : RawOptions} (hOrdered : raw.Ordered) {row : OptionRow} {e : ParseError} :
    row.read raw = .error e ↔
      ∃ entry ∈ raw, entry.1 = row.key ∧ row.form.check row.key entry.2 = .error e := by
  unfold OptionRow.read
  cases hGet : raw.get? row.key with
  | none =>
    constructor
    · rintro ⟨⟩
    · rintro ⟨entry, hEntry, hKey, -⟩
      have hFound := hOrdered.get?_of_mem hEntry
      rw [hKey, hGet] at hFound
      cases hFound
  | some value =>
    dsimp only
    rw [OptionForm.convert_eq, Except.map_eq_error]
    constructor
    · exact fun h => ⟨_, RawOptions.mem_of_get? hGet, rfl, h⟩
    · rintro ⟨entry, hEntry, hKey, h⟩
      have hFound := hOrdered.get?_of_mem hEntry
      rw [hKey, hGet] at hFound
      cases hFound
      exact h

variable {raw : RawOptions}

lemma ofRaw_eq_error_iff {e : ParseError} : ofRaw raw = .error e ↔ checkEntries raw = .error e := by
  unfold ofRaw
  cases checkEntries raw with
  | error found => exact ⟨fun h => congrArg Except.error (Except.error.inj h),
      fun h => congrArg Except.error (Except.error.inj h)⟩
  | ok done => exact ⟨nofun, nofun⟩

/-- An ordered option list is refused exactly with the error of the least key whose value cannot be
converted. -/
lemma ofRaw_eq_error (hOrdered : raw.Ordered) {e : ParseError} :
    ofRaw raw = .error e ↔ ∃ row ∈ rows, row.read raw = .error e ∧
      ∀ other ∈ rows, other.key < row.key → ∃ found, other.read raw = .ok found := by
  rw [ofRaw_eq_error_iff, checkEntries_eq_error hOrdered]
  constructor
  · rintro ⟨entry, hEntry, form, hForm, hFails, hLeast⟩
    obtain ⟨row, hRow, hKey, rfl⟩ := (mem_rows _ _).1 hForm
    refine ⟨row, hRow, (read_eq_error hOrdered).2 ⟨entry, hEntry, hKey.symm, hKey ▸ hFails⟩, ?_⟩
    intro other hOther hLess
    cases hRead : other.read raw with
    | ok found => exact ⟨found, rfl⟩
    | error fault =>
      obtain ⟨found, hFound, hSame, hCheck⟩ := (read_eq_error hOrdered).1 hRead
      have hKnown : OptionForm.of? found.1 = some other.form :=
        (mem_rows _ _).2 ⟨other, hOther, hSame.symm, rfl⟩
      have hPasses := hLeast found hFound (by rw [hSame, ← hKey]; exact hLess) _ hKnown
      rw [hSame, hCheck] at hPasses
      cases hPasses
  · rintro ⟨row, hRow, hRead, hLeast⟩
    obtain ⟨entry, hEntry, hKey, hFails⟩ := (read_eq_error hOrdered).1 hRead
    refine ⟨entry, hEntry, row.form, (mem_rows _ _).2 ⟨row, hRow, hKey.symm, rfl⟩,
      by rw [hKey]; exact hFails, ?_⟩
    intro other hOther hLess known hKnown
    obtain ⟨found, hFound, hSame, rfl⟩ := (mem_rows _ _).1 hKnown
    cases hCheck : found.form.check other.1 other.2 with
    | ok done => rfl
    | error fault =>
      obtain ⟨result, hResult⟩ := hLeast found hFound (by rw [hSame, ← hKey]; exact hLess)
      have hError := (read_eq_error hOrdered).2 ⟨other, hOther, hSame.symm, hSame ▸ hCheck⟩
      cases hError.symm.trans hResult

lemma read_of_ofRaw {o : Options} (h : ofRaw raw = .ok o) :
    ∀ row ∈ rows, row.read raw = .ok (row.field o) := by
  intro row hRow
  unfold ofRaw at h
  split at h
  · cases h
  rename_i hCheck
  cases h
  rw [field_ofValues raw row hRow, OptionRow.read]
  cases hGet : raw.get? row.key with
  | none => rfl
  | some value =>
    have hForm := (mem_rows row.key row.form).2 ⟨row, hRow, rfl, rfl⟩
    have hPasses := check_of_checkEntries hCheck (RawOptions.mem_of_get? hGet) hForm
    dsimp only at hPasses ⊢
    rw [OptionForm.convert_eq, hPasses]
    rfl

/-- An ordered option list is read as some options exactly if every field of them holds what is read
for its key. -/
lemma ofRaw_eq_ok (hOrdered : raw.Ordered) {o : Options} :
    ofRaw raw = .ok o ↔ ∀ row ∈ rows, row.read raw = .ok (row.field o) := by
  constructor
  · exact read_of_ofRaw
  · intro h
    cases hRaw : ofRaw raw with
    | error e =>
      obtain ⟨row, hRow, hRead, -⟩ := (ofRaw_eq_error hOrdered).1 hRaw
      cases hRead.symm.trans (h row hRow)
    | ok other =>
      refine congrArg Except.ok (eq_of_rows fun row hRow => ?_)
      exact Except.ok.inj ((read_of_ofRaw hRaw row hRow).symm.trans (h row hRow))

lemma ofRaw_congr_read {other : RawOptions} (hOrdered : raw.Ordered) (hOther : other.Ordered)
    (hRead : ∀ row ∈ rows, row.read raw = row.read other) : ofRaw raw = ofRaw other := by
  cases hResult : ofRaw other with
  | error e =>
    obtain ⟨row, hRow, hFails, hLeast⟩ := (ofRaw_eq_error hOther).1 hResult
    refine (ofRaw_eq_error hOrdered).2 ⟨row, hRow, (hRead row hRow).trans hFails, ?_⟩
    intro next hNext hLess
    rw [hRead next hNext]
    exact hLeast next hNext hLess
  | ok o =>
    refine (ofRaw_eq_ok hOrdered).2 fun row hRow => ?_
    rw [hRead row hRow]
    exact (ofRaw_eq_ok hOther).1 hResult row hRow

lemma ofRaw_congr {other : RawOptions} (hOrdered : raw.Ordered) (hOther : other.Ordered)
    (h : ∀ row ∈ rows, raw.get? row.key = other.get? row.key) : ofRaw raw = ofRaw other := by
  refine ofRaw_congr_read hOrdered hOther fun row hRow => ?_
  rw [OptionRow.read, OptionRow.read, h row hRow]

end Options

/-! ## Both steps -/

/-- Scans an option list and reads its options. -/
def decodeOptions (keyword : String) (c : Cursor) : Except ParseError Options := do
  let (raw, _) ← scanOptions keyword c
  Options.ofRaw raw

/-- **The options mini-language decodes to the last value of each key.**  Entries with a comma
between any two of them and whatever room there is are scanned to an ordered list in which each key
has the value of its last entry, and the scanner stops behind the closing parenthesis and the fillers
that follow it.  So entries with different keys can be permuted without any difference to the options
or to the error.  Of an ordered list, the options are refused exactly with the error of the least key
whose own conversion fails; they are read exactly if every field holds the conversion of the value of
its own key, or nothing where the key is missing; and keys other than those of the table, which are
all that are known, have no effect. -/
theorem options_decoded :
    (∀ (keyword : String) (position : Nat) (entries : List OptionEntry) (text tail : List Char),
      Listed separatesOptions OptionEntry.IsWritten .front entries text →
        ∃ raw : RawOptions,
          scanOptions keyword ⟨position, '(' :: (text ++ ')' :: tail)⟩
            = .ok (raw, Cursor.skipFiller ⟨position + text.length + 2, tail⟩) ∧
          raw.Ordered ∧
          ∀ key, raw.get? key = (entries.map OptionEntry.pair).reverse.lookup key) ∧
      (∀ (keyword : String) (position place : Nat) (entries others : List OptionEntry)
        (text other tail rest : List Char),
        Listed separatesOptions OptionEntry.IsWritten .front entries text →
        Listed separatesOptions OptionEntry.IsWritten .front others other →
        entries.Perm others → (entries.map OptionEntry.key).Nodup →
          decodeOptions keyword ⟨position, '(' :: (text ++ ')' :: tail)⟩
            = decodeOptions keyword ⟨place, '(' :: (other ++ ')' :: rest)⟩) ∧
      (∀ raw : RawOptions, raw.Ordered →
        (∀ e, Options.ofRaw raw = .error e ↔ ∃ row ∈ Options.rows, row.read raw = .error e ∧
          ∀ other ∈ Options.rows, other.key < row.key → ∃ found, other.read raw = .ok found) ∧
        (∀ o, Options.ofRaw raw = .ok o ↔
          ∀ row ∈ Options.rows, row.read raw = .ok (row.field o)) ∧
        ∀ other : RawOptions, other.Ordered →
          (∀ row ∈ Options.rows, raw.get? row.key = other.get? row.key) →
            Options.ofRaw raw = Options.ofRaw other) ∧
      ∀ key form,
        OptionForm.of? key = some form ↔ ∃ row ∈ Options.rows, row.key = key ∧ row.form = form := by
  have hEmpty : RawOptions.Ordered [] := List.Pairwise.nil
  refine ⟨?_, ?_, ?_, Options.mem_rows⟩
  · intro keyword position entries text tail hText
    exact ⟨_, scanOptions_written keyword position tail hText, hEmpty.insertAll _,
      RawOptions.get?_ofPairs _⟩
  · intro keyword position place entries others text other tail rest hText hOther hPerm hKeys
    have hPairs : (entries.map OptionEntry.pair).reverse.Perm
        (others.map OptionEntry.pair).reverse :=
      ((List.reverse_perm _).trans (hPerm.map _)).trans (List.reverse_perm _).symm
    have hNames : ((entries.map OptionEntry.pair).reverse.map Prod.fst).Nodup := by
      rw [List.map_reverse, List.nodup_reverse, List.map_map]
      have hFirst : Prod.fst ∘ OptionEntry.pair = String.ofList ∘ OptionEntry.key := rfl
      rw [hFirst, ← List.map_map]
      exact hKeys.map fun _ _ h => String.ofList_injective h
    rw [decodeOptions, decodeOptions, scanOptions_written keyword position tail hText,
      scanOptions_written keyword place rest hOther, Except.ok_bind, Except.ok_bind]
    refine Options.ofRaw_congr (hEmpty.insertAll _) (hEmpty.insertAll _) fun row _ => ?_
    rw [RawOptions.get?_ofPairs, RawOptions.get?_ofPairs]
    exact RawOptions.lookup_eq_of_perm hPairs hNames row.key
  · intro raw hOrdered
    exact ⟨fun e => Options.ofRaw_eq_error hOrdered, fun o => Options.ofRaw_eq_ok hOrdered,
      fun other hOther h => Options.ofRaw_congr hOrdered hOther h⟩

/-- A version as an entry. -/
def versionEntry : OptionEntry :=
  ⟨"ver".toList, some (.bare "2.0".toList)⟩

/-- A flag as an entry. -/
def flagEntry : OptionEntry :=
  ⟨"negateResult".toList, none⟩

/-- A text that is no part of any field, in quotes that hold the characters at which it would end
without them. -/
def remarkEntry : OptionEntry :=
  ⟨"remark".toList, some (.wrapped .quote "a=1,)".toList)⟩

/-- Three entries and two of them in either order; a list with two values that cannot be converted, of
which the one with the lesser key is reported; and a list with an unknown key. -/
theorem options_decoded_entries :
    (∃ raw next, scanOptions "#opts" ⟨5, "(ver=2.0, negateResult,remark=\x22a=1,)\x22)".toList⟩
        = .ok (raw, next) ∧ raw.Ordered ∧ raw.get? "ver" = some "2.0" ∧
        raw.get? "negateResult" = some "true" ∧ raw.get? "remark" = some "a=1,)") ∧
      decodeOptions "#opts" ⟨5, "(ver=2.0, negateResult)".toList⟩
        = decodeOptions "#opts" ⟨9, "(negateResult,ver=2.0) ".toList⟩ ∧
      Options.ofRaw [("priority", "one"), ("ver", "two")]
        = .error (.invalidOptionValue "priority" "one" "invalid digit found in string") ∧
      Options.ofRaw [("priority", "1"), ("remark", "a")] = Options.ofRaw [("priority", "1")] := by
  have hVersion : versionEntry.IsWritten "ver=2.0".toList :=
    @OptionEntry.IsWritten.value _ [] [] _ _ ⟨by decide, by decide, by decide⟩ nofun nofun
      ⟨⟨by decide, by decide, '2', by decide, by decide, by decide⟩, [], nofun, by decide⟩
      (by decide)
  have hFlag : flagEntry.IsWritten "negateResult".toList :=
    @OptionEntry.IsWritten.flag _ [] ⟨by decide, by decide, by decide⟩ (by decide) nofun
  have hRemark : remarkEntry.IsWritten "remark=\x22a=1,)\x22".toList :=
    @OptionEntry.IsWritten.value _ [] [] _ _ ⟨by decide, by decide, by decide⟩ nofun nofun
      ⟨(by decide : Wrapper.quote.Holds "a=1,)".toList), [], nofun, by decide⟩ (by decide)
  have hThree : Listed separatesOptions OptionEntry.IsWritten .front
      [versionEntry, flagEntry, remarkEntry]
      "ver=2.0, negateResult,remark=\x22a=1,)\x22".toList :=
    @Listed.item _ _ _ [] _ _ _ _ nofun hVersion <| .comma <|
      @Listed.item _ _ _ [' '] _ _ _ _ (by decide) hFlag <| .comma <|
      @Listed.item _ _ _ [] _ _ _ _ nofun hRemark .closing
  have hTwo : Listed separatesOptions OptionEntry.IsWritten .front [versionEntry, flagEntry]
      "ver=2.0, negateResult".toList :=
    @Listed.item _ _ _ [] _ _ _ _ nofun hVersion <| .comma <|
      @Listed.item _ _ _ [' '] _ _ _ _ (by decide) hFlag .closing
  have hSwapped : Listed separatesOptions OptionEntry.IsWritten .front [flagEntry, versionEntry]
      "negateResult,ver=2.0".toList :=
    @Listed.item _ _ _ [] _ _ _ _ nofun hFlag <| .comma <|
      @Listed.item _ _ _ [] _ _ _ _ nofun hVersion .closing
  have hOthers : ∀ row ∈ Options.rows, row.key < "priority" →
      (row.read [("priority", "one"), ("ver", "two")]).isOk = true := by
    decide +kernel
  obtain ⟨hScan, hPermute, hRaw, -⟩ := options_decoded
  refine ⟨?_, ?_, ?_, ?_⟩
  · obtain ⟨raw, hFound, hOrdered, hValue⟩ := hScan "#opts" 5 _ _ [] hThree
    exact ⟨raw, _, hFound, hOrdered, hValue _, hValue _, hValue _⟩
  · exact hPermute "#opts" 5 9 _ _ _ _ [] [' '] hTwo hSwapped (List.Perm.swap _ _ _) (by decide)
  · refine ((hRaw _ (by decide +kernel)).1 _).2
      ⟨⟨"priority", .integer, Options.priority⟩, ?_, ?_, ?_⟩
    · simp [Options.rows]
    · exact Except.eq_error_of_failsWith (by decide +kernel)
    · exact fun other hOther hLess => Except.exists_eq_ok (hOthers other hOther hLess)
  · exact (hRaw _ (by decide +kernel)).2.2 _ (by decide +kernel) (by decide +kernel)

end PolicyText
