import PolicyText.Proofs.Lookup
import PolicyText.Proofs.Options.Values
import PolicyText.Proofs.Scan.OptionList
import PolicyText.Proofs.Version

/-!
# Options as entries

Options can be written as an option list that has one entry for every option that is given
(`Options.entries`), and are read back from it (`Options.ofRaw_entries`).

`Options.fields` is the table of the keys that have an effect, each with the text of the value that
options give to it; that every entry is bound to the field from which it was written comes down to
this one table.
-/

namespace PolicyText

/-! ## Raw options -/

namespace RawOptions

/-- The pairs of keys and values that are given. -/
def given (fields : List (String × Option String)) : List (String × String) :=
  fields.filterMap fun field => field.2.map fun value => (field.1, value)

/-- If no key is there twice, setting all values sets each key to its own value. -/
lemma get?_insertAll_given {fields : List (String × Option String)}
    (hKeys : (fields.map Prod.fst).Nodup) (raw : RawOptions) (key : String) :
    (raw.insertAll (given fields)).get? key = (fields.lookup key).join.or (raw.get? key) := by
  induction fields generalizing raw with
  | nil => rfl
  | cons field rest ih =>
    obtain ⟨other, value⟩ := field
    rw [List.map_cons, List.nodup_cons] at hKeys
    obtain ⟨hOther, hRest⟩ := hKeys
    have hAbsent : rest.lookup other = none := List.lookup_of_not_mem hOther
    rw [List.lookup_cons]
    cases value with
    | none =>
      have hGiven : given ((other, none) :: rest) = given rest := rfl
      rw [hGiven, ih hRest]
      by_cases hKey : key = other
      · simp [hKey, hAbsent]
      · simp [beq_eq_false_iff_ne.2 hKey]
    | some value =>
      have hGiven : given ((other, some value) :: rest) = (other, value) :: given rest := rfl
      have hInsert : raw.insertAll ((other, value) :: given rest)
          = (raw.insert other value).insertAll (given rest) := rfl
      rw [hGiven, hInsert, ih hRest, get?_insert]
      by_cases hKey : key = other
      · simp [hKey, hAbsent]
      · simp [beq_eq_false_iff_ne.2 hKey, hKey]

end RawOptions

/-! ## The table of options -/

namespace Options

/-- The keys that have an effect, with the texts of the values that options give to them. -/
def fields (o : Options) : List (String × Option String) :=
  [("id", o.id),
    ("ver", o.version.map Version.text),
    ("desc", o.description),
    ("labels", o.labels.map fun labels => String.ofList (labelsText labels)),
    ("executionMode", o.executionMode.map fun modes => String.ofList (modesText modes)),
    ("priority", o.priority.map fun n => String.ofList (Text.integerText n.value)),
    ("isJson", o.isJson.map truthText),
    ("dateFormat", o.dateFormat),
    ("timeFormat", o.timeFormat),
    ("dateTimeFormat", o.dateTimeFormat),
    ("type", o.type.map Literal.literal),
    ("format", o.format),
    ("key", o.key),
    ("source", o.source.map Literal.literal),
    ("negateResult", o.negateResult.map truthText),
    ("stringIgnoreCase", o.stringIgnoreCase.map truthText),
    ("fieldsStrictCheck", o.fieldsStrictCheck.map truthText),
    ("arrayOrderStrictCheck", o.arrayOrderStrictCheck.map truthText),
    ("strictCheck", o.strictCheck.map truthText),
    ("minimumConditions",
      o.minimumConditions.map fun n => String.ofList (Text.integerText n.value)),
    ("optimize", o.optimize.map truthText),
    ("lenientConstraints", o.lenientConstraints.map truthText),
    ("actionExecutionStrategy", o.actionExecutionStrategy.map Literal.literal),
    ("ignoreErrors", o.ignoreErrors.map truthText),
    ("strictTargetEffect", o.strictTargetEffect.map truthText),
    ("skipCache", o.skipCache.map truthText),
    ("runChildActions", o.runChildActions.map truthText),
    ("runAction", o.runAction.map truthText),
    ("indeterminateOnActionFail", o.indeterminateOnActionFail.map truthText),
    ("strictUnlessLogic", o.strictUnlessLogic.map truthText),
    ("failOnMissingKey", o.failOnMissingKey.map truthText),
    ("failOnExistingKey", o.failOnExistingKey.map truthText),
    ("failOnNullSource", o.failOnNullSource.map truthText),
    ("castNullSourceToArray", o.castNullSourceToArray.map truthText),
    ("failOnNullMerge", o.failOnNullMerge.map truthText)]

lemma map_fst_fields (o : Options) : o.fields.map Prod.fst = (fields {}).map Prod.fst :=
  rfl

lemma nodup_keys (o : Options) : (o.fields.map Prod.fst).Nodup := by
  rw [map_fst_fields]
  decide +kernel

/-- The entries of options: one for every option that is given. -/
def entries (o : Options) : List OptionEntry :=
  (RawOptions.given o.fields).map fun pair => ⟨pair.1.toList, some (Token.ofText pair.2.toList)⟩

lemma pairs_entries (o : Options) :
    o.entries.map OptionEntry.pair = RawOptions.given o.fields := by
  have hPair : (OptionEntry.pair ∘ fun pair : String × String =>
      ⟨pair.1.toList, some (Token.ofText pair.2.toList)⟩) = fun pair => pair := by
    funext pair
    simp [OptionEntry.pair]
  rw [entries, List.map_map, hPair, List.map_id']

/-! ## Reading options back -/

/-- Options that can be written: texts are not empty and some wrapper holds them, and lists are not
empty. -/
structure Writable (o : Options) : Prop where
  text : ∀ field ∈ [o.id, o.description, o.dateFormat, o.timeFormat, o.dateTimeFormat, o.format,
    o.key], ∀ text ∈ field, text ≠ "" ∧ Representable text.toList
  labels : ∀ labels ∈ o.labels, WritableLabels labels
  executionMode : ∀ modes ∈ o.executionMode, modes.toList ≠ []

end Options

/-- A text is the text of a value of a form. -/
inductive OptionForm.IsText : OptionForm → String → Prop where
  | text {text : String} (hText : text ≠ "" ∧ Representable text.toList) : IsText .text text
  | version (v : Version) : IsText .version v.text
  | labels {labels : List String} (hLabels : WritableLabels labels) :
    IsText .labels (String.ofList (labelsText labels))
  | executionModes {modes : ExecutionModes} (hModes : modes.toList ≠ []) :
    IsText .executionModes (String.ofList (modesText modes))
  | integer (n : Text.Integer32) : IsText .integer (String.ofList (Text.integerText n.value))
  | truthValue (b : Bool) : IsText .truthValue (truthText b)
  | valueType (type : ValueType) : IsText .valueType (Literal.literal type)
  | valueSource (source : ValueSource) : IsText .valueSource (Literal.literal source)
  | strategy (strategy : ExecutionStrategy) : IsText .strategy (Literal.literal strategy)

lemma OptionForm.IsText.check {form : OptionForm} {text : String} (h : form.IsText text)
    (key : String) : form.check key text = .ok () := by
  cases h with
  | text => rfl
  | labels => rfl
  | version v => simp [OptionForm.check]
  | executionModes hModes => simp only [OptionForm.check, unknownMode?_modesText hModes]
  | integer n =>
    rw [OptionForm.check, String.toList_ofList, Text.readBounded_integerText (by decide)]
  | truthValue b => simp [OptionForm.check, truthValue?_truthText]
  | valueType type => simp [OptionForm.check, OptionForm.checkWord]
  | valueSource source => simp [OptionForm.check, OptionForm.checkWord]
  | strategy strategy => simp [OptionForm.check, OptionForm.checkWord]

/-- The text of a value is not empty and can be written. -/
lemma OptionForm.IsText.expressible {form : OptionForm} {text : String} (h : form.IsText text) :
    text.toList ≠ [] ∧ Expressible text.toList := by
  cases h with
  | text hText => exact ⟨by simpa using hText.1, Or.inl hText.2⟩
  | labels hLabels =>
    rw [String.toList_ofList]
    exact ⟨labelsText_ne_nil hLabels, expressible_labelsText hLabels⟩
  | version v =>
    refine ⟨v.toList_ne_nil, Or.inl (representable_of_not_mem fun h => ?_)⟩
    have hBacktick := v.isVersionChar_of_mem h
    cases hBacktick
  | @executionModes modes hModes =>
    rw [String.toList_ofList]
    refine ⟨fun hNil => ?_, Or.inl (representable_modesText modes)⟩
    have hRead := executionModes?_modesText hModes
    rw [hNil] at hRead
    cases hRead
  | integer n =>
    rw [String.toList_ofList]
    refine ⟨fun hNil => ?_, Or.inl (representable_of_not_mem (not_mem_integerText n.value))⟩
    have hRead := integer32?_integerText n
    rw [hNil] at hRead
    cases hRead
  | truthValue b => cases b <;> exact ⟨by decide, Or.inl (by decide)⟩
  | valueType type => cases type <;> exact ⟨by decide, Or.inl (by decide)⟩
  | valueSource source => cases source <;> exact ⟨by decide, Or.inl (by decide)⟩
  | strategy strategy => cases strategy <;> exact ⟨by decide, Or.inl (by decide)⟩

/-- What options give to a key is the text of a value of the form that the key has. -/
lemma Options.Writable.isText {o : Options} (h : o.Writable) :
    ∀ field ∈ o.fields, ∀ text ∈ field.2,
      ∃ form, OptionForm.of? field.1 = some form ∧ form.IsText text := by
  obtain ⟨hFields, hLabels, hModes⟩ := h
  have hPlain {key : String} {field : Option String} (hKey : OptionForm.of? key = some .text)
      (hField : field ∈ [o.id, o.description, o.dateFormat, o.timeFormat, o.dateTimeFormat,
        o.format, o.key]) :
      ∀ text ∈ field, ∃ form, OptionForm.of? key = some form ∧ form.IsText text :=
    fun text hText => ⟨.text, hKey, .text (hFields field hField text hText)⟩
  have hMapped {α : Type} {key : String} {form : OptionForm} {write : α → String}
      {field : Option α} (hKey : OptionForm.of? key = some form)
      (hText : ∀ a ∈ field, form.IsText (write a)) :
      ∀ text ∈ field.map write,
        ∃ form, OptionForm.of? key = some form ∧ form.IsText text := by
    intro text hSome
    obtain ⟨a, ha, rfl⟩ := Option.map_eq_some_iff.1 hSome
    exact ⟨form, hKey, hText a ha⟩
  have hFlag {key : String} {field : Option Bool}
      (hKey : OptionForm.of? key = some .truthValue) :
      ∀ text ∈ field.map truthText,
        ∃ form, OptionForm.of? key = some form ∧ form.IsText text :=
    hMapped hKey fun b _ => .truthValue b
  simp only [fields, List.forall_mem_cons, List.not_mem_nil, false_implies, implies_true,
    and_true]
  exact ⟨hPlain rfl (by simp), hMapped rfl fun v _ => .version v, hPlain rfl (by simp),
    hMapped rfl fun labels hSome => .labels (hLabels labels hSome),
    hMapped rfl fun modes hSome => .executionModes (hModes modes hSome),
    hMapped rfl fun n _ => .integer n, hFlag rfl, hPlain rfl (by simp), hPlain rfl (by simp),
    hPlain rfl (by simp), hMapped rfl fun type _ => .valueType type, hPlain rfl (by simp),
    hPlain rfl (by simp), hMapped rfl fun source _ => .valueSource source, hFlag rfl, hFlag rfl,
    hFlag rfl, hFlag rfl, hFlag rfl, hMapped rfl fun n _ => .integer n, hFlag rfl, hFlag rfl,
    hMapped rfl fun strategy _ => .strategy strategy, hFlag rfl, hFlag rfl, hFlag rfl, hFlag rfl,
    hFlag rfl, hFlag rfl, hFlag rfl, hFlag rfl, hFlag rfl, hFlag rfl, hFlag rfl, hFlag rfl⟩

namespace Options

lemma checkEntries_eq_ok {raw : RawOptions}
    (h : ∀ entry ∈ raw, ∀ form, OptionForm.of? entry.1 = some form →
      form.check entry.1 entry.2 = .ok ()) : checkEntries raw = .ok () := by
  induction raw with
  | nil => rfl
  | cons entry rest ih =>
    have hRest := ih fun other hOther => h other (List.mem_cons_of_mem _ hOther)
    have hEntry := h entry List.mem_cons_self
    obtain ⟨key, value⟩ := entry
    rw [checkEntries]
    cases hForm : OptionForm.of? key with
    | none => exact hRest
    | some form =>
      simp only [hEntry form hForm]
      exact hRest

lemma mem_fields_of_mem_given {o : Options} {entry : String × String}
    (h : entry ∈ RawOptions.given o.fields) : (entry.1, some entry.2) ∈ o.fields := by
  obtain ⟨⟨key, field⟩, hField, hEntry⟩ := List.mem_filterMap.1 h
  obtain ⟨value, rfl, rfl⟩ := Option.map_eq_some_iff.1 hEntry
  exact hField

lemma bind_map_eq {α : Type} {text : α → String} {read : String → Option α} {option : Option α}
    (h : ∀ a ∈ option, read (text a) = some a) : (option.map text).bind read = option := by
  cases option with
  | none => rfl
  | some a => exact h a rfl

lemma get?_fields (o : Options) :
    ∀ field ∈ o.fields,
      RawOptions.get? field.1 (RawOptions.ofPairs (RawOptions.given o.fields)) = field.2 := by
  intro field hField
  have hEmpty : RawOptions.get? field.1 [] = none := rfl
  rw [RawOptions.ofPairs, RawOptions.get?_insertAll_given o.nodup_keys, hEmpty, Option.or_none,
    List.lookup_of_mem o.nodup_keys hField, Option.join_some]

/-- Options that can be written are what the values of their fields read as. -/
lemma Writable.ofValues_fields {o : Options} (h : o.Writable) :
    ofValues (RawOptions.ofPairs (RawOptions.given o.fields)) = o := by
  have hTruth (field : Option Bool) : (field.map truthText).bind truthValue? = field :=
    bind_map_eq fun b _ => truthValue?_truthText b
  have hInteger (field : Option Text.Integer32) :
      (field.map fun n => String.ofList (Text.integerText n.value)).bind integer32? = field :=
    bind_map_eq fun n _ => integer32?_integerText n
  have hVersion : (o.version.map Version.text).bind Version.parse? = o.version :=
    bind_map_eq fun v _ => v.parse?_text
  have hLabels : (o.labels.map fun labels => String.ofList (labelsText labels)).bind labels?
      = o.labels :=
    bind_map_eq fun labels hSome => labels?_labelsText (h.labels labels hSome)
  have hModes : (o.executionMode.map fun modes => String.ofList (modesText modes)).bind
      executionModes? = o.executionMode :=
    bind_map_eq fun modes hSome => executionModes?_modesText (h.executionMode modes hSome)
  have hWord {α : Type} [Literal α] (field : Option α) :
      (field.map Literal.literal).bind Literal.ofLiteral? = field :=
    bind_map_eq fun a _ => Literal.ofLiteral?_literal a
  have hGet := o.get?_fields
  generalize RawOptions.ofPairs (RawOptions.given o.fields) = raw at hGet
  simp only [fields, List.forall_mem_cons, List.not_mem_nil, false_implies, implies_true,
    and_true] at hGet
  simp only [ofValues, flag?, hGet, bind, hTruth, hInteger, hVersion, hLabels, hModes, hWord]

lemma isKey_fields (o : Options) :
    ∀ field ∈ o.fields, OptionEntry.IsKey field.1.toList := by
  have hKeys : ∀ key ∈ (fields {}).map Prod.fst, Text.Trimmed key.toList ∧ key.toList ≠ [] ∧
      ∀ c ∈ key.toList, endsKey c = false := by
    decide +kernel
  intro field hField
  have hKey : field.1 ∈ o.fields.map Prod.fst := List.mem_map_of_mem hField
  rw [map_fst_fields] at hKey
  obtain ⟨hTrimmed, hNil, hStop⟩ := hKeys field.1 hKey
  exact ⟨hTrimmed, hNil, hStop⟩

lemma Writable.isWritten_entries {o : Options} (h : o.Writable) :
    ∀ entry ∈ o.entries, entry.IsWritten entry.written := by
  intro entry hEntry
  obtain ⟨pair, hPair, rfl⟩ := List.mem_map.1 hEntry
  have hField := mem_fields_of_mem_given hPair
  obtain ⟨form, -, hIsText⟩ := h.isText _ hField pair.2 rfl
  obtain ⟨hNil, hExpressible⟩ := hIsText.expressible
  exact OptionEntry.IsWritten.value (o.isKey_fields _ hField) (List.forall_mem_nil _)
    (List.forall_mem_nil _) (Token.isPadded_written (Token.sound_ofText hExpressible))
    (by rwa [Token.text_ofText])

theorem Writable.ofRaw_entries {o : Options} (h : o.Writable) :
    ofRaw (RawOptions.ofPairs (o.entries.map OptionEntry.pair)) = .ok o := by
  have hCheck : checkEntries (RawOptions.ofPairs (RawOptions.given o.fields)) = .ok () := by
    refine checkEntries_eq_ok fun entry hEntry form hForm => ?_
    have hField := mem_fields_of_mem_given (RawOptions.mem_ofPairs hEntry)
    obtain ⟨other, hOther, hIsText⟩ := h.isText _ hField entry.2 rfl
    rw [hForm] at hOther
    cases hOther
    exact hIsText.check entry.1
  rw [pairs_entries, ofRaw, hCheck]
  simp only [h.ofValues_fields]

end Options

end PolicyText
