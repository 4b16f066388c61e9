import PolicyText.Proofs.Options.Labels

/-!
# Options that have been read

Whatever stands in an option list that was found in a text, the options that it is read as are
`Sound`: no text among them is empty, labels could be written again, and a set of execution modes is
not empty (`Options.Sound.of_raw`).
-/

namespace PolicyText

lemma RawOptions.mem_of_get? {raw : RawOptions} {key value : String}
    (h : raw.get? key = some value) : (key, value) ∈ raw := by
  obtain ⟨before, after, rfl, -⟩ := List.lookup_eq_some_iff.1 h
  simp

namespace Options

/-- Options as they can be read from a text. -/
structure Sound (o : Options) : Prop where
  text : ∀ field ∈ [o.id, o.description, o.dateFormat, o.timeFormat, o.dateTimeFormat, o.format,
    o.key], ∀ text ∈ field, text ≠ ""
  labels : ∀ labels ∈ o.labels, WritableLabels labels
  executionMode : ∀ modes ∈ o.executionMode, modes.toList ≠ []

/-- If the entries of an option list are in order, each has a value of the form that its key asks
for. -/
lemma check_of_checkEntries {raw : RawOptions} (h : checkEntries raw = .ok ())
    {pair : String × String} (hPair : pair ∈ raw) {form : OptionForm}
    (hForm : OptionForm.of? pair.1 = some form) : form.check pair.1 pair.2 = .ok () := by
  induction raw with
  | nil => cases hPair
  | cons first rest ih =>
    obtain ⟨key, value⟩ := first
    rw [checkEntries] at h
    split at h
    · rename_i hNone
      obtain rfl | hRest := List.mem_cons.1 hPair
      · rw [hNone] at hForm
        cases hForm
      · exact ih h hRest
    · rename_i found hFound
      split at h
      · cases h
      · rename_i hCheck
        obtain rfl | hRest := List.mem_cons.1 hPair
        · rw [hFound] at hForm
          cases hForm
          exact hCheck
        · exact ih h hRest

lemma executionModes?_ne_nil {value : String} {modes : ExecutionModes}
    (hKnown : unknownMode? value = none) (h : executionModes? value = some modes) :
    modes.toList ≠ [] := by
  unfold executionModes? at h
  split at h
  · cases h
  rename_i hSome
  cases h
  obtain ⟨word, hWord⟩ := List.exists_mem_of_ne_nil _ (by rwa [List.isEmpty_iff] at hSome)
  have hMode := List.find?_eq_none.1 hKnown word hWord
  rw [Option.isNone_iff_eq_none] at hMode
  obtain ⟨mode, hMode⟩ := Option.ne_none_iff_exists'.1 hMode
  have hMem : mode ∈ (barItems value).filterMap Literal.ofLiteral? :=
    List.mem_filterMap.2 ⟨word, hWord, hMode⟩
  refine List.ne_nil_of_mem (a := mode) (List.mem_filter.2 ⟨?_, ?_⟩)
  · cases mode <;> decide
  · rw [ExecutionModes.contains_ofList]
    exact List.contains_iff_mem.2 hMem

/-- Options that are read from values of options are sound. -/
lemma Sound.of_raw {raw : RawOptions} {o : Options} (hRaw : ∀ pair ∈ raw, IsOptionValue pair.2)
    (h : ofRaw raw = .ok o) : o.Sound := by
  unfold ofRaw at h
  split at h
  · cases h
  rename_i hCheck
  cases h
  have hValue {key value : String} (hKey : raw.get? key = some value) : IsOptionValue value :=
    hRaw _ (RawOptions.mem_of_get? hKey)
  refine ⟨?_, ?_, ?_⟩
  · simp only [List.forall_mem_cons, ofValues, Option.mem_def]
    exact ⟨fun _ hText => (hValue hText).1, fun _ hText => (hValue hText).1,
      fun _ hText => (hValue hText).1, fun _ hText => (hValue hText).1,
      fun _ hText => (hValue hText).1, fun _ hText => (hValue hText).1,
      fun _ hText => (hValue hText).1, List.forall_mem_nil _⟩
  · intro labels hLabels
    obtain ⟨value, hKey, hRead⟩ := Option.bind_eq_some_iff.1 hLabels
    exact .of_labels? (hValue hKey).2 hRead
  · intro modes hModes
    obtain ⟨value, hKey, hRead⟩ := Option.bind_eq_some_iff.1 hModes
    have hForm : OptionForm.of? "executionMode" = some .executionModes := by decide +kernel
    have hKnown := check_of_checkEntries hCheck (RawOptions.mem_of_get? hKey) hForm
    rw [OptionForm.check] at hKnown
    split at hKnown
    · exact executionModes?_ne_nil ‹_› hRead
    · cases hKnown

lemma Sound.nothing : Sound {} := by
  refine ⟨?_, ?_, ?_⟩
  · decide
  · intro labels hLabels
    cases hLabels
  · intro modes hModes
    cases hModes

end Options

end PolicyText
