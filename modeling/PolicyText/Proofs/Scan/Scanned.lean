import Mathlib.Data.List.Infix
import PolicyText.Proofs.Scan.Expressible
import PolicyText.Proofs.Scan.OptionList
import PolicyText.Scan.Arguments

/-!
# What is found in a text

The converse of reading what has been written: this file is about texts of which nothing is known.
What is read behind the mark of a wrapper is a text which that wrapper holds
(`holds_of_wrappedBody?`), so that a token of content stands for a text that can be written
(`ScannedText.of_scanContent`).  Values of options are such texts, and not empty
(`scanOptions_values`), wherever the option list stands among arguments (`scanArguments_every`).
-/

namespace PolicyText

/-! ## Wrapped texts -/

/-- A mark does not occur in front of the place at which it is found. -/
lemma splitAtMark?_eq_some {mark text body after : List Char} (hMark : mark ≠ [])
    (h : splitAtMark? mark text = some (body, after)) :
    text = body ++ (mark ++ after) ∧ ¬ mark <:+: body := by
  induction text generalizing body with
  | nil => cases h
  | cons c rest ih =>
    rw [splitAtMark?] at h
    split at h
    · rename_i hHere
      cases h
      refine ⟨?_, by simpa using hMark⟩
      obtain ⟨tail, hTail⟩ := List.isPrefixOf_iff_prefix.1 hHere
      rw [List.nil_append, ← hTail, List.drop_left]
    · rename_i hHere
      obtain ⟨⟨inner, found⟩, hFound, hEq⟩ := Option.map_eq_some_iff.1 h
      cases hEq
      obtain ⟨hText, hInner⟩ := ih hFound
      refine ⟨by rw [hText, List.cons_append], ?_⟩
      rw [List.infix_cons_iff, not_or]
      refine ⟨fun hBody => hHere ?_, hInner⟩
      rw [List.isPrefixOf_iff_prefix, hText, ← List.cons_append]
      exact List.IsPrefix.trans hBody (List.prefix_append _ _)

/-- A wrapper holds what is read behind its mark. -/
lemma holds_of_wrappedBody? {w : Wrapper} {text body after : List Char}
    (h : wrappedBody? w text = some (body, after)) : w.Holds body := by
  unfold wrappedBody? at h
  split at h
  · cases h
  rename_i inner found hFound
  cases h
  have hMark : w.mark ≠ [] := by cases w <;> decide
  obtain ⟨-, hInner⟩ := splitAtMark?_eq_some hMark hFound
  cases w with
  | backtick =>
    rw [Wrapper.mark, List.singleton_infix_iff] at hInner
    rwa [show trailingQuotes .backtick found = [] from rfl, List.append_nil]
  | quote =>
    rw [Wrapper.mark, List.singleton_infix_iff] at hInner
    rwa [show trailingQuotes .quote found = [] from rfl, List.append_nil]
  | tripleQuote =>
    have hQuotes : ∀ c ∈ trailingQuotes .tripleQuote found, (c == '\x22') = true := by
      intro c hc
      exact @List.mem_takeWhile_imp _ (· == '\x22') found c hc
    rw [Wrapper.Holds, Text.dropEndWhile_append_of_all _ hQuotes]
    intro hInfix
    exact hInner (hInfix.trans (Text.dropEndWhile_isPrefix _ inner).isInfix)

/-! ## Tokens of content -/

/-- A text that a token of content can stand for: a wrapper holds it, or it has no character at
which a bare token ends. -/
def ScannedText (text : List Char) : Prop :=
  Representable text ∨ ∀ c ∈ text, c ≠ ',' ∧ c ≠ ')'

lemma mem_of_mem_trim {c : Char} {text : List Char} (h : c ∈ Text.trim text) : c ∈ text := by
  have hPrefix := Text.dropEndWhile_isPrefix Text.isBlank (text.dropWhile Text.isBlank)
  exact (List.dropWhile_suffix _).mem (hPrefix.mem h)

lemma representable_of_scanWrapped {w : Wrapper} {c next : Cursor} {text : String}
    (h : scanWrapped w c = .ok (text, next)) : Representable text.toList := by
  unfold scanWrapped at h
  split at h
  · cases h
  rename_i body after hBody
  cases h
  rw [String.toList_ofList]
  have hHolds := holds_of_wrappedBody? hBody
  cases w with
  | backtick => exact Or.inl hHolds
  | quote => exact Or.inr (Or.inl hHolds)
  | tripleQuote => exact Or.inr (Or.inr hHolds)

lemma ScannedText.of_scanContent {c next : Cursor} {text : String}
    (h : scanContent ',' c = .ok (text, next)) : ScannedText text.toList := by
  unfold scanContent at h
  split at h
  · exact Or.inl (representable_of_scanWrapped h)
  · split at h
    · cases h
    · cases h
      rw [String.toList_ofList]
      refine Or.inr fun d hd => ?_
      have hStop : (!endsContent ',' d) = true :=
        @List.mem_takeWhile_imp _ (fun d => !endsContent ',' d) c.rest d (mem_of_mem_trim hd)
      rw [endsContent, Bool.not_eq_true', Bool.or_eq_false_iff] at hStop
      exact ⟨by simpa using hStop.1, by simpa using hStop.2⟩

/-! ## Option lists -/

/-- A text that the value of an option can be: not empty, and one that a token can stand for. -/
def IsOptionValue (value : String) : Prop :=
  value ≠ "" ∧ ScannedText value.toList

/-- The value of an entry is such a text. -/
lemma scanOption_value {keyword : String} {opened : Nat} {c next : Cursor}
    {entry : String × String} (h : scanOption keyword opened c = .ok (entry, next)) :
    IsOptionValue entry.2 := by
  simp only [scanOption] at h
  split at h
  · cases h
  split at h
  · cases h
  split at h
  · cases h
  rename_i value last hRest
  split at h
  · cases h
  rename_i hSome
  cases h
  refine ⟨by simpa using hSome, ?_⟩
  unfold scanOptionRest at hRest
  split at hRest
  · unfold scanOptionValue at hRest
    split at hRest
    · cases hRest
    split at hRest
    · cases hRest
    exact .of_scanContent hRest
  · split at hRest
    · cases hRest
      have hTrue : '\x60' ∉ "true".toList := by decide
      exact Or.inl (representable_of_not_mem hTrue)
    · cases hRest

lemma scanOptionEntries_values {keyword : String} {opened : Nat} {raw result : RawOptions}
    {c next : Cursor} (h : scanOptionEntries keyword opened raw c = .ok (result, next))
    (hRaw : ∀ pair ∈ raw, IsOptionValue pair.2) : ∀ pair ∈ result, IsOptionValue pair.2 := by
  fun_induction scanOptionEntries keyword opened raw c with
  | case1 => cases h
  | case2 =>
    cases h
    exact hRaw
  | case3 => cases h
  | case4 raw c d tail hRest hClosing key value last hOption ih =>
    refine ih h fun pair hPair => ?_
    obtain rfl | hOld := RawOptions.mem_insert hPair
    · exact scanOption_value hOption
    · exact hRaw pair hOld

lemma scanOptions_values {keyword : String} {c next : Cursor} {raw : RawOptions}
    (h : scanOptions keyword c = .ok (raw, next)) : ∀ pair ∈ raw, IsOptionValue pair.2 := by
  unfold scanOptions at h
  split at h
  · exact scanOptionEntries_values h (List.forall_mem_nil _)
  · cases h

/-! ## Arguments -/

/-- Something is true of every option list among arguments, those of commands inside included. -/
def Arguments.Every (p : RawOptions → Prop) : Arguments → Prop
  | .closed | .fault _ => True
  | .content _ rest | .reference _ rest => rest.Every p
  | .options raw rest => p raw ∧ rest.Every p
  | .command _ _ inner rest => inner.Every p ∧ rest.Every p

/-- Every option list among the arguments of a text has values of options. -/
lemma scanArguments_every (keyword : String) (start : Nat) (c : Cursor) :
    (scanArguments keyword start c).arguments.Every
      fun raw => ∀ pair ∈ raw, IsOptionValue pair.2 := by
  rw [scanArguments]
  fun_induction scanArgumentsFrom keyword start true c with
  | case1 => trivial
  | case2 => trivial
  | case3 => trivial
  -- Separators and parentheses, and behind them whatever follows.
  | case4 keyword start started c d tail hRest hLess hClass ih => exact ih
  | case5 keyword start started c d tail hRest hLess hClass ih => exact ih
  | case6 keyword start started c d tail hRest hLess hClass ih => exact ih
  -- Contents, option lists and references, and places where they cannot be scanned.
  | case7 => trivial
  | case8 keyword start started c d tail hRest hLess hClass text next hContent hNext ih =>
    exact ih
  | case9 => trivial
  | case10 => trivial
  | case11 keyword start started c d tail hRest hLess hClass opened hKeyword raw next hOptions hNext
      ih =>
    exact ⟨scanOptions_values hOptions, ih⟩
  | case12 => trivial
  | case13 keyword start started c d tail hRest hLess hClass opened hKeyword entries next hReference
      hNext ih =>
    exact ih
  -- Commands that are not closed, and commands that are.
  | case14 keyword start started c d tail hRest hLess hClass command opened hNotOptions
      hNotReference hKeyword hOpened inner error hInner ih =>
    rw [hInner] at ih
    exact ⟨ih, trivial⟩
  | case15 keyword start started c d tail hRest hLess hClass command opened hNotOptions
      hNotReference hKeyword hOpened inner next hLast hInner hNext ihInner ih =>
    rw [hInner] at ihInner
    exact ⟨ihInner, ih⟩

end PolicyText
