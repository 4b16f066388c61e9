import PolicyText.Proofs.Options.Decoded
import PolicyText.Proofs.Print.Literal

/-!
# Text without a wrapper

The same text can stand without a wrapper in three places: as a content between the parentheses of a
command, as the identifier of a reference, and as the value of an option.  An option keeps the whole
of it.  In the other two places characters without a meaning of their own are passed over before an
argument begins, and those at the beginning of the text are passed over with them; what remains is
kept (`bare_text_kept`).  So `éa` is one text as a value and another as a content
(`bare_text_filler_lost`).

The obstruction is that one text is taken apart at two different places, as a gap and a token by the
readers of arguments and as a token alone by the reader of options.  `Tree.IsWritten` has room for
the gap, so that both readings are read off the same rules, and all that is to be shown of the text
is that it is still trimmed when its beginning is cut off (`IsBareLiteral.of_append`).
-/

namespace PolicyText

/-! ## The rest of a bare text -/

lemma Text.Trimmed.of_append {front back : List Char} (h : Trimmed (front ++ back))
    (hHead : ∀ c ∈ back.head?, isBlank c = false) : Trimmed back := by
  cases back with
  | nil => rfl
  | cons c rest =>
    have hFirst : isBlank c = false := hHead c rfl
    obtain ⟨init, d, hText, hLast⟩ := h.exists_last (by simp)
    by_cases hRest : rest = []
    · subst hRest
      exact trimmed_of_forall (List.forall_mem_singleton.2 hFirst)
    · -- The last character of the text is that of the rest.
      have hEnd : rest.getLast hRest = d := by
        have hLasts := congrArg List.getLast? hText
        rw [List.getLast?_append_of_ne_nil _ (List.cons_ne_nil c rest), List.getLast?_concat,
          List.getLast?_eq_getLast_of_ne_nil (List.cons_ne_nil c rest),
          List.getLast_cons hRest] at hLasts
        exact Option.some.inj hLasts
      rw [← List.dropLast_append_getLast hRest, hEnd]
      exact trimmed_of_ends _ hFirst hLast

lemma IsBareLiteral.of_append {gap kept : List Char} (h : IsBare (gap ++ kept))
    (hClass : kept.head?.map CharClass.of = some .content)
    (hHead : ∀ c ∈ kept.head?, c ≠ '\x60' ∧ c ≠ '\x22') : IsBareLiteral kept := by
  obtain ⟨c, hc, hContent⟩ := Option.map_eq_some_iff.1 hClass
  refine ⟨hClass, h.trimmed.of_append ?_, ?_, c, hc, hHead c hc⟩
  · intro d hd
    obtain rfl := Option.mem_unique hc hd
    rw [← Bool.not_eq_true]
    intro hBlank
    have hFiller := isFiller_iff.1 (isFiller_of_isBlank hBlank)
    rw [hContent] at hFiller
    cases hFiller
  · exact fun d hd => h.no_stop d (List.mem_append_right _ hd)

/-! ## The three places -/

lemma IsBareLiteral.isArgument {text : List Char} (h : IsBareLiteral text) :
    (Token.bare text).IsArgument text :=
  ⟨h.1, h.2, [], List.forall_mem_nil _, (List.append_nil _).symm⟩

lemma IsPadding.separatesArguments {gap : List Char} (h : IsPadding gap) :
    ∀ c ∈ gap, separatesArguments c = true := by
  intro c hc
  rw [PolicyText.separatesArguments, h c hc, Bool.or_true]

lemma Variable.parse_string_gap {text kept : String} {gap : List Char}
    (hText : text.toList = gap ++ kept.toList) (hGap : IsPadding gap)
    (hKept : IsBareLiteral kept.toList) :
    Variable.parse {} ("#str(" ++ text ++ ")") = .ok (.static { value := .string kept }) := by
  have hItems := Items.IsWritten.content hGap.separatesArguments hKept.isArgument .closing
  have hTree : ((Token.bare kept.toList).tree .string).IsWritten ("#str(" ++ text ++ ")").toList := by
    have hWritten := @Tree.IsWritten.intro [] [] _ [] ((Token.bare kept.toList).tree .string)
      (by decide) (by decide) hItems (by decide)
    have hKeyword : (Command.staticVariable .string).keyword.toList = "#str".toList := rfl
    simpa [Token.tree, Command.enclosing, hText, hKeyword] using hWritten
  have hRead := @parseNode_written _ .variable _ rfl rfl hTree
  rw [Token.node_tree, Token.text, String.ofList_toList] at hRead
  exact (@Category.parse_eq_ok .variable {} _ (.static { value := .string kept })).2 hRead

/-- The negation of a reference to a condition. -/
def negatedReference (id : List Char) : Tree :=
  ⟨.composite .not, .reference [.bare id] .nil⟩

/-- A reference is to what remains of the text behind the fillers at its beginning. -/
lemma Condition.parse_reference_gap {text kept : String} {gap : List Char}
    (hText : text.toList = gap ++ kept.toList) (hGap : IsPadding gap)
    (hKept : IsBareLiteral kept.toList) :
    Condition.parse {} ("*not(#ref(" ++ text ++ "))")
      = .ok (.composite {} .not [.ref { id := kept }] {}) := by
  have hEntries := @Listed.item _ separatesArguments _ _ _ _ _ _ hGap.separatesArguments
    hKept.isArgument .closing
  have hItems := @Items.IsWritten.reference [] [] _ [] _ _ .nil (by decide) (by decide) hEntries
    (Or.inl rfl) (by decide) .closing
  have hTree : (negatedReference kept.toList).IsWritten ("*not(#ref(" ++ text ++ "))").toList := by
    have hWritten := @Tree.IsWritten.intro [] [] _ [] (negatedReference kept.toList) (by decide)
      (by decide) hItems (by decide)
    have hNot : (Command.composite .not).keyword.toList = "*not".toList := rfl
    have hReference : Command.reference.keyword.toList = "#ref".toList := rfl
    simpa [negatedReference, Command.enclosing, hText, hNot, hReference] using hWritten
  have hRead := @parseNode_written _ .condition _ rfl rfl hTree
  have hNode : (negatedReference kept.toList).node
      = .ok (.condition (.composite {} .not [.ref { id := String.ofList kept.toList }] {})) := by
    rfl
  rw [hNode, String.ofList_toList] at hRead
  exact (@Category.parse_eq_ok .condition {} _ _).2 hRead

lemma Options.parse_listed {entries : List OptionEntry} {inner : List Char} {text : String}
    (hText : text.toList = Command.options.enclosing [] inner)
    (hEntries : Listed separatesOptions OptionEntry.IsWritten .front entries inner) :
    Options.parse {} text = Options.ofRaw (RawOptions.ofPairs (entries.map OptionEntry.pair)) := by
  have hStart : (Cursor.start text.toList).skipFiller = Cursor.start text.toList := by
    rw [hText]
    rfl
  have hKeyword := scanKeyword_written .options (inner ++ [')']) 0 (List.forall_mem_nil _)
  have hScan := scanOptions_written Command.options.keyword
    (0 + Command.options.keyword.toList.length + 0) [] hEntries
  rw [Options.parse, hStart, hText, Cursor.start, Command.enclosing]
  simp only [Limits.checkLength, hKeyword, Except.ok_bind, if_true, List.length_nil, hScan]
  rfl

lemma Options.parse_id {text : String} (hText : IsBare text.toList) :
    Options.parse {} ("#opts(id=" ++ text ++ ")") = .ok { id := some text } := by
  have hNonempty : text.toList ≠ [] := by
    obtain ⟨c, hc, -⟩ := hText.head
    rintro hNil
    rw [hNil] at hc
    cases hc
  have hEntry : OptionEntry.IsWritten ⟨['i', 'd'], some (.bare text.toList)⟩
      ("id=".toList ++ text.toList) :=
    @OptionEntry.IsWritten.value _ [] [] _ _ ⟨by decide, by decide, by decide⟩ nofun nofun
      ⟨hText, [], nofun, (List.append_nil _).symm⟩ hNonempty
  have hEntries := @Listed.item _ separatesOptions _ [] _ _ _ _ nofun hEntry .closing
  have hRaw : Options.ofRaw (RawOptions.ofPairs [("id", text)]) = .ok { id := some text } := rfl
  rw [Options.parse_listed (by simp [Command.enclosing, Command.keyword]) hEntries]
  simpa [OptionEntry.pair, Token.text] using hRaw

/-! ## What is kept of a text -/

/-- **A text without a wrapper is kept from its first character of content on.**  Let a text be
trimmed, without a comma and a closing parenthesis, and begin neither like a wrapper nor like a
command or a group.  As the value of an option it is kept as a whole.  If it does not begin with a
filler either, it is kept as a whole as a string and as the identifier of a reference, too.
Otherwise these are what remains of it behind the fillers at its beginning, if that begins with a
character of content and not like a wrapper. -/
theorem bare_text_kept (text : String) (hBare : IsBare text.toList)
    (hHead : ∀ c ∈ text.toList.head?, c ≠ '#' ∧ c ≠ '*' ∧ c ≠ '(') :
    Options.parse {} ("#opts(id=" ++ text ++ ")") = .ok { id := some text } ∧
    ((∀ c ∈ text.toList.head?, isFiller c = false) →
      Variable.parse {} ("#str(" ++ text ++ ")") = .ok (.static { value := .string text }) ∧
      Condition.parse {} ("*not(#ref(" ++ text ++ "))")
        = .ok (.composite {} .not [.ref { id := text }] {})) ∧
    (∀ (gap : List Char) (kept : String), text.toList = gap ++ kept.toList → IsPadding gap →
      kept.toList.head?.map CharClass.of = some .content →
      (∀ c ∈ kept.toList.head?, c ≠ '\x60' ∧ c ≠ '\x22') →
        Variable.parse {} ("#str(" ++ text ++ ")") = .ok (.static { value := .string kept }) ∧
        Condition.parse {} ("*not(#ref(" ++ text ++ "))")
          = .ok (.composite {} .not [.ref { id := kept }] {})) := by
  have hKept (gap : List Char) (kept : String) (hText : text.toList = gap ++ kept.toList)
      (hGap : IsPadding gap) (hClass : kept.toList.head?.map CharClass.of = some .content)
      (hWrapper : ∀ c ∈ kept.toList.head?, c ≠ '\x60' ∧ c ≠ '\x22') :
      Variable.parse {} ("#str(" ++ text ++ ")") = .ok (.static { value := .string kept }) ∧
        Condition.parse {} ("*not(#ref(" ++ text ++ "))")
          = .ok (.composite {} .not [.ref { id := kept }] {}) := by
    have hLiteral : IsBareLiteral kept.toList := .of_append (hText ▸ hBare) hClass hWrapper
    exact ⟨Variable.parse_string_gap hText hGap hLiteral,
      Condition.parse_reference_gap hText hGap hLiteral⟩
  refine ⟨Options.parse_id hBare, ?_, hKept⟩
  intro hFiller
  obtain ⟨c, hc, hWrapper⟩ := hBare.head
  obtain ⟨hHash, hStar, hOpening⟩ := hHead c hc
  obtain ⟨hComma, hClosing⟩ := hBare.no_stop c (List.mem_of_mem_head? hc)
  have hClass : CharClass.of c = .content := by
    have hNotFiller : ¬ CharClass.of c = .filler := by
      rw [← isFiller_iff, hFiller c hc]
      exact Bool.false_ne_true
    simp only [CharClass.of, hHash, hStar, hOpening, hComma, hClosing, or_self, if_false]
      at hNotFiller ⊢
    split at hNotFiller
    · rw [if_pos ‹_›]
    · exact absurd rfl hNotFiller
  refine hKept [] text rfl (by decide) ?_ ?_
  · rw [Option.mem_def.1 hc, Option.map_some, hClass]
  · intro d hd
    rwa [Option.mem_unique hd hc]

/-- A text keeps an accent behind its first letter wherever it stands; one before it is kept as the
value of an option, and lost otherwise. -/
theorem bare_text_kept_accent :
    (Variable.parse {} "#str(aé)" = .ok (.static { value := .string "aé" }) ∧
      Condition.parse {} "*not(#ref(aé))"
        = .ok (.composite {} .not [.ref { id := "aé" }] {})) ∧
    Options.parse {} "#opts(id=éa)" = .ok { id := some "éa" } ∧
    Variable.parse {} "#str(éa)" = .ok (.static { value := .string "a" }) ∧
    Condition.parse {} "*not(#ref(éa))" = .ok (.composite {} .not [.ref { id := "a" }] {}) := by
  obtain ⟨-, hBehind, -⟩ := bare_text_kept "aé"
    ⟨by decide, by decide, 'a', rfl, by decide, by decide⟩ (by simp)
  obtain ⟨hOption, -, hBefore⟩ := bare_text_kept "éa"
    ⟨by decide, by decide, 'é', rfl, by decide, by decide⟩ (by simp)
  refine ⟨hBehind ?_, hOption, hBefore ['é'] "a" rfl (by decide) rfl (by simp)⟩
  rintro _ ⟨⟩
  rfl

/-- A character is lost from the beginning of a text that needs no wrapper as the value of an
option. -/
theorem bare_text_filler_lost :
    IsBare "éa".toList ∧ (∀ c ∈ "éa".toList.head?, c ≠ '#' ∧ c ≠ '*' ∧ c ≠ '(') ∧
      Variable.parse {} "#str(éa)" = .ok (.static { value := .string "a" }) ∧
      Variable.parse {} "#str(éa)" ≠ .ok (.static { value := .string "éa" }) := by
  have hLiteral : IsBareLiteral "a".toList :=
    ⟨rfl, by decide, by decide, 'a', rfl, by decide, by decide⟩
  have hParse : Variable.parse {} "#str(éa)" = .ok (.static { value := .string "a" }) :=
    @Variable.parse_string_gap "éa" "a" ['é'] rfl (by decide) hLiteral
  refine ⟨⟨by decide, by decide, 'é', rfl, by decide, by decide⟩, by simp, hParse, ?_⟩
  rw [hParse]
  simp

end PolicyText
