import PolicyText.Proofs.Build.Readers
import PolicyText.Proofs.Scan.Balanced
import PolicyText.Proofs.Scan.Occurrences

/-!
# Accepted texts are balanced

A text that a reader accepts is read part by part to its end, and no group is open there; the groups
that have been opened are those of its commands (`exists_readsParts_of_parse`).  There is no other
way to read it, so that a text in which a group is opened and can never be closed is not accepted.

If no wrapper stands in the text, its parentheses can be counted (`Balanced`).  Each closing one
closes a group, and so there are as many as commands.  Of the opening ones outside of contents and
options this is not true: those between the items of a group are passed over, and each reader
accepts texts that have some (`parse_balanced_surplus`).
-/

namespace PolicyText

/-- The commands of a text, in their order.  Option lists and references count as well. -/
def commands (text : String) : List Command :=
  match scanKeyword (.first text) with
  | .error _ => []
  | .ok (command, opened) =>
    command :: (scanArguments command.keyword (Cursor.first text).position
      (opened.advance 1)).arguments.commands

lemma commands_eq {text : String} {command : Command} {opened : Cursor}
    (h : scanKeyword (.first text) = .ok (command, opened)) :
    commands text = command :: (readArguments command.keyword (Cursor.first text).position
      (opened.advance 1)).1.commands := by
  rw [commands, h]
  rfl

/-- The parts of a text of which the parentheses are balanced. -/
structure Balanced (text : String) (parts : List TextPart) : Prop where
  /-- Behind leading fillers the text consists of the parts. -/
  complete : (Cursor.first text).rest = parts.flatMap TextPart.text
  /-- No group is open before the parts or behind them. -/
  reading : ∃ last, ReadsParts [] (.first text) parts [] last
  /-- Whatever else is read is a beginning of the parts. -/
  only : ∀ others stack place, ReadsParts [] (.first text) others stack place → others <+: parts
  opening : ∀ front back, text.toList = front ++ '(' :: back →
    ∃ inside, front = text.toList.takeWhile isFiller ++ inside ∧
      OpeningAmong [] (.first text) parts inside back
  count_opening : text.toList.count '(' =
    (parts.filterMap TextPart.command?).length + parts.countP TextPart.isSurplus +
      (parts.flatMap TextPart.item).count '('
  count_closing : text.toList.count ')' = (parts.filterMap TextPart.command?).length

variable {text : String} {parts : List TextPart} {last : Cursor}

lemma Cursor.takeWhile_append_first (text : String) :
    text.toList.takeWhile isFiller ++ (first text).rest = text.toList :=
  List.takeWhile_append_dropWhile

lemma count_first {d : Char} (hd : isFiller d = false) (text : String) :
    text.toList.count d = (Cursor.first text).rest.count d := by
  have hLead := not_mem_takeWhile_isFiller hd text.toList
  conv_lhs => rw [← Cursor.takeWhile_append_first text, List.count_append,
    List.count_eq_zero.2 hLead, Nat.zero_add]

/-- A text without wrappers that is read to its end with no group open is balanced. -/
lemma Balanced.of_readsParts (hPlain : IsPlain text.toList)
    (h : ReadsParts [] (.first text) parts [] last) (hEnd : last.rest = []) :
    Balanced text parts := by
  have hComplete : (Cursor.first text).rest = parts.flatMap TextPart.text := by
    rw [h.rest_eq, hEnd, List.append_nil]
  refine ⟨hComplete, ⟨last, h⟩, ?_, ?_, ?_, ?_⟩
  · intro others stack place hOthers
    obtain ⟨more, rfl, hMore⟩ | ⟨more, rfl, -⟩ := h.total hOthers
    · rw [(hMore.eq_of_rest_eq_nil hEnd).1, List.append_nil]
    · exact List.prefix_append _ _
  · intro front back hText
    rw [← Cursor.takeWhile_append_first text] at hText
    obtain ⟨inside, hFront, hInside⟩ | ⟨v, hLead, -⟩ := exists_of_append_eq hText
    · exact ⟨inside, hFront, h.openingAmong (hComplete ▸ hInside)⟩
    · have hMem : '(' ∈ text.toList.takeWhile isFiller := hLead ▸ by simp
      exact absurd hMem (not_mem_takeWhile_isFiller rfl text.toList)
  · rw [count_first rfl, hComplete, h.count_opening]
  · have hFirst : IsPlain (Cursor.first text).rest :=
      .of_append (Cursor.takeWhile_append_first text ▸ hPlain)
    rw [count_first rfl, hComplete, h.count_closing hFirst]
    simpa using h.length_stack.symm

lemma exists_readsParts_of_parse {category : Category} {limits : Limits} {x : category.Entity}
    (h : category.parse limits text = .ok x) :
    ∃ parts last, ReadsParts [] (.first text) parts [] last ∧ last.rest = [] ∧
      parts.filterMap TextPart.command? = commands text := by
  obtain ⟨-, last, hRead, hEnd⟩ := parseNode_eq_ok.1 (Category.parse_eq_ok.1 h)
  obtain ⟨command, opened, hKeyword, hAccepts, -, args, -, -, -, hLast⟩ :=
    readExpression_eq_ok.1 hRead
  obtain ⟨-, hReference, hOptions⟩ := Category.ne_of_accepts hAccepts
  obtain ⟨pad, hOpening⟩ := @ReadsPart.of_scanKeyword [] _ _ _ (by rintro _ ⟨⟩) hKeyword
  obtain ⟨parts, hParts, hOpened⟩ :=
    (readsArguments command.keyword _ (opened.advance 1)).readsParts hLast hOptions hReference
      opened.position []
  refine ⟨_, last, .step hOpening hParts, hEnd, ?_⟩
  rw [@commands_eq text _ _ hKeyword]
  exact congrArg (command :: ·) hOpened

/-- A text in which a group is opened and can never be closed is not accepted. -/
lemma parse_ne_ok_of_unclosed {category : Category} {limits : Limits} {group : OpenGroup}
    {outer : List OpenGroup} {place : Cursor}
    (hOpen : ReadsParts [] (.first text) parts (group :: outer) place)
    (hUnclosed : ∀ more last, ¬ ReadsParts (group :: outer) place more outer last)
    (x : category.Entity) : category.parse limits text ≠ .ok x := by
  intro h
  obtain ⟨all, last, hAll, hEnd, -⟩ := exists_readsParts_of_parse h
  obtain ⟨more, -, hMore⟩ | ⟨more, -, hMore⟩ := hOpen.total hAll
  · obtain ⟨front, closed, hClosed⟩ :=
      @ReadsParts.exists_closed _ _ _ [group] outer (List.cons_ne_nil _ _) hMore
    exact hUnclosed front closed hClosed
  · cases (hMore.eq_of_rest_eq_nil hEnd).2

/-- **What is accepted is balanced, up to surplus opening parentheses.**  Whatever the limits, a
text without wrappers that a reader of a category accepts consists of fillers and parts which can be
read in one way only.  Every opening parenthesis in it opens the group of a command, directly behind
the keyword and fillers, or it is passed over between the items of a group that is no option list,
or it belongs to a content or to an option.  Those that open groups are as many as the commands,
which follow one another in the same order, and as many as the closing parentheses.  A text in which
some group is opened and can never be closed is not accepted, with wrappers or without. -/
theorem parse_balanced (category : Category) (limits : Limits) (text : String) :
    (∀ x, category.parse limits text = .ok x → IsPlain text.toList →
        ∃ parts, Balanced text parts ∧
          parts.filterMap TextPart.command? = commands text) ∧
      ∀ group outer parts place, ReadsParts [] (.first text) parts (group :: outer) place →
        (∀ more last, ¬ ReadsParts (group :: outer) place more outer last) →
          ∀ x, category.parse limits text ≠ .ok x := by
  refine ⟨fun x h hPlain => ?_, fun group outer parts place => parse_ne_ok_of_unclosed⟩
  obtain ⟨parts, last, hRead, hEnd, hCommands⟩ := exists_readsParts_of_parse h
  exact ⟨parts, .of_readsParts hPlain hRead hEnd, hCommands⟩

/-- Surplus parentheses among arguments and entries, others in a content and in an option; a group
that is open at the end of a text. -/
theorem parse_balanced_texts :
    (∃ parts, Balanced "*all( ( #true(),#ref((a(b),#opts(desc=c(d))" parts ∧
        parts.filterMap TextPart.command?
          = [.composite .and, .constant .true, .reference, .options] ∧
        parts.countP TextPart.isSurplus + (parts.flatMap TextPart.item).count '(' = 4) ∧
      ∀ c, Category.condition.parse {} "*not(#true()" ≠ .ok c := by
  constructor
  · obtain ⟨c, hc⟩ := Except.exists_eq_ok (by decide +kernel :
      (Condition.parse {} "*all( ( #true(),#ref((a(b),#opts(desc=c(d))").isOk = true)
    obtain ⟨parts, hBalanced, hCommands⟩ :=
      (parse_balanced .condition {} "*all( ( #true(),#ref((a(b),#opts(desc=c(d))").1 c hc
        (by decide)
    have hFour : commands "*all( ( #true(),#ref((a(b),#opts(desc=c(d))"
        = [.composite .and, .constant .true, .reference, .options] := by decide +kernel
    have hEight : "*all( ( #true(),#ref((a(b),#opts(desc=c(d))".toList.count '(' = 8 := by decide
    have hCount := hBalanced.count_opening
    rw [hCommands, hFour, hEight] at hCount
    refine ⟨parts, hBalanced, hCommands.trans hFour, ?_⟩
    simp only [List.length_cons, List.length_nil] at hCount
    omega
  · have hNot : ReadsPart [] (.first "*not(#true()") (.opening (.composite .not) [])
        [⟨.composite .not, 4⟩] ⟨5, "#true()".toList⟩ :=
      .opening (by simp) (by simp) (by decide)
    have hTrue : ReadsPart [⟨.composite .not, 4⟩] ⟨5, "#true()".toList⟩
        (.opening (.constant .true) []) [⟨.constant .true, 10⟩, ⟨.composite .not, 4⟩]
        ⟨11, ")".toList⟩ :=
      .opening (by simp) (by simp) (by decide)
    refine (parse_balanced .condition {} "*not(#true()").2 _ _ _ _
      (.step hNot (.step hTrue (.single .closing))) fun more last hMore => ?_
    cases (hMore.eq_of_rest_eq_nil rfl).2

lemma Command.not_isSuffix_opening (command : Command) {pad front : List Char}
    (hPad : ∀ d ∈ pad, isFiller d = true) :
    ¬ command.keyword.toList ++ pad <:+ front ++ ['('] := by
  rintro ⟨before, hText⟩
  obtain ⟨-, -, hKeyword, -⟩ := command.keyword_spec
  obtain ⟨run, -, hRun⟩ | ⟨v, -, hNothing⟩ := exists_of_append_eq hText
  · have hMem : '(' ∈ command.keyword.toList ++ pad := hRun ▸ by simp
    exact (List.mem_append.1 hMem).elim hKeyword (not_mem_of_fillers rfl hPad)
  · obtain ⟨sigil, tail, hSigil, -⟩ := command.exists_sigil
    simp [hSigil] at hNothing

/-- A condition is read from a text in which the second of three opening parentheses, though it
stands in no content and in no option, follows no keyword and fillers: there are only two commands
and two closing parentheses. -/
theorem parse_balanced_surplus :
    (Condition.parse {} "*not((#true())").isOk = true ∧ IsPlain "*not((#true())".toList ∧
      ReadsParts [] (.first "*not((#true())")
        [.opening (.composite .not) [], .passed '(', .opening (.constant .true) [], .closing [],
          .closing []] [] ⟨14, []⟩ ∧
      "*not((#true())".toList = "*not(".toList ++ '(' :: "#true())".toList ∧
      (∀ (command : Command) (pad : List Char), (∀ d ∈ pad, isFiller d = true) →
        ¬ command.keyword.toList ++ pad <:+ "*not(".toList) ∧
      "*not((#true())".toList.count '(' = 3 ∧ (commands "*not((#true())").length = 2 ∧
      "*not((#true())".toList.count ')' = 2 := by
  have hNot : ReadsPart [] (.first "*not((#true())") (.opening (.composite .not) [])
      [⟨.composite .not, 4⟩] ⟨5, "(#true())".toList⟩ :=
    .opening (by simp) (by simp) (by decide)
  have hSurplus : ReadsPart [⟨.composite .not, 4⟩] ⟨5, "(#true())".toList⟩ (.passed '(')
      [⟨.composite .not, 4⟩] ⟨6, "#true())".toList⟩ :=
    .passed (Command.skips_of_class (by decide) (by decide))
  have hTrue : ReadsPart [⟨.composite .not, 4⟩] ⟨6, "#true())".toList⟩
      (.opening (.constant .true) []) [⟨.constant .true, 11⟩, ⟨.composite .not, 4⟩]
      ⟨12, "))".toList⟩ :=
    .opening (by simp) (by simp) (by decide)
  refine ⟨by decide +kernel, by decide, ?_, by decide, ?_, by decide, by decide +kernel,
    by decide⟩
  · exact .step hNot (.step hSurplus (.step hTrue (.step .closing (.single .closing))))
  · intro command pad hPad
    exact @Command.not_isSuffix_opening command pad "*not".toList hPad

end PolicyText
