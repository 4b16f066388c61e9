import PolicyText.Proofs.Indexed.Arguments

/-!
# Progress within the text

Whole texts are read by indices as they are from cursors (`parseNodeAt_eq`, `parseOptionsAt_eq`).
As a reader by indices ends in a fault wherever an access leaves the text, a number falls below zero
or a loop does not get ahead, none of this ever happens.

`scanners_progress` puts this together with how far each scanner goes.  The measure of all loops is
the number of characters behind the index, and it goes down because each of them looks at the
character first: content is only scanned at a character that is no stop, and everything else that is
scanned begins with a parenthesis or a sigil.
-/

namespace PolicyText

/-! ## Whole texts -/

section Definitions

variable (limits : Limits) (text : List Char)

/-- Refuses a text that goes on at an index. -/
def expectEndAt (i : Nat) : Checked Unit :=
  if i < text.length then throw (.trailingInput i) else pure ()

/-- Reads an expression of a category.  The depth is zero around it. -/
def parseNodeAt (category : Category) : Checked Node := do
  Checked.of (limits.checkLength text)
  let start ← skipWhileAt text isFiller 0
  let (command, opened) ← scanKeywordAt text start
  if category.accepts command.kind then do
    let (args, last, _) ← readArgumentsAt limits text command start opened 0
    let node ← Checked.of (command.build args)
    expectEndAt text last
    pure node
  else throw (.unexpectedRoot category.description command.keyword command.kind)

/-- Reads an option list that stands alone. -/
def parseOptionsAt : Checked Options := do
  Checked.of (limits.checkLength text)
  let start ← skipWhileAt text isFiller 0
  let (command, opened) ← scanKeywordAt text start
  if command = .options then do
    let (raw, last) ← scanOptionsAt text command.keyword opened
    expectEndAt text last
    Checked.of (Options.ofRaw raw)
  else throw (.unexpectedRoot "options" command.keyword command.kind)

end Definitions

lemma expectEndAt_eq (text : List Char) (i : Nat) :
    expectEndAt text i = .of (Cursor.ofIndex text i).expectEnd := by
  rw [expectEndAt, Cursor.expectEnd, Cursor.rest_ofIndex]
  by_cases hLess : i < text.length
  · rw [if_pos hLess, if_neg (mt isEmpty_drop_iff.1 (Nat.not_le_of_lt hLess))]
    rfl
  · rw [if_neg hLess, if_pos (isEmpty_drop_iff.2 (Nat.le_of_not_lt hLess))]
    rfl

/-- An expression is what is read from the beginning of the text. -/
lemma parseNodeAt_eq (limits : Limits) (text : List Char) (category : Category) :
    parseNodeAt limits text category = .of (parseNode limits category text) := by
  obtain ⟨start, hSkip, hStart⟩ := exists_skipWhileAt text isFiller 0
  have hFirst : (Cursor.start text).skipFiller = .ofIndex text start := hStart
  rw [parseNodeAt, parseNode_eq, hFirst, hSkip]
  refine Checked.of_bind fun _ => ?_
  rw [Checked.of_ok_bind, readExpression, bind_assoc]
  refine scanKeywordAt_bind fun command j hOpening => ?_
  dsimp only
  split
  · rw [(loopAgrees limits text (j + 1)).readArgumentsAt_eq hOpening, readCommand_eq_gather,
      Cursor.position_ofIndex]
    cases hArgs : gatherArguments limits 1 command start (.ofIndex text j) with
    | error e => rfl
    | ok found =>
      obtain ⟨args, last⟩ := found
      obtain ⟨hLeads, hLess, -⟩ := ahead_of_gatherArguments hArgs
      obtain ⟨k, rfl, -⟩ := hLeads.exists_ofIndex hLess
      rw [Except.ok_bind]
      dsimp only [Except.map, Cursor.position_ofIndex]
      rw [Checked.of_ok_bind, bind_assoc]
      refine Checked.of_bind fun node => ?_
      rw [expectEndAt_eq, Except.ok_bind]
      exact Checked.of_bind fun _ => rfl
  · rfl

/-- An option list is what is read from the beginning of the text. -/
lemma parseOptionsAt_eq (limits : Limits) (text : String) :
    parseOptionsAt limits text.toList = .of (Options.parse limits text) := by
  obtain ⟨start, hSkip, hStart⟩ := exists_skipWhileAt text.toList isFiller 0
  have hFirst : (Cursor.start text.toList).skipFiller = .ofIndex text.toList start := hStart
  rw [parseOptionsAt, Options.parse, hSkip]
  refine Checked.of_bind fun _ => ?_
  rw [Checked.of_ok_bind, hFirst]
  refine scanKeywordAt_bind fun command j _ => ?_
  dsimp only
  split
  · rw [scanOptionsAt_eq]
    cases hOptions : scanOptions command.keyword (.ofIndex text.toList j) with
    | error e => rfl
    | ok found =>
      obtain ⟨raw, last⟩ := found
      obtain ⟨k, rfl, -⟩ := (leads_of_scanOptions hOptions).exists_ofIndex
        (length_of_scanOptions hOptions)
      rw [of_atIndex_ok_bind, Except.ok_bind]
      dsimp only [Cursor.position_ofIndex]
      rw [expectEndAt_eq]
      exact Checked.of_bind fun _ => rfl
  · rfl

/-! ## Progress -/

/-- A place of a text that lies behind an index, at the end of the text at the latest. -/
def Cursor.IsBehind (text : List Char) (i : Nat) (c : Cursor) : Prop :=
  c = .ofIndex text c.position ∧ i < c.position ∧ c.position ≤ text.length

lemma Cursor.Leads.isBehind {text : List Char} {i : Nat} {c : Cursor}
    (h : (Cursor.ofIndex text i).Leads c)
    (hLess : c.rest.length < (Cursor.ofIndex text i).rest.length) : c.IsBehind text i := by
  obtain ⟨j, rfl, hProgress⟩ := h.exists_ofIndex hLess
  exact ⟨rfl, hProgress⟩

section Progress

variable {limits : Limits} {text : List Char} {i : Nat}

lemma isBehind_of_scanContent {stop d : Char} {content : String} {next : Cursor}
    (hChar : text[i]? = some d) (hd : endsContent stop d = false)
    (h : scanContent stop (.ofIndex text i) = .ok (content, next)) : next.IsBehind text i :=
  (leads_of_scanContent h).isBehind
    (length_of_scanContent (congrArg Cursor.rest (Cursor.ofIndex_of_some hChar)) hd h)

lemma progress_of_readChildAt {parent : Command} {state next : LoopState}
    (h : readChildAt limits text parent state = .of (.ok next)) :
    state.position < next.position ∧ next.position ≤ text.length ∧ next.depth = state.depth := by
  rw [LoopAgrees.readChildAt_eq fun j _ => loopAgrees limits text j, Checked.of_inj] at h
  obtain ⟨⟨piece, last⟩, hChild, rfl⟩ := Except.map_eq_ok.1 h
  obtain ⟨hLeads, hLess⟩ := ahead_of_gatherChild hChild
  obtain ⟨-, hAhead, hEnd⟩ := hLeads.isBehind hLess
  exact ⟨hAhead, hEnd, rfl⟩

/-- The arguments of a command end behind its parenthesis, at the end of the text or at a character
that is no filler, and the depth is what it was. -/
lemma progress_of_readArgumentsAt {command : Command} {start opened depth last left : Nat}
    {args : Collected} (hOpening : text[opened]? = some '(')
    (h : readArgumentsAt limits text command start opened depth = .of (.ok (args, last, left))) :
    opened < last ∧ last ≤ text.length ∧
      (last = text.length ∨ ∃ d, text[last]? = some d ∧ isFiller d = false) ∧ left = depth := by
  rw [(loopAgrees limits text (opened + 1)).readArgumentsAt_eq hOpening, Checked.of_inj] at h
  obtain ⟨⟨found, place⟩, hArgs, hEq⟩ := Except.map_eq_ok.1 h
  cases hEq
  obtain ⟨hLeads, hLess, hSettled⟩ := ahead_of_gatherArguments hArgs
  obtain ⟨hPlace, hAhead, hEnd⟩ := hLeads.isBehind hLess
  refine ⟨hAhead, hEnd, ?_, rfl⟩
  rw [hPlace, Cursor.Settled, Cursor.head?_rest_ofIndex] at hSettled
  obtain hLast | hLast := Nat.lt_or_eq_of_le hEnd
  · exact Or.inr ⟨_, List.getElem?_eq_getElem hLast,
      hSettled _ (List.getElem?_eq_getElem hLast)⟩
  · exact Or.inl hLast

end Progress

/-- **Every scanner makes progress and stays in bounds.**  Take any text, any index, whether there
is a character or not, and any limits.

* An option list or a reference that is scanned ends behind the index, at the end of the text at the
  latest.  So does content, if its first character has the class of content and the stop is a comma,
  or if that character is neither the stop nor a closing parenthesis.
* A child that is read ends behind the index, and leaves the depth as it was.
* The arguments of a command end behind its opening parenthesis, at the end of the text or at a
  character that is no filler, and the depth is that with which they were begun.
* All of them, and the readers of whole texts, do by indices what they do from cursors, without a
  fault: every iteration of a loop gets ahead within the text, every index and every part of the
  text that is looked at exists, and nothing is taken from a smaller number. -/
theorem scanners_progress (limits : Limits) (text : List Char) :
    (∀ (keyword : String) (i : Nat),
      scanOptionsAt text keyword i = .of (atIndex (scanOptions keyword (.ofIndex text i))) ∧
        ∀ raw next, scanOptions keyword (.ofIndex text i) = .ok (raw, next) →
          next.IsBehind text i) ∧
    (∀ (keyword : String) (i : Nat),
      scanReferenceAt text keyword i = .of (atIndex (scanReference keyword (.ofIndex text i))) ∧
        ∀ entries next, scanReference keyword (.ofIndex text i) = .ok (entries, next) →
          next.IsBehind text i) ∧
    (∀ (stop : Char) (i : Nat),
      scanContentAt text stop i = .of (atIndex (scanContent stop (.ofIndex text i))) ∧
        ∀ d content next, text[i]? = some d →
          CharClass.of d = .content ∧ stop = ',' ∨ d ≠ stop ∧ d ≠ ')' →
          scanContent stop (.ofIndex text i) = .ok (content, next) → next.IsBehind text i) ∧
    (∀ i : Nat, scanKeywordAt text i = .of (atIndex (scanKeyword (.ofIndex text i)))) ∧
    (∀ (parent : Command) (state : LoopState),
      readChildAt limits text parent state
          = .of ((gatherChild limits state.depth parent (.ofIndex text state.position)).map
              fun found =>
                { state with args := found.1.push state.args, position := found.2.position }) ∧
        ∀ next, readChildAt limits text parent state = .of (.ok next) →
          state.position < next.position ∧ next.position ≤ text.length ∧
            next.depth = state.depth) ∧
    (∀ (command : Command) (start opened depth : Nat), text[opened]? = some '(' →
      readArgumentsAt limits text command start opened depth
          = .of ((gatherArguments limits (depth + 1) command start (.ofIndex text opened)).map
              fun found => (found.1, found.2.position, depth)) ∧
        ∀ args last left,
          readArgumentsAt limits text command start opened depth = .of (.ok (args, last, left)) →
          opened < last ∧ last ≤ text.length ∧
            (last = text.length ∨ ∃ d, text[last]? = some d ∧ isFiller d = false) ∧
            left = depth) ∧
    (∀ category : Category,
      parseNodeAt limits text category = .of (parseNode limits category text)) ∧
    parseOptionsAt limits text = .of (Options.parse limits (String.ofList text)) := by
  refine ⟨fun keyword i => ⟨scanOptionsAt_eq text keyword i, fun raw next h => ?_⟩,
    fun keyword i => ⟨scanReferenceAt_eq text keyword i, fun entries next h => ?_⟩,
    fun stop i => ⟨scanContentAt_eq stop text i, fun d content next hChar hd h => ?_⟩,
    scanKeywordAt_eq text,
    fun parent state => ⟨LoopAgrees.readChildAt_eq (fun j _ => loopAgrees limits text j) parent,
      fun next => progress_of_readChildAt⟩,
    fun command start opened depth hOpening =>
      ⟨(loopAgrees limits text (opened + 1)).readArgumentsAt_eq hOpening command start depth,
        fun args last left => progress_of_readArgumentsAt hOpening⟩,
    parseNodeAt_eq limits text, ?_⟩
  · exact (leads_of_scanOptions h).isBehind (length_of_scanOptions h)
  · exact (leads_of_scanReference h).isBehind (length_of_scanReference h)
  · refine isBehind_of_scanContent hChar ?_ h
    obtain ⟨hClass, rfl⟩ | ⟨hStop, hClosing⟩ := hd
    · exact endsContent_of_content hClass
    · simp [endsContent, hStop, hClosing]
  · rw [← parseOptionsAt_eq, String.toList_ofList]

/-- A negation with a reference and options. -/
def sampleNegation : List Char :=
  "*not(#ref(a), #opts(optimize))".toList

/-- In the negation the options, the reference, its content, the first argument and the arguments of
the negation itself are scanned, and each of them ends further on. -/
theorem scanners_progress_negation :
    (∃ raw next, scanOptions "#opts" (.ofIndex sampleNegation 19) = .ok (raw, next) ∧
      next.IsBehind sampleNegation 19) ∧
    (∃ entries next, scanReference "#ref" (.ofIndex sampleNegation 9) = .ok (entries, next) ∧
      next.IsBehind sampleNegation 9) ∧
    (∃ content next, scanContent ',' (.ofIndex sampleNegation 10) = .ok (content, next) ∧
      next.IsBehind sampleNegation 10) ∧
    (∃ next, readChildAt {} sampleNegation (.composite .not) { position := 5, depth := 1 }
        = .of (.ok next) ∧ 5 < next.position ∧ next.position ≤ 30 ∧ next.depth = 1) ∧
    ∃ args last left, readArgumentsAt {} sampleNegation (.composite .not) 0 4 0
        = .of (.ok (args, last, left)) ∧ 4 < last ∧ last ≤ 30 ∧ left = 0 := by
  obtain ⟨hOptions, hReference, hContent, -, hChild, hArguments, -⟩ :=
    scanners_progress {} sampleNegation
  obtain ⟨⟨raw, afterOptions⟩, hRaw⟩ := Except.exists_eq_ok (by decide +kernel :
    (scanOptions "#opts" (.ofIndex sampleNegation 19)).isOk = true)
  obtain ⟨⟨entries, afterReference⟩, hEntries⟩ := Except.exists_eq_ok (by decide +kernel :
    (scanReference "#ref" (.ofIndex sampleNegation 9)).isOk = true)
  obtain ⟨⟨content, afterContent⟩, hText⟩ := Except.exists_eq_ok (by decide +kernel :
    (scanContent ',' (.ofIndex sampleNegation 10)).isOk = true)
  obtain ⟨⟨piece, afterChild⟩, hPiece⟩ := Except.exists_eq_ok (by decide +kernel :
    (gatherChild {} 1 (.composite .not) (.ofIndex sampleNegation 5)).isOk = true)
  obtain ⟨⟨args, last⟩, hArgs⟩ := Except.exists_eq_ok (by decide +kernel :
    (gatherArguments {} 1 (.composite .not) 0 (.ofIndex sampleNegation 4)).isOk = true)
  obtain ⟨hChildRun, hChildAhead⟩ := hChild (.composite .not) { position := 5, depth := 1 }
  obtain ⟨hArgsRun, hArgsAhead⟩ := hArguments (.composite .not) 0 4 0 (by decide)
  rw [hPiece] at hChildRun
  rw [hArgs] at hArgsRun
  obtain ⟨hAhead, hEnd, -, hDepth⟩ := hArgsAhead _ _ _ hArgsRun
  exact ⟨⟨raw, afterOptions, hRaw, (hOptions "#opts" 19).2 raw afterOptions hRaw⟩,
    ⟨entries, afterReference, hEntries, (hReference "#ref" 9).2 entries afterReference hEntries⟩,
    ⟨content, afterContent, hText, (hContent ',' 10).2 'a' content afterContent (by decide)
      (Or.inl ⟨by decide, rfl⟩) hText⟩,
    ⟨_, hChildRun, hChildAhead _ hChildRun⟩, args, last.position, 0, hArgsRun, hAhead, hEnd,
    hDepth⟩

end PolicyText
