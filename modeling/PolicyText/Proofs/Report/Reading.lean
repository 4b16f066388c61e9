import PolicyText.Proofs.Build.OnePass
import PolicyText.Report.Reading

/-!
# Reports change nothing

What a reader that reports gives is what the reader without a report gives, errors included.  It
goes over the text once, so it is compared with the reading of arguments in one pass
(`gatherFrom`): argument by argument both do the same (`reportedArguments_eq`), and so do the
readers of whole texts (`result_report`, `result_reportOptions`).

Of what is told, this file says how it ends and what is said of options: behind everything else
stands the object that has been read (`endsWith_reportNode`), and of an option list just the keys
without a meaning are told (`Options.events_reportRaw`).  The events on the way are those of the
definitions.
-/

namespace PolicyText

variable {limits : Limits} {depth : Nat}

/-! ## Arguments -/

/-- Arguments and the place behind them, without the evidence that this place lies further on. -/
def GatheredArguments.plain {c : Cursor} (found : GatheredArguments c) : Collected × Cursor :=
  (found.1, found.2.1)

/-- What a reader that reports gives for arguments. -/
def reportedArguments (limits : Limits) (depth : Nat) (command : Command) (start : Nat)
    (c : Cursor) : Except ParseError (Collected × Cursor) :=
  (reportArguments limits depth command start c).result.map GatheredArguments.plain

section Loop

variable {command : Command} {start : Nat}

lemma reported_widen {c d : Cursor} (add : Collected → Collected)
    (h : d.rest.length < c.rest.length) :
    ((reportArguments limits depth command start d).result >>= fun found =>
        (pure (found.widen add h) : Reported (GatheredArguments c)).result.map
          GatheredArguments.plain)
      = (reportedArguments limits depth command start d).map (Prod.map add id) := by
  rw [reportedArguments]
  cases (reportArguments limits depth command start d).result <;> rfl

lemma reportedArguments_nil (position : Nat) :
    reportedArguments limits depth command start ⟨position, []⟩
      = .error (.notCompleted command.keyword start) := by
  rw [reportedArguments, reportArguments]
  rfl

/-- The reader looks at one character and goes on behind it, or behind the argument that it
begins. -/
lemma reportedArguments_cons (position : Nat) (d : Char) (tail : List Char) :
    reportedArguments limits depth command start ⟨position, d :: tail⟩ =
      match CharClass.of d with
      | .closing => .ok ({}, Cursor.skipFiller ⟨position + 1, tail⟩)
      | .delimiter | .filler | .opening =>
        reportedArguments limits depth command start ⟨position + 1, tail⟩
      | .content => do
        let (text, next) ← scanContent ',' ⟨position, d :: tail⟩
        (reportedArguments limits depth command start next).map
          (Prod.map (Collected.consContent text) id)
      | .sigil => (do
        let (child, opened) ← scanKeyword ⟨position, d :: tail⟩
        match child with
        | .options => do
          let (raw, next) ← scanOptions Command.options.keyword opened
          let options ← Options.ofRaw raw
          (reportedArguments limits depth command start next).map
            (Prod.map (Collected.consOptions options) id)
        | .reference => do
          let (entries, next) ← scanReference Command.reference.keyword opened
          let reference ← command.resolveReference entries
          (reportedArguments limits depth command start next).map
            (Prod.map (Collected.consChild (.reference reference)) id)
        | child =>
          if command.admits child then do
            limits.enter (depth + 1) position
            let (inner, next) ←
              reportedArguments limits (depth + 1) child position (opened.advance 1)
            child.checkCount inner
            let add ← child.attach inner
            (reportedArguments limits depth command start next).map (Prod.map add id)
          else .error (command.unexpectedChild child position)) := by
  rw [reportedArguments, reportArguments]
  split
  · rename_i hRest
    cases hRest
  rename_i hRest
  cases hRest
  split <;> rename_i hClass <;> simp only [hClass]
  · rfl
  iterate 3
    · rw [Reported.result_bind, Except.bind_map, reported_widen, Prod.map_id, Except.map_id]
      rfl
  · split <;> rename_i hContent <;> simp only [hContent]
    · rfl
    · rw [Reported.result_bind, Except.bind_map, reported_widen]
      rfl
  · split <;> rename_i hKeyword <;> simp only [hKeyword, Except.ok_bind, Reported.result_behind]
    · rfl
    · split <;> rename_i hOptions <;> simp only [hOptions]
      · rfl
      · simp only [Reported.result_bind, Except.bind_map, reported_widen]
        rfl
    · split <;> rename_i hReference <;> simp only [hReference]
      · rfl
      · simp only [Reported.result_bind, Except.bind_map, reported_widen]
        rfl
    · split
      · rw [if_pos (by assumption), reportedArguments]
        simp only [Reported.result_bind, Reported.result_behind, Reported.result_of,
          Except.bind_map, Except.map_bind, reported_widen]
        rfl
      · rw [if_neg (by assumption)]
        rfl

end Loop

/-- What begins with a sigil is read alike if what lies further on is. -/
lemma reportedArguments_sigil {position : Nat} {d : Char} {tail : List Char}
    (hClass : CharClass.of d = .sigil)
    (hBehind : ∀ {depth : Nat} (command : Command) (start : Nat) {next : Cursor},
      next.rest.length < (d :: tail).length →
      reportedArguments limits depth command start next
        = gatherFrom limits depth command start next) (command : Command) (start : Nat) :
    reportedArguments limits depth command start ⟨position, d :: tail⟩
      = gatherFrom limits depth command start ⟨position, d :: tail⟩ := by
  rw [reportedArguments_cons]
  simp only [hClass]
  cases hKeyword : scanKeyword ⟨position, d :: tail⟩ with
  | error e =>
    rw [gatherFrom_sigil hClass, gatherChild, hKeyword]
    rfl
  | ok found =>
  obtain ⟨child, opened⟩ := found
  have hOpened := (length_of_scanKeyword hKeyword).1
  rw [Except.ok_bind]
  dsimp only
  split
  · rw [gatherFrom_sigil hClass, gatherChild, hKeyword, Except.ok_bind]
    dsimp only
    cases hOptions : scanOptions Command.options.keyword opened with
    | error e => rfl
    | ok found =>
      have hLess := Nat.lt_trans (length_of_scanOptions hOptions) hOpened
      simp only [Except.ok_bind, bind_assoc, hBehind command start hLess]
      rfl
  · rw [gatherFrom_sigil hClass, gatherChild, hKeyword, Except.ok_bind]
    dsimp only
    cases hReference : scanReference Command.reference.keyword opened with
    | error e => rfl
    | ok found =>
      have hLess := Nat.lt_trans (length_of_scanReference hReference) hOpened
      simp only [Except.ok_bind, bind_assoc, hBehind command start hLess]
      rfl
  · rename_i hOptions hReference
    rw [gatherFrom_command hClass hOptions hReference hKeyword]
    have hInside := Nat.lt_of_le_of_lt (Cursor.length_rest_advance_le 1 opened) hOpened
    split
    · rw [gatherArguments, hBehind child position hInside]
      simp only [bind_assoc]
      congr 1
      funext _
      cases hInner : gatherFrom limits (depth + 1) child position (opened.advance 1) with
      | error e => rfl
      | ok found =>
        have hLess := Nat.lt_trans (ahead_of_gatherFrom hInner).2.1 hInside
        simp only [Except.ok_bind, hBehind command start hLess, Command.attach_eq_map,
          Except.map_bind]
        rfl
    · rfl

/-- Arguments are read alike with a report and without it. -/
lemma reportedArguments_eq (command : Command) (start : Nat) (c : Cursor) :
    reportedArguments limits depth command start c = gatherFrom limits depth command start c := by
  -- The induction is on what is left of the text, since a command may stand at any depth.
  induction hLength : c.rest.length using Nat.strong_induction_on
    generalizing depth command start c with
  | _ length ih =>
  obtain ⟨position, rest⟩ := c
  cases rest with
  | nil => rw [reportedArguments_nil, gatherFrom_nil]
  | cons d tail =>
  have hBehind {depth : Nat} (command : Command) (start : Nat) {next : Cursor}
      (hLess : next.rest.length < (d :: tail).length) :
      reportedArguments limits depth command start next
        = gatherFrom limits depth command start next :=
    ih _ (hLength ▸ hLess) command start next rfl
  cases hClass : CharClass.of d with
  | closing => rw [reportedArguments_cons, gatherFrom_closing hClass, hClass]
  | opening | delimiter | filler =>
    rw [reportedArguments_cons, gatherFrom_passed (by simp [hClass]), hClass]
    exact hBehind command start (Nat.lt_succ_self _)
  | content =>
    rw [reportedArguments_cons, gatherFrom_content hClass, hClass]
    dsimp only
    cases hContent : scanContent ',' ⟨position, d :: tail⟩ with
    | error e => rfl
    | ok found =>
      have hLess := length_of_scanContent rfl (endsContent_of_content hClass) hContent
      simp only [Except.ok_bind, hBehind command start hLess]
      rfl
  | sigil => exact reportedArguments_sigil hClass hBehind command start

/-! ## Whole texts -/

lemma result_reportNode (category : Category) (text : List Char) :
    (category.reportNode limits text).result = parseNode limits category text := by
  rw [parseNode_eq, Category.reportNode]
  simp only [Reported.result_bind, Reported.result_of]
  congr 1
  funext _
  rw [readExpression, bind_assoc]
  congr 1
  funext found
  obtain ⟨command, opened⟩ := found
  dsimp only
  rw [Reported.result_behind]
  split
  · rw [readCommand_eq_gather, gatherArguments, ← reportedArguments_eq]
    simp only [Reported.result_bind, Reported.result_of, Reported.result_behind, bind_assoc,
      reportedArguments, Except.map_bind]
    rfl
  · rfl

lemma result_reportOptions (text : String) :
    (Options.report limits text.toList).result = Options.parse limits text := by
  rw [Options.parse, Options.report]
  simp only [Reported.result_bind, Reported.result_of]
  congr 1
  funext _
  congr 1
  funext found
  obtain ⟨command, opened⟩ := found
  dsimp only
  rw [Reported.result_behind]
  split
  · simp only [Reported.result_bind, Reported.result_of, Reported.result_behind,
      Reported.result_pure]
    congr 1
    funext found
    obtain ⟨raw, last⟩ := found
    congr 1
    funext _
    exact bind_pure (Options.ofRaw raw)
  · rfl

/-- **Whatever is told on the way, the result is that of the reader.** -/
theorem result_report (category : Category) (text : String) :
    (category.report limits text).result = (do
      let node ← parseNode limits category text.toList
      match category.document? node with
      | some document => .ok document
      | none => .error (category.mismatch node)) := by
  rw [Category.report, Reported.result_bind, result_reportNode]
  congr 1
  funext node
  cases category.document? node <;> rfl

/-! ## What is told -/

namespace Reported

variable {α β : Type} {told : β → Event}

/-- If there is a result, the last thing told is about it. -/
def EndsWith (reported : Reported β) (told : β → Event) : Prop :=
  ∀ b, reported.result = .ok b → reported.events.getLast? = some (told b)

lemma EndsWith.bind {first : Reported α} {next : α → Reported β}
    (h : ∀ a, (next a).EndsWith told) : (first >>= next).EndsWith told := by
  intro b hResult
  rw [result_bind] at hResult
  obtain ⟨a, hFirst, hNext⟩ := Except.bind_eq_ok.1 hResult
  have hEvents : (first >>= next).events = first.events ++ (next a).events := by
    show (first.bind next).events = _
    simp only [Reported.bind, hFirst]
  rw [hEvents, List.getLast?_append, h a b hNext, Option.some_or]

lemma EndsWith.behind {reported : Reported β} (h : reported.EndsWith told) (event : Event) :
    (reported.behind event).EndsWith told := by
  intro b hResult
  rw [Reported.behind, List.getLast?_cons, h b hResult]
  rfl

lemma endsWith_pure (told : β → Event) (b : β) :
    ((pure b : Reported β).behind (told b)).EndsWith told := by
  rintro b ⟨⟩
  rfl

lemma endsWith_error (e : ParseError) : (of (.error e) : Reported β).EndsWith told := by
  rintro b ⟨⟩

end Reported

open Reported in
/-- Of an expression that is read the last thing told is its object. -/
theorem endsWith_reportNode (limits : Limits) (category : Category) (text : List Char) :
    (category.reportNode limits text).EndsWith fun node =>
      .readExpression category node.description text.length := by
  refine .bind fun _ => .bind fun found => .behind ?_ _
  obtain ⟨command, opened⟩ := found
  split
  · refine .bind fun _ => .bind fun read => .bind fun _ => .bind fun node => .bind fun _ => ?_
    exact endsWith_pure (fun node : Node => .readExpression category node.description _) node
  · exact endsWith_error _

open Reported in
/-- Of options that are read the last thing told is that they have been read. -/
theorem endsWith_reportOptions (limits : Limits) (text : List Char) :
    (Options.report limits text).EndsWith fun _ => .readOptions text.length := by
  refine .bind fun _ => .bind fun found => .behind ?_ _
  obtain ⟨command, opened⟩ := found
  split
  · exact .bind fun _ => .bind fun _ => .bind fun options =>
      endsWith_pure (fun _ => .readOptions _) options
  · exact endsWith_error _

lemma Options.ignoredKeys_eq {raw : RawOptions} (h : Options.checkEntries raw = .ok ()) :
    Options.ignoredKeys raw
      = (raw.map Prod.fst).filter fun key => (OptionForm.of? key).isNone := by
  induction raw with
  | nil => rfl
  | cons entry rest ih =>
    obtain ⟨key, value⟩ := entry
    rw [checkEntries] at h
    rw [ignoredKeys, List.map_cons]
    cases hForm : OptionForm.of? key with
    | none =>
      simp only [hForm] at h ⊢
      rw [List.filter_cons_of_pos (by simp [hForm]), ih h]
    | some form =>
      simp only [hForm] at h ⊢
      rw [List.filter_cons_of_neg (by simp [hForm])]
      cases hCheck : form.check key value with
      | error e =>
        simp only [hCheck] at h
        cases h
      | ok _ =>
        simp only [hCheck] at h ⊢
        exact ih h

/-- If options are read, exactly the keys without a meaning are told, in their order. -/
theorem Options.events_reportRaw {raw : RawOptions} {o : Options}
    (h : (Options.reportRaw raw).result = .ok o) :
    (Options.reportRaw raw).events
      = ((raw.map Prod.fst).filter fun key => (OptionForm.of? key).isNone).map
          .ignoredOption := by
  rw [reportRaw] at h ⊢
  dsimp only at h ⊢
  rw [ofRaw] at h
  split at h
  · cases h
  · rename_i hCheck
    rw [ignoredKeys_eq hCheck]

end PolicyText
