import PolicyText.Proofs.Build.Consumed
import PolicyText.Proofs.Build.Readers
import PolicyText.Proofs.Scan.Swapped

/-!
# An option list that is replaced

The last option list of a command decides about its options.  If it is replaced by another one that
gives the same values to the options which the command takes over, the text is read as before,
however deep in the text the command stands (`parse_replaced`).

`LastOptions` says that the option list at some place is the last one of a command of some sort,
along the way that the loop over arguments takes to it.  Up to this place the two texts are the
same, behind it they go on alike, and so the arguments that are found differ in this option list and
in nothing else but positions (`Arguments.Replaced`).  `FindsReplaced` says so of one place, and it
is carried back from the option list over every step that the loop takes in both texts
(`FindsReplaced.behind`).  What is collected then differs in the options of the one command at most,
and this command is built all the same (`Arguments.Replaced.collect`).
-/

namespace PolicyText

/-! ## Arguments with another option list -/

namespace Arguments

/-- Whether an option list stands directly among arguments. -/
def hasOptions : Arguments → Bool
  | .closed | .fault _ => false
  | .options _ _ => true
  | .content _ rest | .reference _ rest | .command _ _ _ rest => rest.hasOptions

/-- The arguments of a command that differ in one option list, which is the last one of a command
`owner`, and in the positions of commands. -/
inductive Replaced (owner : Command) (raw new : RawOptions) :
    Command → Arguments → Arguments → Prop where
  | here {rest other : Arguments} (hLast : rest.hasOptions = false) (hRest : rest.Alike other) :
    Replaced owner raw new owner (.options raw rest) (.options new other)
  | content {parent : Command} {rest other : Arguments} (text : String)
    (hRest : Replaced owner raw new parent rest other) :
    Replaced owner raw new parent (.content text rest) (.content text other)
  | options {parent : Command} {rest other : Arguments} (before : RawOptions)
    (hRest : Replaced owner raw new parent rest other) :
    Replaced owner raw new parent (.options before rest) (.options before other)
  | reference {parent : Command} {rest other : Arguments} (entries : List String)
    (hRest : Replaced owner raw new parent rest other) :
    Replaced owner raw new parent (.reference entries rest) (.reference entries other)
  | inside {parent child : Command} {inner within rest other : Arguments} (position place : Nat)
    (hInner : Replaced owner raw new child inner within) (hRest : rest.Alike other) :
    Replaced owner raw new parent (.command position child inner rest)
      (.command place child within other)
  | behind {parent child : Command} {inner within rest other : Arguments} (position place : Nat)
    (hInner : inner.Alike within) (hRest : Replaced owner raw new parent rest other) :
    Replaced owner raw new parent (.command position child inner rest)
      (.command place child within other)

end Arguments

section Collecting

variable {limits : Limits} {depth : Nat} {parent : Command} {args : Collected}

lemma Limits.enter_place {position : Nat} (h : limits.enter depth position = .ok ())
    (place : Nat) : limits.enter depth place = .ok () := by
  unfold Limits.enter at h ⊢
  split at h
  · split at h
    · cases h
    · rename_i hDeep
      rw [if_neg hDeep]
  · rfl

/-- Positions make no difference to what is collected. -/
lemma Arguments.Alike.collect {arguments other : Arguments} (hAlike : arguments.Alike other)
    (h : collect limits depth parent arguments = .ok args) :
    collect limits depth parent other = .ok args := by
  induction hAlike generalizing depth parent args with
  | closed => exact h
  | fault e => exact h
  | content text hRest ih =>
    rw [collect_content] at h ⊢
    obtain ⟨others, hOthers, h⟩ := Except.bind_eq_ok.1 h
    rw [ih hOthers]
    exact h
  | options raw hRest ih =>
    rw [collect_options] at h ⊢
    obtain ⟨o, hOptions, h⟩ := Except.bind_eq_ok.1 h
    obtain ⟨others, hOthers, h⟩ := Except.bind_eq_ok.1 h
    rw [hOptions, Except.ok_bind, ih hOthers]
    exact h
  | reference entries hRest ih =>
    rw [collect_reference] at h ⊢
    obtain ⟨r, hReference, h⟩ := Except.bind_eq_ok.1 h
    obtain ⟨others, hOthers, h⟩ := Except.bind_eq_ok.1 h
    rw [hReference, Except.ok_bind, ih hOthers]
    exact h
  | command position place child hInner hRest ihInner ih =>
    obtain ⟨hAdmits, hEnter, innerArgs, add, others, hCollect, hComplete, hOthers, rfl⟩ :=
      collect_command_eq_ok.1 h
    exact collect_command_eq_ok.2 ⟨hAdmits, Limits.enter_place hEnter place, innerArgs, add, others,
      ihInner hCollect, hComplete, ih hOthers, rfl⟩

/-- Without an option list there are no options. -/
lemma options_of_collect {arguments : Arguments} (hNone : arguments.hasOptions = false)
    (h : collect limits depth parent arguments = .ok args) : args.options = none := by
  induction arguments generalizing args with
  | closed =>
    cases h
    rfl
  | fault e => cases h
  | content text rest ih =>
    rw [collect_content] at h
    obtain ⟨others, hOthers, h⟩ := Except.bind_eq_ok.1 h
    cases h
    have hKept := ih hNone hOthers
    exact hKept
  | options raw rest => cases hNone
  | reference entries rest ih =>
    rw [collect_reference] at h
    obtain ⟨r, -, h⟩ := Except.bind_eq_ok.1 h
    obtain ⟨others, hOthers, h⟩ := Except.bind_eq_ok.1 h
    cases h
    have hKept := ih hNone hOthers
    exact hKept
  | command position child inner rest _ ih =>
    obtain ⟨-, -, innerArgs, add, others, -, hComplete, hOthers, rfl⟩ := collect_command_eq_ok.1 h
    have hKept := ih hNone hOthers
    obtain ⟨⟨⟩, -, hAttach⟩ := Except.bind_eq_ok.1 hComplete
    obtain ⟨slot, -, -, rfl⟩ | ⟨node, -, -, rfl⟩ := Command.attach_eq_ok hAttach
    · exact hKept
    · exact hKept

lemma Command.complete_add {command : Command} {innerArgs : Collected} {add : Collected → Collected}
    (h : command.complete innerArgs = .ok add) (o : Options) (others : Collected) :
    (add others).options = others.options ∧
      add (others.withOptions o) = (add others).withOptions o := by
  obtain ⟨⟨⟩, -, hAttach⟩ := Except.bind_eq_ok.1 h
  obtain ⟨slot, -, -, rfl⟩ | ⟨node, -, -, rfl⟩ := Command.attach_eq_ok hAttach
  · exact ⟨rfl, rfl⟩
  · exact ⟨rfl, rfl⟩

/-- What is collected for a command from arguments with another option list: the same, or if the
list is its own, the same with the other options. -/
def Collected.Replaced (owner : Command) (o new : Options) (parent : Command)
    (args other : Collected) : Prop :=
  other = args ∨ (parent = owner ∧ args.options = some o ∧ other = args.withOptions new)

/-- It stays so behind what is added to the arguments, if this leaves the options alone. -/
lemma Collected.Replaced.map {owner : Command} {o new : Options} {other : Collected}
    {add : Collected → Collected} (h : Collected.Replaced owner o new parent args other)
    (hAdd : args.options = some o →
      (add args).options = some o ∧ add (args.withOptions new) = (add args).withOptions new) :
    Collected.Replaced owner o new parent (add args) (add other) := by
  obtain rfl | ⟨hOwner, hOld, rfl⟩ := h
  · exact Or.inl rfl
  · exact Or.inr ⟨hOwner, hAdd hOld⟩

/-- If another option list agrees with the old one on what its command takes over, what is collected
differs in the options of this command at most. -/
lemma Arguments.Replaced.collect {owner : Command} {raw new : RawOptions} {o other : Options}
    {arguments changed : Arguments} (hOptions : Options.ofRaw raw = .ok o)
    (hNew : Options.ofRaw new = .ok other) (hAgree : o.AgreeOn owner.copiedOptions other)
    (hReplaced : Replaced owner raw new parent arguments changed)
    (h : PolicyText.collect limits depth parent arguments = .ok args) :
    ∃ found, PolicyText.collect limits depth parent changed = .ok found ∧
      Collected.Replaced owner o other parent args found := by
  induction hReplaced generalizing depth args with
  | @here rest after hLast hRest =>
    rw [collect_options] at h ⊢
    obtain ⟨_, hSame, h⟩ := Except.bind_eq_ok.1 h
    cases hOptions.symm.trans hSame
    obtain ⟨others, hOthers, h⟩ := Except.bind_eq_ok.1 h
    cases h
    have hNone := options_of_collect hLast hOthers
    refine ⟨others.consOptions other, ?_, Or.inr ⟨rfl, ?_, ?_⟩⟩
    · rw [hNew, Except.ok_bind, hRest.collect hOthers]
      rfl
    · rw [Collected.consOptions, hNone]
      rfl
    · rw [Collected.consOptions, Collected.consOptions, hNone]
      rfl
  | content text hRest ih =>
    rw [collect_content] at h ⊢
    obtain ⟨others, hOthers, h⟩ := Except.bind_eq_ok.1 h
    cases h
    obtain ⟨found, hFound, hCase⟩ := ih hOthers
    exact ⟨found.consContent text, by rw [hFound]; rfl, hCase.map fun hOld => ⟨hOld, rfl⟩⟩
  | options before hRest ih =>
    rw [collect_options] at h ⊢
    obtain ⟨first, hFirst, h⟩ := Except.bind_eq_ok.1 h
    obtain ⟨others, hOthers, h⟩ := Except.bind_eq_ok.1 h
    cases h
    obtain ⟨found, hFound, hCase⟩ := ih hOthers
    refine ⟨found.consOptions first, by rw [hFirst, Except.ok_bind, hFound]; rfl,
      hCase.map fun hOld => ⟨?_, rfl⟩⟩
    rw [Collected.consOptions, hOld]
    rfl
  | reference entries hRest ih =>
    rw [collect_reference] at h ⊢
    obtain ⟨r, hReference, h⟩ := Except.bind_eq_ok.1 h
    obtain ⟨others, hOthers, h⟩ := Except.bind_eq_ok.1 h
    cases h
    obtain ⟨found, hFound, hCase⟩ := ih hOthers
    exact ⟨found.consChild (.reference r), by rw [hReference, Except.ok_bind, hFound]; rfl,
      hCase.map fun hOld => ⟨hOld, rfl⟩⟩
  | @inside parent child inner within rest after position place hInner hRest ih =>
    obtain ⟨hAdmits, hEnter, innerArgs, add, others, hCollect, hComplete, hOthers, rfl⟩ :=
      collect_command_eq_ok.1 h
    obtain ⟨found, hFound, hCase⟩ := ih hCollect
    have hSame : child.complete found = .ok add := by
      obtain rfl | ⟨rfl, hOld, rfl⟩ := hCase
      · exact hComplete
      · rw [← Command.complete_withOptions hAgree, Collected.withOptions_eq_self hOld]
        exact hComplete
    exact ⟨add others, collect_command_eq_ok.2 ⟨hAdmits, Limits.enter_place hEnter place, found,
      add, others, hFound, hSame, hRest.collect hOthers, rfl⟩, Or.inl rfl⟩
  | @behind parent child inner within rest after position place hInner hRest ih =>
    obtain ⟨hAdmits, hEnter, innerArgs, add, others, hCollect, hComplete, hOthers, rfl⟩ :=
      collect_command_eq_ok.1 h
    obtain ⟨found, hFound, hCase⟩ := ih hOthers
    obtain ⟨hOptionsKept, hCommute⟩ := Command.complete_add hComplete other others
    exact ⟨add found, collect_command_eq_ok.2 ⟨hAdmits, Limits.enter_place hEnter place, innerArgs,
      add, found, hInner.collect hCollect, hComplete, hFound, rfl⟩,
      hCase.map fun hOld => ⟨hOptionsKept.trans hOld, hCommute⟩⟩

end Collecting

/-! ## The way to an option list -/

/-- The option list at a place is the last one of a command `owner`.  The rules are the steps of the
loop over the arguments of `parent` from another place on, until it comes to the option list: it
passes over characters and arguments, and goes into the command in which the option list stands. -/
inductive LastOptions (owner : Command) (target : Cursor) : Command → Cursor → Prop where
  | here {opened next : Cursor} {raw : RawOptions}
    (hKeyword : scanKeyword target = .ok (.options, opened))
    (hOptions : scanOptions Command.options.keyword opened = .ok (raw, next))
    (hLast : (readArguments owner.keyword 0 next).1.hasOptions = false) :
    LastOptions owner target owner target
  | passed {parent : Command} {position : Nat} {d : Char} {tail : List Char}
    (hClass : CharClass.of d = .delimiter ∨ CharClass.of d = .filler ∨ CharClass.of d = .opening)
    (hRest : LastOptions owner target parent ⟨position + 1, tail⟩) :
    LastOptions owner target parent ⟨position, d :: tail⟩
  | content {parent : Command} {position : Nat} {d : Char} {tail : List Char} {text : String}
    {next : Cursor} (hClass : CharClass.of d = .content)
    (hContent : scanContent ',' ⟨position, d :: tail⟩ = .ok (text, next))
    (hRest : LastOptions owner target parent next) :
    LastOptions owner target parent ⟨position, d :: tail⟩
  | options {parent : Command} {c opened next : Cursor} {raw : RawOptions}
    (hKeyword : scanKeyword c = .ok (.options, opened))
    (hOptions : scanOptions Command.options.keyword opened = .ok (raw, next))
    (hRest : LastOptions owner target parent next) :
    LastOptions owner target parent c
  | reference {parent : Command} {c opened next : Cursor} {entries : List String}
    (hKeyword : scanKeyword c = .ok (.reference, opened))
    (hReference : scanReference Command.reference.keyword opened = .ok (entries, next))
    (hRest : LastOptions owner target parent next) :
    LastOptions owner target parent c
  | inside {parent child : Command} {c opened : Cursor} (hOptions : child ≠ .options)
    (hReference : child ≠ .reference) (hKeyword : scanKeyword c = .ok (child, opened))
    (hInner : LastOptions owner target child (opened.advance 1)) :
    LastOptions owner target parent c
  | behind {parent child : Command} {c opened next : Cursor} {inner : Arguments}
    (hOptions : child ≠ .options) (hReference : child ≠ .reference)
    (hKeyword : scanKeyword c = .ok (child, opened))
    (hInner : readArguments child.keyword c.position (opened.advance 1) = (inner, .ok next))
    (hRest : LastOptions owner target parent next) :
    LastOptions owner target parent c

lemma ReadsArguments.of_readArguments {keyword : String} {start : Nat} {c : Cursor}
    {args : Arguments} {last : Except ParseError Cursor}
    (h : readArguments keyword start c = (args, last)) :
    ReadsArguments keyword start c args last := by
  have hReads := readsArguments keyword start c
  rwa [h] at hReads

lemma LastOptions.leads {owner parent : Command} {target c : Cursor}
    (h : LastOptions owner target parent c) : c.Leads target := by
  induction h with
  | here => exact .refl _
  | passed hClass hRest ih => exact (Cursor.leads_tail _ _ _).trans ih
  | content hClass hContent hRest ih => exact (leads_of_scanContent hContent).trans ih
  | options hKeyword hOptions hRest ih =>
    exact ((leads_of_scanKeyword hKeyword).1.trans (leads_of_scanOptions hOptions)).trans ih
  | reference hKeyword hReference hRest ih =>
    exact ((leads_of_scanKeyword hKeyword).1.trans (leads_of_scanReference hReference)).trans ih
  | inside hOptions hReference hKeyword hInner ih =>
    obtain ⟨hOpened, -, hAdvance⟩ := leads_of_scanKeyword hKeyword
    exact (hOpened.trans hAdvance).trans ih
  | behind hOptions hReference hKeyword hInner hRest ih =>
    obtain ⟨hOpened, -, hAdvance⟩ := leads_of_scanKeyword hKeyword
    have hInside := (ReadsArguments.of_readArguments hInner).leads _ rfl
    exact ((hOpened.trans hAdvance).trans hInside).trans ih

lemma map_eq_ok_iff {read : Arguments × Except ParseError Cursor} {wrap : Arguments → Arguments}
    {args : Arguments} {stop : Cursor} (h : read.map wrap id = (args, .ok stop)) :
    ∃ rest, read = (rest, .ok stop) ∧ args = wrap rest := by
  obtain ⟨rest, last⟩ := read
  cases h
  exact ⟨rest, rfl, rfl⟩

lemma Arguments.Alike.hasOptions_eq {arguments other : Arguments} (h : arguments.Alike other) :
    other.hasOptions = arguments.hasOptions := by
  induction h with
  | closed => rfl
  | fault e => rfl
  | options raw hRest ih => rfl
  | content text hRest ih => exact ih
  | reference entries hRest ih => exact ih
  | command position place child hInner hRest ihInner ih => exact ih

lemma readArguments_place {keyword : String} {start : Nat} {c d stop : Cursor} {args : Arguments}
    (hRest : d.rest = c.rest) (h : readArguments keyword start c = (args, .ok stop)) (place : Nat) :
    ∃ other finish, readArguments keyword place d = (other, .ok finish) ∧ args.Alike other ∧
      finish.rest = stop.rest := by
  have hReads := ReadsArguments.of_readArguments h
  have hSame : Swapped stop.rest stop.rest c.rest d.rest := by
    rw [hRest]
    exact .refl _ (hReads.leads stop rfl).suffix
  obtain ⟨other, finish, hRead, hAlike, run, hStop, hFinish⟩ :=
    hReads.swapped rfl place d stop hSame rfl (List.suffix_refl _)
  exact ⟨other, finish, hRead, hAlike, hFinish.trans hStop.symm⟩

/-- An option list stands at a place, and some text is left behind it. -/
def ReadsOptions (c : Cursor) (raw : RawOptions) (left : List Char) : Prop :=
  ∃ opened next, scanKeyword c = .ok (.options, opened) ∧
    scanOptions Command.options.keyword opened = .ok (raw, next) ∧ next.rest = left

lemma ReadsOptions.exists_stepsTo {c : Cursor} {raw : RawOptions} {left : List Char}
    (h : ReadsOptions c raw left) : ∃ next, next.rest = left ∧ StepsTo (.options raw) c next := by
  obtain ⟨opened, next, hKeyword, hOptions, hLeft⟩ := h
  exact ⟨next, hLeft, stepsTo_options hKeyword hOptions⟩

/-! ## The two texts -/

section Texts

variable {rest more left : List Char} {owner parent child : Command} {target c opened next : Cursor}
  {raw new : RawOptions} {inner : Arguments}

/-- From a place on, what is found in the one text is found in the other one with an option list of
`owner` replaced. -/
def FindsReplaced (owner : Command) (raw new : RawOptions) (rest more : List Char)
    (parent : Command) (c : Cursor) : Prop :=
  ∀ (start place : Nat) (d : Cursor) (args : Arguments) (stop : Cursor),
    Swapped rest more c.rest d.rest →
    readArguments parent.keyword start c = (args, .ok stop) →
    ∃ other finish, readArguments parent.keyword place d = (other, .ok finish) ∧
      args.Replaced owner raw new parent other ∧ finish.rest = stop.rest

namespace FindsReplaced

lemma behind {wrap : Arguments → Arguments}
    (hNext : FindsReplaced owner raw new rest more parent next) (hStep : StepsTo wrap c next)
    (hOther : ∀ d, Swapped rest more c.rest d.rest → next.rest ≠ [] →
      ∃ change after, StepsTo change d after ∧ Swapped rest more next.rest after.rest ∧
        ∀ {args other : Arguments}, args.Replaced owner raw new parent other →
          (wrap args).Replaced owner raw new parent (change other)) :
    FindsReplaced owner raw new rest more parent c := by
  intro start place d args stop hText hRead
  rw [hStep] at hRead
  obtain ⟨found, hFound, rfl⟩ := map_eq_ok_iff hRead
  have hLeft := (ReadsArguments.of_readArguments hFound).rest_ne_nil
  obtain ⟨change, after, hChange, hSwapped, hReplaced⟩ := hOther d hText hLeft
  obtain ⟨other, finish, hBehind, hArgs, hFinish⟩ :=
    hNext start place after found stop hSwapped hFound
  refine ⟨change other, finish, ?_, hReplaced hArgs, hFinish⟩
  rw [hChange, hBehind]
  rfl

variable {position : Nat} {first : Char} {tail : List Char}

lemma passed (hClass : CharClass.of first = .delimiter ∨ CharClass.of first = .filler ∨
    CharClass.of first = .opening) (hTail : rest <:+ tail)
    (hNext : FindsReplaced owner raw new rest more parent ⟨position + 1, tail⟩) :
    FindsReplaced owner raw new rest more parent ⟨position, first :: tail⟩ := by
  refine hNext.behind (stepsTo_passed hClass position tail) ?_
  rintro ⟨place, text⟩ hText -
  obtain ⟨behind, rfl, hBehind⟩ := hText.cons hTail
  exact ⟨id, ⟨place + 1, behind⟩, stepsTo_passed hClass place behind, hBehind, id⟩

lemma content (hHead : more.head? = rest.head?) {text : String}
    (hClass : CharClass.of first = .content)
    (hContent : scanContent ',' ⟨position, first :: tail⟩ = .ok (text, next))
    (hTail : rest <:+ next.rest) (hNext : FindsReplaced owner raw new rest more parent next) :
    FindsReplaced owner raw new rest more parent ⟨position, first :: tail⟩ := by
  refine hNext.behind (stepsTo_content hClass hContent) ?_
  intro d hText hLeft
  obtain ⟨after, hAfter, hSwapped⟩ := scanContent_swapped hHead hText hContent hTail hLeft
  obtain ⟨place, behind, rfl⟩ := Cursor.exists_mk_swapped hHead hText
  exact ⟨_, after, stepsTo_content hClass hAfter, hSwapped, .content text⟩

lemma options (hHead : more.head? = rest.head?) {before : RawOptions}
    (hKeyword : scanKeyword c = .ok (.options, opened))
    (hOptions : scanOptions Command.options.keyword opened = .ok (before, next))
    (hTail : rest <:+ next.rest) (hNext : FindsReplaced owner raw new rest more parent next) :
    FindsReplaced owner raw new rest more parent c := by
  refine hNext.behind (stepsTo_options hKeyword hOptions) ?_
  intro d hText _
  obtain ⟨paren, hParen, hOpened⟩ := scanKeyword_swapped hHead hText hKeyword
    (hTail.trans (leads_of_scanOptions hOptions).suffix)
  obtain ⟨after, hAfter, hSwapped⟩ := scanOptions_swapped hHead hOpened hOptions hTail
  exact ⟨_, after, stepsTo_options hParen hAfter, hSwapped, .options before⟩

lemma reference (hHead : more.head? = rest.head?) {entries : List String}
    (hKeyword : scanKeyword c = .ok (.reference, opened))
    (hReference : scanReference Command.reference.keyword opened = .ok (entries, next))
    (hTail : rest <:+ next.rest) (hNext : FindsReplaced owner raw new rest more parent next) :
    FindsReplaced owner raw new rest more parent c := by
  refine hNext.behind (stepsTo_reference hKeyword hReference) ?_
  intro d hText _
  obtain ⟨paren, hParen, hOpened⟩ := scanKeyword_swapped hHead hText hKeyword
    (hTail.trans (leads_of_scanReference hReference).suffix)
  obtain ⟨after, hAfter, hSwapped⟩ := scanReference_swapped hHead hOpened hReference hTail
  exact ⟨_, after, stepsTo_reference hParen hAfter, hSwapped, .reference entries⟩

lemma behindCommand (hHead : more.head? = rest.head?) (hOptions : child ≠ .options)
    (hReference : child ≠ .reference) (hKeyword : scanKeyword c = .ok (child, opened))
    (hInner : readArguments child.keyword c.position (opened.advance 1) = (inner, .ok next))
    (hTail : rest <:+ next.rest) (hNext : FindsReplaced owner raw new rest more parent next) :
    FindsReplaced owner raw new rest more parent c := by
  refine hNext.behind (stepsTo_command hOptions hReference hKeyword hInner) ?_
  intro d hText _
  obtain ⟨-, -, hAdvance⟩ := leads_of_scanKeyword hKeyword
  obtain ⟨inside, hInsideText⟩ := (length_of_scanKeyword hKeyword).2
  have hReadsInner := ReadsArguments.of_readArguments hInner
  have hInnerTail := hTail.trans (hReadsInner.leads next rfl).suffix
  obtain ⟨paren, hParen, hOpened⟩ :=
    scanKeyword_swapped hHead hText hKeyword (hInnerTail.trans hAdvance.suffix)
  have hInside := Cursor.advance_swapped hOpened hInsideText hInnerTail
  obtain ⟨within, after, hFoundInner, hAlike, hSwapped⟩ :=
    hReadsInner.swapped hHead d.position (paren.advance 1) next hInside rfl hTail
  exact ⟨_, after, stepsTo_command hOptions hReference hParen hFoundInner, hSwapped,
    .behind c.position d.position hAlike⟩

/-- Behind the command in which the option list stands the two texts are the same. -/
lemma inside (hHead : more.head? = rest.head?) (hOptions : child ≠ .options)
    (hReference : child ≠ .reference) (hKeyword : scanKeyword c = .ok (child, opened))
    (hTail : rest <:+ (opened.advance 1).rest)
    (hInner : FindsReplaced owner raw new rest more child (opened.advance 1)) :
    FindsReplaced owner raw new rest more parent c := by
  intro start place d args stop hText hRead
  obtain ⟨-, -, hAdvance⟩ := leads_of_scanKeyword hKeyword
  obtain ⟨inside, hInsideText⟩ := (length_of_scanKeyword hKeyword).2
  obtain ⟨paren, hParen, hOpened⟩ :=
    scanKeyword_swapped hHead hText hKeyword (hTail.trans hAdvance.suffix)
  have hInside := Cursor.advance_swapped hOpened hInsideText hTail
  rcases hReadInner : readArguments child.keyword c.position (opened.advance 1) with
    ⟨inner, error | next⟩
  · obtain ⟨position, first, tail, rfl, hClass⟩ := exists_cons_of_scanKeyword hKeyword
    rw [readArguments_unclosed hClass hOptions hReference hKeyword hReadInner] at hRead
    cases hRead
  · rw [stepsTo_command hOptions hReference hKeyword hReadInner] at hRead
    obtain ⟨others, hOthers, rfl⟩ := map_eq_ok_iff hRead
    obtain ⟨within, after, hFoundInner, hReplaced, hAfter⟩ :=
      hInner c.position d.position (paren.advance 1) inner next hInside hReadInner
    obtain ⟨other, finish, hFound, hAlike, hFinish⟩ := readArguments_place hAfter hOthers place
    refine ⟨.command d.position child within other, finish, ?_,
      .inside c.position d.position hReplaced hAlike, hFinish⟩
    rw [stepsTo_command hOptions hReference hParen hFoundInner, hFound]
    rfl

/-- Where the option list stands the other text goes on with the new one. -/
lemma here (hKeyword : scanKeyword target = .ok (.options, opened)) {found : RawOptions}
    (hOptions : scanOptions Command.options.keyword opened = .ok (found, next))
    (hLast : (readArguments owner.keyword 0 next).1.hasOptions = false)
    (hOld : ReadsOptions target raw left)
    (hNew : ∀ place, ReadsOptions ⟨place, more⟩ new left) :
    FindsReplaced owner raw new target.rest more owner target := by
  intro start place d args stop hText hRead
  obtain ⟨after, hAfter, hTarget⟩ := hOld.exists_stepsTo
  rw [hTarget] at hRead
  obtain ⟨others, hOthers, rfl⟩ := map_eq_ok_iff hRead
  obtain rfl : d.rest = more := by
    obtain ⟨run, hRun, hOther⟩ := hText
    rw [List.self_eq_append_left.1 hRun] at hOther
    exact hOther
  obtain ⟨behind, hBehind, hSource⟩ := (hNew d.position).exists_stepsTo
  obtain ⟨other, finish, hFound, hAlike, hFinish⟩ :=
    readArguments_place (hBehind.trans hAfter.symm) hOthers place
  refine ⟨.options new other, finish, ?_, .here ?_ hAlike, hFinish⟩
  · rw [hSource, hFound]
    rfl
  · -- Nothing behind the list is an option list, wherever the reading starts.
    obtain ⟨opened', next', hKeyword', hOptions', hLeft⟩ := hOld
    cases hKeyword.symm.trans hKeyword'
    cases hOptions.symm.trans hOptions'
    obtain ⟨same, stop', hSame, hAlikeSame, -⟩ :=
      readArguments_place (d := next) (hLeft.trans hAfter.symm) hOthers 0
    rw [← hAlikeSame.hasOptions_eq]
    rw [hSame] at hLast
    exact hLast

end FindsReplaced

/-- If an option list is replaced by another one, the arguments that are found differ in this option
list and in positions. -/
lemma LastOptions.replaced (h : LastOptions owner target parent c)
    (hHead : more.head? = target.rest.head?) (hOld : ReadsOptions target raw left)
    (hNew : ∀ place, ReadsOptions ⟨place, more⟩ new left) :
    FindsReplaced owner raw new target.rest more parent c := by
  induction h with
  | here hKeyword hOptions hLast => exact .here hKeyword hOptions hLast hOld hNew
  | passed hClass hRest ih => exact ih.passed hClass hRest.leads.suffix
  | content hClass hContent hRest ih => exact ih.content hHead hClass hContent hRest.leads.suffix
  | options hKeyword hOptions hRest ih =>
    exact ih.options hHead hKeyword hOptions hRest.leads.suffix
  | reference hKeyword hReference hRest ih =>
    exact ih.reference hHead hKeyword hReference hRest.leads.suffix
  | inside hOptions hReference hKeyword hInner ih =>
    exact ih.inside hHead hOptions hReference hKeyword hInner.leads.suffix
  | behind hOptions hReference hKeyword hInner hRest ih =>
    exact ih.behindCommand hHead hOptions hReference hKeyword hInner hRest.leads.suffix

end Texts

/-! ## Whole texts -/

/-- A text is an option list from its first character on, and its entries are converted to options.
-/
def IsOptionList (run : List Char) (o : Options) : Prop :=
  run.head? = some '#' ∧ Options.parse {} (String.ofList run) = .ok o

/-- An option list is read wherever it stands, with the fillers that follow it. -/
lemma IsOptionList.exists_raw {run : List Char} {o : Options} (h : IsOptionList run o) :
    ∃ raw, Options.ofRaw raw = .ok o ∧
      ∀ place back, ReadsOptions ⟨place, run ++ back⟩ raw (back.dropWhile isFiller) := by
  obtain ⟨hHead, hParse⟩ := h
  obtain ⟨tail, rfl⟩ := List.head?_eq_some_iff.1 hHead
  rw [Options.parse, String.toList_ofList] at hParse
  obtain ⟨⟨⟩, -, hParse⟩ := Except.bind_eq_ok.1 hParse
  obtain ⟨⟨command, opened⟩, hKeyword, hParse⟩ := Except.bind_eq_ok.1 hParse
  simp only at hParse
  split at hParse
  · rename_i hCommand
    subst hCommand
    obtain ⟨⟨raw, last⟩, hOptions, hParse⟩ := Except.bind_eq_ok.1 hParse
    obtain ⟨⟨⟩, hEnd, hRaw⟩ := Except.bind_eq_ok.1 hParse
    have hLast : last.rest = [] := by
      unfold Cursor.expectEnd at hEnd
      split at hEnd
      · exact List.isEmpty_iff.1 ‹_›
      · cases hEnd
    refine ⟨raw, hRaw, fun place back => ?_⟩
    have hKept := scanOptions_kept Command.options.keyword (length_of_scanKeyword hKeyword).2
      place back
    rw [hOptions] at hKept
    refine ⟨_, _, scanKeyword_within hKeyword place back, hKept, ?_⟩
    exact congrArg Cursor.rest (Cursor.skipWhile_within_of_nil hLast isFiller place back)
  · cases hParse

/-- In the text of an expression, an option list between some characters and others is the last one
of a command `owner`. -/
def IsLastOptionList (owner : Command) (front run back : List Char) : Prop :=
  ∃ command opened,
    scanKeyword (Cursor.start (front ++ (run ++ back))).skipFiller = .ok (command, opened) ∧
      LastOptions owner ⟨front.length, run ++ back⟩ command (opened.advance 1)

/-- **A command depends on the options that it takes over and on no others.**  If the last option
list of a command is replaced by one that gives the same values to these options, then a text which
is read as an entity is still read as this entity, wherever in the text the command stands. -/
theorem parse_replaced {category : Category} {limits : Limits} {owner : Command}
    {front run other back : List Char} {o new : Options} {x : category.Entity}
    (hRun : IsOptionList run o) (hOther : IsOptionList other new)
    (hAgree : o.AgreeOn owner.copiedOptions new) (hLast : IsLastOptionList owner front run back)
    (hLength : ∀ most ∈ limits.maxInputLength, (front ++ (other ++ back)).length ≤ most)
    (hParse : category.parse limits (String.ofList (front ++ (run ++ back))) = .ok x) :
    category.parse limits (String.ofList (front ++ (other ++ back))) = .ok x := by
  rw [Category.parse_eq_ok, String.toList_ofList] at hParse ⊢
  obtain ⟨-, last, hRead, hEnd⟩ := parseNode_eq_ok.1 hParse
  obtain ⟨command, opened, hKeyword, hAccepts, hEnter, args, hCollect, hCount, hBuild, hClosed⟩ :=
    readExpression_eq_ok.1 hRead
  obtain ⟨_, _, hSame, hWay⟩ := hLast
  cases hKeyword.symm.trans hSame
  obtain ⟨raw, hRaw, hOld⟩ := hRun.exists_raw
  obtain ⟨changed, hChanged, hNew⟩ := hOther.exists_raw
  -- Up to the option list the texts are the same, and there both go on with its first character.
  have hHead : (other ++ back).head? = (run ++ back).head? := by
    rw [List.head?_append, List.head?_append, hRun.1, hOther.1]
  have hAhead := hWay.leads.suffix
  obtain ⟨hOpenedLeads, -, hAdvance⟩ := leads_of_scanKeyword hKeyword
  have hBegin := Cursor.skipWhile_swapped (p := isFiller)
    (c := Cursor.start (front ++ (run ++ back))) (d := Cursor.start (front ++ (other ++ back)))
    hHead ⟨front, rfl, rfl⟩ (hAhead.trans (hOpenedLeads.trans hAdvance).suffix)
  obtain ⟨paren, hParen, hOpened⟩ :=
    scanKeyword_swapped hHead hBegin hKeyword (hAhead.trans hAdvance.suffix)
  obtain ⟨inside, hInside⟩ := (length_of_scanKeyword hKeyword).2
  have hArguments := Cursor.advance_swapped hOpened hInside hAhead
  obtain ⟨arguments, finish, hFound, hReplaced, hFinish⟩ :=
    hWay.replaced hHead (hOld front.length back) (fun place => hNew place back) _
      (Cursor.start (front ++ (other ++ back))).skipFiller.position _ _ last hArguments
      (Prod.ext rfl hClosed)
  obtain ⟨found, hCollected, hCase⟩ := hReplaced.collect hRaw hChanged hAgree hCollect
  refine parseNode_eq_ok.2 ⟨Limits.checkLength_eq_ok hLength, finish, ?_, hFinish.trans hEnd⟩
  refine readExpression_eq_ok.2 ⟨command, paren, hParen, hAccepts, Limits.enter_place hEnter _,
    found, ?_, ?_, ?_, ?_⟩
  · rw [hFound]
    exact hCollected
  · obtain rfl | ⟨-, -, rfl⟩ := hCase
    · exact hCount
    · exact hCount
  · obtain rfl | ⟨rfl, hOptions, rfl⟩ := hCase
    · exact hBuild
    · rw [← Command.build_withOptions hAgree, Collected.withOptions_eq_self hOptions]
      exact hBuild
  · rw [hFound]

/-- The options of a comparison inside of another condition are replaced by those that say as well
how the combination of conditions would be evaluated. -/
theorem parse_replaced_inside :
    ∃ x, Condition.parse {} "*not(*gt(#opts(id=a), #int(1), #int(0)))" = .ok x ∧
      Condition.parse {} "*not(*gt(#opts(id=a, optimize), #int(1), #int(0)))" = .ok x := by
  obtain ⟨x, hx⟩ := Except.exists_eq_ok (by decide +kernel :
    (Condition.parse {} "*not(*gt(#opts(id=a), #int(1), #int(0)))").isOk = true)
  have hOuter : scanKeyword (Cursor.start ("*not(*gt(".toList ++
      ("#opts(id=a)".toList ++ ", #int(1), #int(0)))".toList))).skipFiller
        = .ok (.composite .not, ⟨4, "(*gt(#opts(id=a), #int(1), #int(0)))".toList⟩) := by
    decide +kernel
  have hInner : scanKeyword
      (Cursor.advance 1 ⟨4, "(*gt(#opts(id=a), #int(1), #int(0)))".toList⟩)
        = .ok (.atomic .greaterThan, ⟨8, "(#opts(id=a), #int(1), #int(0)))".toList⟩) := by
    decide +kernel
  have hTarget : Cursor.advance 1 ⟨8, "(#opts(id=a), #int(1), #int(0)))".toList⟩
      = ⟨"*not(*gt(".toList.length, "#opts(id=a)".toList ++ ", #int(1), #int(0)))".toList⟩ := by
    decide +kernel
  have hKeyword : scanKeyword
      ⟨"*not(*gt(".toList.length, "#opts(id=a)".toList ++ ", #int(1), #int(0)))".toList⟩
        = .ok (.options, ⟨14, "(id=a), #int(1), #int(0)))".toList⟩) := by
    decide +kernel
  have hOptions : scanOptions Command.options.keyword ⟨14, "(id=a), #int(1), #int(0)))".toList⟩
      = .ok ([("id", "a")], ⟨20, ", #int(1), #int(0)))".toList⟩) := by
    decide +kernel
  have hLast : IsLastOptionList (.atomic .greaterThan) "*not(*gt(".toList "#opts(id=a)".toList
      ", #int(1), #int(0)))".toList := by
    refine ⟨_, _, hOuter, .inside (by decide) (by decide) hInner ?_⟩
    rw [hTarget]
    exact .here hKeyword hOptions (by decide +kernel)
  have hAgree : ({ id := some "a" } : Options).AgreeOn
      (Command.atomic .greaterThan).copiedOptions { id := some "a", optimize := some true } := by
    decide
  refine ⟨x, hx, ?_⟩
  exact @parse_replaced .condition {} (.atomic .greaterThan) "*not(*gt(".toList
    "#opts(id=a)".toList "#opts(id=a, optimize)".toList ", #int(1), #int(0)))".toList
    { id := some "a" } { id := some "a", optimize := some true } x
    ⟨by decide, by decide +kernel⟩ ⟨by decide, by decide +kernel⟩
    hAgree hLast (fun most hMost => nomatch hMost) hx

/-- How many conditions have to hold is meant for a choice of some of them only.  Yet the option is
taken over where all of them have to hold: without it the condition that is read is another one. -/
theorem minimumConditions_taken_over :
    ∃ (o new : Options) (x y : Condition),
      IsOptionList "#opts(minimumConditions=2)".toList o ∧ IsOptionList "#opts()".toList new ∧
      o.AgreeOn (Command.composite .and).consumedOptions new ∧
      IsLastOptionList (.composite .and) "*all(".toList "#opts(minimumConditions=2)".toList
        ", #true())".toList ∧
      Condition.parse {} "*all(#opts(minimumConditions=2), #true())" = .ok x ∧
      Condition.parse {} "*all(#opts(), #true())" = .ok y ∧ x ≠ y := by
  obtain ⟨x, hx⟩ := Except.exists_eq_ok (by decide +kernel :
    (Condition.parse {} "*all(#opts(minimumConditions=2), #true())").isOk = true)
  obtain ⟨y, hy⟩ := Except.exists_eq_ok (by decide +kernel :
    (Condition.parse {} "*all(#opts(), #true())").isOk = true)
  have hDocuments : (Condition.parse {} "*all(#opts(minimumConditions=2), #true())").map
      Condition.document ≠ (Condition.parse {} "*all(#opts(), #true())").map Condition.document := by
    decide +kernel
  have hKeyword : scanKeyword (Cursor.start ("*all(".toList ++
      ("#opts(minimumConditions=2)".toList ++ ", #true())".toList))).skipFiller
        = .ok (.composite .and, ⟨4, "(#opts(minimumConditions=2), #true())".toList⟩) := by
    decide +kernel
  have hTarget : Cursor.advance 1 ⟨4, "(#opts(minimumConditions=2), #true())".toList⟩
      = ⟨"*all(".toList.length, "#opts(minimumConditions=2)".toList ++ ", #true())".toList⟩ := by
    decide +kernel
  have hInner : scanKeyword
      ⟨"*all(".toList.length, "#opts(minimumConditions=2)".toList ++ ", #true())".toList⟩
        = .ok (.options, ⟨10, "(minimumConditions=2), #true())".toList⟩) := by
    decide +kernel
  have hOptions : scanOptions Command.options.keyword
      ⟨10, "(minimumConditions=2), #true())".toList⟩
        = .ok ([("minimumConditions", "2")], ⟨31, ", #true())".toList⟩) := by
    decide +kernel
  refine ⟨{ minimumConditions := some ⟨2, by decide⟩ }, {}, x, y, ⟨by decide, by decide +kernel⟩,
    ⟨by decide, by decide +kernel⟩, by decide, ⟨_, _, hKeyword, ?_⟩, hx, hy, ?_⟩
  · rw [hTarget]
    exact .here hInner hOptions (by decide +kernel)
  · rintro rfl
    rw [hx, hy] at hDocuments
    exact hDocuments rfl

end PolicyText
