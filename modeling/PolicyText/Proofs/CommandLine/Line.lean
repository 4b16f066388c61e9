import Mathlib.Data.List.Nodup
import Mathlib.Tactic.Lemma
import PolicyText.CommandLine.Invocation

/-!
# Command lines as they are written

A command line is read item by item, and every item is put where it belongs.  This file says what
comes of it from the side of the writer.  A `Line` is a command line of which the task is left open:
options before the task, and behind it the target, perhaps the expression, and options around both.
Each option has its value in the next argument or behind an equals sign.  What makes a command line
wrong cannot be built: an option that stands twice in one place, a value that an option does not
accept, a file together with an expression.

The order of the options is of no importance, because what an option sets no other one touches
(`CommonOptions.setOption?_written`, `Draft.addOption?_written`).  So a line asks for what is said
on it (`Line.ofArguments?_arguments`): the value of an option is the one behind the task, or else
the one before it.
-/

namespace PolicyText.CommandLine

/-! ## Options -/

/-- Whether an argument is read as a word: it begins with no hyphen, or is nothing else. -/
def IsWord (text : String) : Prop :=
  text.toList.head? ≠ some '-' ∨ text = "-"

instance (text : String) : Decidable (IsWord text) :=
  inferInstanceAs (Decidable (_ ∨ _))

/-- Whether an option makes sense of a value. -/
def ValueOption.Accepts (value : String) : ValueOption → Prop
  | .output => (Literal.ofLiteral? value : Option OutputFormat).isSome = true
  | .config | .file => value ≠ ""
  | .maxDepth | .maxInputLength => (limit? value).isSome = true

instance (value : String) : DecidablePred (ValueOption.Accepts value)
  | .output | .maxDepth | .maxInputLength => inferInstanceAs (Decidable (_ = true))
  | .config | .file => inferInstanceAs (Decidable (_ ≠ ""))

/-- An option as it is written. -/
inductive WrittenOption where
  | quiet
  /-- The value is the next argument. -/
  | apart (option : ValueOption) (value : String)
  /-- The value stands behind an equals sign. -/
  | attached (option : ValueOption) (value : String)
  deriving DecidableEq

namespace WrittenOption

/-- The arguments that an option is. -/
def arguments : WrittenOption → List String
  | .quiet => ["--quiet"]
  | .apart option value => ["--" ++ Literal.literal option, value]
  | .attached option value => ["--" ++ Literal.literal option ++ "=" ++ value]

/-- The item that an option is. -/
def item : WrittenOption → Item
  | .quiet => .flag .quiet
  | .apart option value | .attached option value => .option option value

/-- By what an option is known; being quiet has no name here. -/
def name? : WrittenOption → Option ValueOption
  | .quiet => none
  | .apart option _ | .attached option _ => some option

/-- Whether an option can be read. -/
def IsWritten : WrittenOption → Prop
  | .quiet => True
  | .apart option value => option.Accepts value ∧ IsWord value
  | .attached option value => option.Accepts value

instance : DecidablePred IsWritten
  | .quiet => inferInstanceAs (Decidable True)
  | .apart .. => inferInstanceAs (Decidable (_ ∧ _))
  | .attached option value => inferInstanceAs (Decidable (option.Accepts value))

/-- The value that an option gives to a certain one. -/
def value? (wanted : ValueOption) : WrittenOption → Option String
  | .quiet => none
  | .apart option value | .attached option value => if option = wanted then some value else none

end WrittenOption

/-- The value that options give to a certain one. -/
def givenValue? (wanted : ValueOption) (options : List WrittenOption) : Option String :=
  options.findSome? (WrittenOption.value? wanted)

/-- What options say together. -/
def CommonOptions.ofWritten (options : List WrittenOption) : CommonOptions :=
  { format := givenValue? .output options >>= Literal.ofLiteral?
    quiet := decide (.quiet ∈ options)
    settings := givenValue? .config options
    limits :=
      { maxDepth := givenValue? .maxDepth options >>= limit?
        maxInputLength := givenValue? .maxInputLength options >>= limit? } }

/-- A command line without its task. -/
structure Line where
  before : List WrittenOption := []
  behindTask : List WrittenOption := []
  target : Target
  behindTarget : List WrittenOption := []
  expression : Option String := none
  behindExpression : List WrittenOption := []
  written : ∀ option ∈ before ++ (behindTask ++ behindTarget ++ behindExpression),
    option.IsWritten := by decide
  onceBefore : (before.map WrittenOption.name?).Nodup := by decide
  onceBehind :
    ((behindTask ++ behindTarget ++ behindExpression).map WrittenOption.name?).Nodup := by decide
  fileBehind : some .file ∉ before.map WrittenOption.name? := by decide
  word : ∀ text ∈ expression, IsWord text := by decide
  oneSource : expression.isSome = true →
    some .file ∉ (behindTask ++ behindTarget ++ behindExpression).map WrittenOption.name? := by
      decide

namespace Line

/-- The arguments of a line with a task. -/
def arguments (line : Line) (task : Task) : List String :=
  line.before.flatMap WrittenOption.arguments ++ Literal.literal task ::
    (line.behindTask.flatMap WrittenOption.arguments ++ Literal.literal line.target ::
      (line.behindTarget.flatMap WrittenOption.arguments ++ (line.expression.toList ++
        line.behindExpression.flatMap WrittenOption.arguments)))

/-- The options behind the task. -/
def behind (line : Line) : List WrittenOption :=
  line.behindTask ++ line.behindTarget ++ line.behindExpression

/-- The value of an option: the one behind the task, or else the one before it. -/
def value? (line : Line) (option : ValueOption) : Option String :=
  (givenValue? option line.behind).or (givenValue? option line.before)

/-- The limit that an option sets. -/
def limit? (line : Line) (option : ValueOption) : Option Nat :=
  line.value? option >>= CommandLine.limit?

/-- How results are written, which is as text if nothing is said. -/
def format (line : Line) : OutputFormat :=
  (line.value? .output >>= Literal.ofLiteral?).getD .text

/-- Whether the line says to be quiet, in either place. -/
def quiet (line : Line) : Bool :=
  decide (.quiet ∈ line.before ++ line.behind)

/-- Where the expression comes from. -/
def source (line : Line) : Source :=
  match line.expression, line.value? .file with
  | some text, _ => .argument text
  | none, some path => .file path
  | none, none => .standardInput

/-- What a line with a task asks for. -/
def invocation (line : Line) (task : Task) : Invocation :=
  { task := task, target := line.target, source := line.source, format := line.format,
    quiet := line.quiet, settings := line.value? .config,
    limits :=
      { maxDepth := line.limit? .maxDepth, maxInputLength := line.limit? .maxInputLength } }

end Line

lemma WrittenOption.IsWritten.eq_quiet_or {option : WrittenOption} (h : option.IsWritten) :
    option = .quiet ∨ ∃ given value, option.item = .option given value ∧
      option.name? = some given ∧ given.Accepts value := by
  cases option with
  | quiet => exact Or.inl rfl
  | apart given value => exact Or.inr ⟨given, value, rfl, rfl, h.1⟩
  | attached given value => exact Or.inr ⟨given, value, rfl, rfl, h⟩

/-! ## Items -/

lemma IsWord.form {text : String} (h : IsWord text) : ArgumentForm.of text = .bare := by
  obtain h | rfl := h
  · unfold ArgumentForm.of
    split <;> simp_all
  · rfl

lemma items_word {text : String} (h : IsWord text) (rest : List String) :
    items (text :: rest) = .word text :: items rest := by
  rw [items, h.form]

/-- An option is an item together with its value. -/
lemma WrittenOption.items_arguments {option : WrittenOption} (h : option.IsWritten)
    (rest : List String) : items (option.arguments ++ rest) = option.item :: items rest := by
  cases option with
  | quiet =>
    rw [arguments, List.cons_append, List.nil_append, items]
    rfl
  | apart option value =>
    have hForm : ArgumentForm.of ("--" ++ Literal.literal option)
        = .named (Literal.literal option) none := by
      cases option <;> decide
    rw [arguments, List.cons_append, List.cons_append, List.nil_append, items, hForm]
    simp only [Literal.ofLiteral?_literal, h.2.form, if_true]
    rfl
  | attached option value =>
    have hForm : ArgumentForm.of ("--" ++ Literal.literal option ++ "=" ++ value)
        = .named (Literal.literal option) (some value) := by
      cases option <;> simp [ArgumentForm.of, Literal.literal]
    rw [arguments, List.cons_append, List.nil_append, items, hForm]
    simp only [attachedItem, Literal.ofLiteral?_literal]
    rfl

lemma items_options {options : List WrittenOption} (h : ∀ option ∈ options, option.IsWritten)
    (rest : List String) :
    items (options.flatMap WrittenOption.arguments ++ rest)
      = options.map WrittenOption.item ++ items rest := by
  induction options with
  | nil => rfl
  | cons option options ih =>
    obtain ⟨hFirst, hOthers⟩ := List.forall_mem_cons.1 h
    rw [List.flatMap_cons, List.append_assoc, WrittenOption.items_arguments hFirst, ih hOthers,
      List.map_cons, List.cons_append]

/-! ## Options one behind the other -/

lemma givenValue?_append (wanted : ValueOption) (options others : List WrittenOption) :
    givenValue? wanted (options ++ others)
      = (givenValue? wanted options).or (givenValue? wanted others) :=
  List.findSome?_append

lemma givenValue?_eq_none {wanted : ValueOption} {options : List WrittenOption}
    (h : some wanted ∉ options.map WrittenOption.name?) : givenValue? wanted options = none := by
  refine List.findSome?_eq_none_iff.2 fun option hOption => ?_
  cases option with
  | quiet => rfl
  | apart option value | attached option value =>
    refine if_neg ?_
    rintro rfl
    exact h (List.mem_map.2 ⟨_, hOption, rfl⟩)

lemma accepts_of_givenValue? {wanted : ValueOption} {options : List WrittenOption} {value : String}
    (hWritten : ∀ option ∈ options, option.IsWritten)
    (h : givenValue? wanted options = some value) : wanted.Accepts value := by
  obtain ⟨option, hOption, hValue⟩ := List.exists_of_findSome?_eq_some h
  have hThis := hWritten option hOption
  cases option with
  | quiet => cases hValue
  | apart option found =>
    obtain ⟨rfl, hFound⟩ := Option.ite_none_right_eq_some.1 hValue
    cases hFound
    exact hThis.1
  | attached option found =>
    obtain ⟨rfl, hFound⟩ := Option.ite_none_right_eq_some.1 hValue
    cases hFound
    exact hThis

/-- Behind other options one that stands alone gives its value to itself only. -/
lemma givenValue?_concat {done : List WrittenOption} {option : WrittenOption}
    {given : ValueOption} {value : String} (hItem : option.item = .option given value)
    (hNew : some given ∉ done.map WrittenOption.name?) (wanted : ValueOption) :
    givenValue? wanted (done ++ [option])
      = if given = wanted then some value else givenValue? wanted done := by
  have hLast : givenValue? wanted [option] = if given = wanted then some value else none := by
    cases option with
    | quiet => cases hItem
    | apart | attached =>
      cases hItem
      exact List.findSome?_singleton
  rw [givenValue?_append, hLast]
  split
  · rename_i hSame
    rw [← hSame, givenValue?_eq_none hNew, Option.none_or]
  · exact Option.or_none

namespace CommonOptions

variable {done : List WrittenOption} {option : WrittenOption}

lemma setFlag?_quiet (hNew : none ∉ done.map WrittenOption.name?) :
    (ofWritten done).setFlag? .quiet = some (ofWritten (done ++ [.quiet])) := by
  have hQuiet : .quiet ∉ done := fun h => hNew (List.mem_map.2 ⟨_, h, rfl⟩)
  have hValue (wanted : ValueOption) :
      givenValue? wanted (done ++ [.quiet]) = givenValue? wanted done := by
    rw [givenValue?_append]
    exact Option.or_none
  simp [setFlag?, ofWritten, hQuiet, hValue]

lemma setOption?_written {given : ValueOption} {value : String}
    (hItem : option.item = .option given value) (hAccepts : given.Accepts value)
    (hFile : given ≠ .file) (hNew : some given ∉ done.map WrittenOption.name?) :
    (ofWritten done).setOption? value given = some (ofWritten (done ++ [option])) := by
  have hQuiet : .quiet ≠ option := by
    rintro rfl
    cases hItem
  have hNone := givenValue?_eq_none hNew
  have hValue := givenValue?_concat hItem hNew
  cases given with
  | output =>
    obtain ⟨format, hFormat⟩ := Option.isSome_iff_exists.1 hAccepts
    simp [setOption?, setOnce, ofWritten, hQuiet, hValue, hNone, hFormat]
  | config => simp [setOption?, setOnce, path?, ofWritten, hQuiet, hValue, hNone, if_neg hAccepts]
  | maxDepth | maxInputLength =>
    obtain ⟨n, hLimit⟩ := Option.isSome_iff_exists.1 hAccepts
    simp [setOption?, setOnce, ofWritten, hQuiet, hValue, hNone, hLimit]
  | file => exact absurd rfl hFile

end CommonOptions

/-! ## Before the task and behind it -/

lemma nodup_concat {done options : List WrittenOption} {option : WrittenOption}
    (h : ((done ++ option :: options).map WrittenOption.name?).Nodup) :
    option.name? ∉ done.map WrittenOption.name? ∧
      ((done ++ [option] ++ options).map WrittenOption.name?).Nodup := by
  refine ⟨fun hDone => ?_, by rwa [List.append_assoc, List.singleton_append]⟩
  rw [List.map_append, List.map_cons] at h
  exact (List.nodup_append.1 h).2.2 _ hDone _ List.mem_cons_self rfl

/-- The options before the task are read one behind the other. -/
lemma readRequest_options {done options : List WrittenOption}
    (hWritten : ∀ option ∈ options, option.IsWritten)
    (hOnce : ((done ++ options).map WrittenOption.name?).Nodup)
    (hFile : some .file ∉ options.map WrittenOption.name?) (rest : List Item) :
    readRequest (.ofWritten done) (options.map WrittenOption.item ++ rest)
      = readRequest (.ofWritten (done ++ options)) rest := by
  induction options generalizing done with
  | nil => rw [List.append_nil, List.map_nil, List.nil_append]
  | cons option options ih =>
    obtain ⟨hThis, hOthers⟩ := List.forall_mem_cons.1 hWritten
    obtain ⟨hNew, hOnce⟩ := nodup_concat hOnce
    rw [List.map_cons, List.mem_cons, not_or] at hFile
    have hNext := ih hOthers hOnce hFile.2
    rw [List.append_assoc, List.singleton_append] at hNext
    rw [List.map_cons, List.cons_append, ← hNext]
    obtain rfl | ⟨given, value, hItem, hName, hAccepts⟩ := hThis.eq_quiet_or
    · simp only [WrittenOption.item, readRequest, CommonOptions.setFlag?_quiet hNew]
      rfl
    · rw [hName] at hNew hFile
      have hSet := CommonOptions.setOption?_written hItem hAccepts
        (fun h => hFile.1 (congrArg some h.symm)) hNew
      simp only [hItem, readRequest, hSet]
      rfl

namespace Draft

/-- What has been read behind the task: options, and perhaps the target and the expression. -/
def ofWritten (done : List WrittenOption) (target : Option Target) (expression : Option String) :
    Draft :=
  { options := .ofWritten done, target := target, expression := expression,
    file := givenValue? .file done }

variable {done : List WrittenOption} {option : WrittenOption} {target : Option Target}
  {expression : Option String}

lemma addFlag?_quiet (hNew : none ∉ done.map WrittenOption.name?) :
    (ofWritten done target expression).addFlag? .quiet
      = some (ofWritten (done ++ [.quiet]) target expression) := by
  have hFile : givenValue? .file (done ++ [.quiet]) = givenValue? .file done := by
    rw [givenValue?_append]
    exact Option.or_none
  simp [addFlag?, ofWritten, CommonOptions.setFlag?_quiet hNew, hFile]

lemma addOption?_written {given : ValueOption} {value : String}
    (hItem : option.item = .option given value) (hAccepts : given.Accepts value)
    (hNew : some given ∉ done.map WrittenOption.name?) :
    (ofWritten done target expression).addOption? given value
      = some (ofWritten (done ++ [option]) target expression) := by
  have hValue := givenValue?_concat hItem hNew
  by_cases hFile : given = .file
  · subst hFile
    have hOptions : CommonOptions.ofWritten (done ++ [option]) = .ofWritten done := by
      have hQuiet : .quiet ≠ option := by
        rintro rfl
        cases hItem
      simp [CommonOptions.ofWritten, hValue, hQuiet]
    simp [addOption?, ofWritten, setOnce, path?, givenValue?_eq_none hNew, hValue, hOptions,
      if_neg hAccepts]
  · simp [addOption?, ofWritten, hFile, hValue,
      CommonOptions.setOption?_written hItem hAccepts hFile hNew]

end Draft

/-- The options behind the task are read one behind the other. -/
lemma readBehindTask_options {task : Task} {outer : CommonOptions} {target : Option Target}
    {expression : Option String} {done options : List WrittenOption}
    (hWritten : ∀ option ∈ options, option.IsWritten)
    (hOnce : ((done ++ options).map WrittenOption.name?).Nodup) (rest : List Item) :
    readBehindTask task outer (.ofWritten done target expression)
        (options.map WrittenOption.item ++ rest)
      = readBehindTask task outer (.ofWritten (done ++ options) target expression) rest := by
  induction options generalizing done with
  | nil => rw [List.append_nil, List.map_nil, List.nil_append]
  | cons option options ih =>
    obtain ⟨hThis, hOthers⟩ := List.forall_mem_cons.1 hWritten
    obtain ⟨hNew, hOnce⟩ := nodup_concat hOnce
    have hNext := ih hOthers hOnce
    rw [List.append_assoc, List.singleton_append] at hNext
    rw [List.map_cons, List.cons_append, ← hNext]
    obtain rfl | ⟨given, value, hItem, hName, hAccepts⟩ := hThis.eq_quiet_or
    · simp only [WrittenOption.item, readBehindTask, Draft.addFlag?_quiet hNew]
      rfl
    · rw [hName] at hNew
      simp only [hItem, readBehindTask, Draft.addOption?_written hItem hAccepts hNew]
      rfl

/-! ## Whole lines -/

namespace Line

variable (line : Line)

/-- What stands behind the task counts more, and both places together give the value of an option
that has one. -/
lemma bind_value? {α : Type} {option : ValueOption} {read : String → Option α}
    (hRead : ∀ value, option.Accepts value → (read value).isSome = true) :
    line.value? option >>= read
      = (givenValue? option line.behind >>= read).or (givenValue? option line.before >>= read) := by
  rw [value?]
  cases hBehind : givenValue? option line.behind with
  | none => rfl
  | some value =>
    have hWritten : ∀ option ∈ line.behind, option.IsWritten := fun option h =>
      line.written option (List.mem_append_right _ h)
    have hSome := hRead value (accepts_of_givenValue? hWritten hBehind)
    obtain ⟨a, ha⟩ := Option.isSome_iff_exists.1 hSome
    simp [ha]

lemma within_options :
    (CommonOptions.ofWritten line.behind).within (.ofWritten line.before)
      = { format := line.value? .output >>= Literal.ofLiteral?, quiet := line.quiet,
          settings := line.value? .config,
          limits := ⟨line.limit? .maxDepth, line.limit? .maxInputLength⟩ } := by
  have hFormat : line.value? .output >>= (Literal.ofLiteral? : String → Option OutputFormat) = _ :=
    line.bind_value? fun value h => h
  have hDepth : line.limit? .maxDepth = _ := line.bind_value? fun value h => h
  have hLength : line.limit? .maxInputLength = _ := line.bind_value? fun value h => h
  have hQuiet : line.quiet = (decide (.quiet ∈ line.behind) || decide (.quiet ∈ line.before)) := by
    rw [quiet, Bool.or_comm]
    simp only [List.mem_append, Bool.decide_or]
  rw [hFormat, hDepth, hLength, hQuiet]
  rfl

lemma source?_draft :
    (Draft.ofWritten line.behind (some line.target) line.expression).source?
      = some line.source := by
  have hFile : line.value? .file = givenValue? .file line.behind := by
    rw [value?, givenValue?_eq_none line.fileBehind, Option.or_none]
  rw [Draft.source?, source, hFile, Draft.ofWritten]
  cases hExpression : line.expression with
  | none => cases givenValue? .file line.behind <;> rfl
  | some text =>
    have hNone := givenValue?_eq_none (line.oneSource (by rw [hExpression]; rfl))
    rw [behind, hNone]

/-- The words and options of a line are its items. -/
lemma items_arguments (task : Task) :
    items (line.arguments task) =
      line.before.map WrittenOption.item ++ .word (Literal.literal task) ::
        (line.behindTask.map WrittenOption.item ++ .word (Literal.literal line.target) ::
          (line.behindTarget.map WrittenOption.item ++ (line.expression.toList.map .word ++
            line.behindExpression.map WrittenOption.item))) := by
  have hTask : IsWord (Literal.literal task) := by cases task <;> decide
  have hTarget : IsWord (Literal.literal line.target) := by cases line.target <;> decide
  have hWritten := line.written
  simp only [List.forall_mem_append] at hWritten
  obtain ⟨hBefore, ⟨hBehindTask, hBehindTarget⟩, hBehindExpression⟩ := hWritten
  have hLast : items (line.behindExpression.flatMap WrittenOption.arguments)
      = line.behindExpression.map WrittenOption.item := by
    have hItems := items_options hBehindExpression []
    rwa [items, List.append_nil, List.append_nil] at hItems
  have hExpression : items (line.expression.toList ++
        line.behindExpression.flatMap WrittenOption.arguments)
      = line.expression.toList.map .word ++ line.behindExpression.map WrittenOption.item := by
    cases hText : line.expression with
    | none => exact hLast
    | some text =>
      have hWord := items_word (line.word text hText)
        (line.behindExpression.flatMap WrittenOption.arguments)
      rw [hLast] at hWord
      exact hWord
  rw [arguments, items_options hBefore, items_word hTask, items_options hBehindTask,
    items_word hTarget, items_options hBehindTarget, hExpression]

variable {task : Task} {outer : CommonOptions} {done : List WrittenOption} {target : Target}

lemma readBehindTask_target (rest : List Item) :
    readBehindTask task outer (.ofWritten done none none) (.word (Literal.literal target) :: rest)
      = readBehindTask task outer (.ofWritten done (some target) none) rest := by
  simp only [readBehindTask, Draft.addWord?, Draft.ofWritten, Literal.ofLiteral?_literal]
  rfl

lemma readBehindTask_expression (expression : Option String) (rest : List Item) :
    readBehindTask task outer (.ofWritten done (some target) none)
        (expression.toList.map .word ++ rest)
      = readBehindTask task outer (.ofWritten done (some target) expression) rest := by
  cases expression <;> rfl

lemma invocation?_draft (task : Task) :
    (Draft.ofWritten line.behind (some line.target) line.expression).invocation? task
        (.ofWritten line.before)
      = some (line.invocation task) := by
  have hOptions := line.within_options
  have hSource := line.source?_draft
  simp only [Draft.invocation?, hSource]
  simp only [Draft.ofWritten, Option.bind_eq_bind, Option.bind_some, hOptions]
  rfl

/-- Behind the task the target, the expression and the options around them are read. -/
lemma readBehindTask_items (task : Task) :
    readBehindTask task (.ofWritten line.before) (.ofWritten [] none none)
        (line.behindTask.map WrittenOption.item ++ .word (Literal.literal line.target) ::
          (line.behindTarget.map WrittenOption.item ++ (line.expression.toList.map .word ++
            line.behindExpression.map WrittenOption.item)))
      = some (.run (line.invocation task)) := by
  have hWritten := line.written
  simp only [List.forall_mem_append] at hWritten
  obtain ⟨-, ⟨hBehindTask, hBehindTarget⟩, hBehindExpression⟩ := hWritten
  have hOnce := line.onceBehind
  have hOnceTarget : ((line.behindTask ++ line.behindTarget).map WrittenOption.name?).Nodup := by
    rw [List.map_append] at hOnce
    exact (List.nodup_append.1 hOnce).1
  have hOnceTask : (([] ++ line.behindTask).map WrittenOption.name?).Nodup := by
    rw [List.map_append] at hOnceTarget
    exact (List.nodup_append.1 hOnceTarget).1
  have hLast := @readBehindTask_options task (.ofWritten line.before) (some line.target)
    line.expression _ _ hBehindExpression hOnce []
  rw [List.append_nil] at hLast
  rw [readBehindTask_options hBehindTask hOnceTask, List.nil_append, readBehindTask_target,
    readBehindTask_options hBehindTarget hOnceTarget, readBehindTask_expression, hLast,
    readBehindTask, ← behind, invocation?_draft]
  rfl

/-- **A command line asks for what is said on it.**  With every task, the options stand in whatever
order and in whatever way they are written. -/
lemma ofArguments?_arguments (task : Task) :
    Request.ofArguments? (line.arguments task) = some (.run (line.invocation task)) := by
  have hBefore : ∀ option ∈ line.before, option.IsWritten := fun option h =>
    line.written option (List.mem_append_left _ h)
  have hNotHelp : Literal.literal task ≠ "help" := by cases task <;> decide
  have hOuter := @readRequest_options [] _ hBefore line.onceBefore line.fileBehind
  rw [Request.ofArguments?, items_arguments]
  refine (hOuter _).trans ?_
  rw [List.nil_append, readRequest, if_neg hNotHelp, Literal.ofLiteral?_literal]
  exact line.readBehindTask_items task

end Line

end PolicyText.CommandLine
