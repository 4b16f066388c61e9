import PolicyText.Proofs.Build.Collect
import PolicyText.Proofs.Build.Expression
import PolicyText.Proofs.Build.Reachable

/-!
# What limits do

Limits cut the reading of a text off and change nothing else.  There are two ways to say so.

Of any two runs under limits of which one allows no greater depth than the other, the former does
what the latter does, or it stops at a command that is too deep.  `CutOff` says this of two
computations; it is kept by sequences of steps (`CutOff.bind`), and for this reason all readers have
it as soon as the entering of a command has.

Of a text that can be read without limits more can be said: the commands are entered in the order in
which they stand in the text, so that the reading is that of `enterAll` along the commands
(`collect_enterAll`), and the first of them that is too deep is the one that is reported.
-/

namespace PolicyText

/-! ## Two runs -/

/-- A limit allows every depth that another one does. -/
def Limits.DepthLE (limits others : Limits) : Prop :=
  ∀ most ∈ others.maxDepth, ∃ least ∈ limits.maxDepth, least ≤ most

/-- A computation under limits does what another one does, or the depth of a command exceeds the
limit. -/
def CutOff {α : Type} (limits : Limits) (bounded other : Except ParseError α) : Prop :=
  bounded = other ∨
    ∃ most position, limits.maxDepth = some most ∧ bounded = .error (.depthExceeded most position)

section CutOff

variable {α β : Type} {limits others : Limits}

lemma CutOff.refl (limits : Limits) (outcome : Except ParseError α) :
    CutOff limits outcome outcome :=
  Or.inl rfl

lemma CutOff.bind {bounded other : Except ParseError α} {next more : α → Except ParseError β}
    (hFirst : CutOff limits bounded other) (hNext : ∀ a, CutOff limits (next a) (more a)) :
    CutOff limits (bounded >>= next) (other >>= more) := by
  obtain rfl | ⟨most, position, hMost, rfl⟩ := hFirst
  · cases bounded with
    | error e => exact Or.inl rfl
    | ok a => exact hNext a
  · exact Or.inr ⟨most, position, hMost, rfl⟩

lemma Limits.enter_eq_error {most depth : Nat} (hLimit : limits.maxDepth = some most)
    (h : most < depth) (position : Nat) :
    limits.enter depth position = .error (.depthExceeded most position) := by
  simp only [enter, hLimit, if_pos h]

lemma Limits.enter_eq_ok {most depth : Nat} (hLimit : limits.maxDepth = some most)
    (h : depth ≤ most) (position : Nat) : limits.enter depth position = .ok () := by
  simp only [enter, hLimit, if_neg (Nat.not_lt.2 h)]

/-- A command that is entered under a limit is entered under a greater one. -/
lemma Limits.DepthLE.cutOff_enter (h : limits.DepthLE others) (depth position : Nat) :
    CutOff limits (limits.enter depth position) (others.enter depth position) := by
  cases hLimit : limits.maxDepth with
  | none =>
    have hOther : others.maxDepth = none := by
      refine Option.eq_none_iff_forall_not_mem.2 fun most hMost => ?_
      obtain ⟨least, hLeast, -⟩ := h most hMost
      rw [hLimit] at hLeast
      cases hLeast
    refine Or.inl ?_
    rw [Limits.enter, Limits.enter, hLimit, hOther]
  | some least =>
    by_cases hDeep : least < depth
    · exact Or.inr ⟨least, position, hLimit, enter_eq_error hLimit hDeep position⟩
    · refine Or.inl ?_
      rw [enter_eq_ok hLimit (Nat.not_lt.1 hDeep)]
      cases hOther : others.maxDepth with
      | none => rw [Limits.enter, hOther]
      | some most =>
        obtain ⟨bound, hBound, hLE⟩ := h most hOther
        rw [hLimit] at hBound
        cases hBound
        rw [enter_eq_ok hOther (by omega)]

/-- What is collected under a limit is what is collected under a greater one. -/
lemma Limits.DepthLE.cutOff_collect (h : limits.DepthLE others) (depth : Nat) (parent : Command)
    (arguments : Arguments) :
    CutOff limits (collect limits depth parent arguments)
      (collect others depth parent arguments) := by
  induction arguments generalizing depth parent with
  | closed => exact .refl _ _
  | fault error => exact .refl _ _
  | content text rest ih =>
    rw [collect_content, collect_content]
    exact (ih depth parent).bind fun _ => .refl _ _
  | options raw rest ih =>
    rw [collect_options, collect_options]
    exact (CutOff.refl _ _).bind fun _ => (ih depth parent).bind fun _ => .refl _ _
  | reference entries rest ih =>
    rw [collect_reference, collect_reference]
    exact (CutOff.refl _ _).bind fun _ => (ih depth parent).bind fun _ => .refl _ _
  | command position child inner rest ihInner ih =>
    rw [collect_command, collect_command]
    split
    · exact (h.cutOff_enter _ _).bind fun _ => (ihInner _ _).bind fun _ =>
        (CutOff.refl _ _).bind fun _ => (ih depth parent).bind fun _ => .refl _ _
    · exact .refl _ _

lemma Limits.DepthLE.cutOff_readExpression (h : limits.DepthLE others) (category : Category)
    (c : Cursor) :
    CutOff limits (readExpression limits category c) (readExpression others category c) := by
  refine (CutOff.refl _ _).bind fun (command, opened) => ?_
  simp only
  split
  · exact (h.cutOff_enter _ _).bind fun _ => (h.cutOff_collect _ _ _).bind fun _ => .refl _ _
  · exact .refl _ _

lemma Limits.DepthLE.cutOff_parseNode (h : limits.DepthLE others) (category : Category)
    {text : List Char} (hLength : limits.checkLength text = others.checkLength text) :
    CutOff limits (parseNode limits category text) (parseNode others category text) := by
  rw [parseNode_eq, parseNode_eq, hLength]
  exact (CutOff.refl _ _).bind fun _ => (h.cutOff_readExpression _ _).bind fun _ => .refl _ _

end CutOff

/-! ## The commands of a text -/

/-- Enters commands in their order. -/
def enterAll (limits : Limits) : List Occurrence → Except ParseError Unit
  | [] => .ok ()
  | found :: rest => do
    limits.enter found.depth found.position
    enterAll limits rest

lemma enterAll_append (limits : Limits) (front back : List Occurrence) :
    enterAll limits (front ++ back) = (do
      enterAll limits front
      enterAll limits back) := by
  induction front with
  | nil => rfl
  | cons found front ih => simp only [List.cons_append, enterAll, ih, bind_assoc]

/-- Where everything is collected without limits, under limits the commands are entered in their
order and the same is collected. -/
lemma collect_enterAll {depth : Nat} {parent : Command} {arguments : Arguments} {args : Collected}
    (h : collect {} depth parent arguments = .ok args) (limits : Limits) :
    collect limits depth parent arguments = (do
      enterAll limits (arguments.occurrences (depth + 1))
      .ok args) := by
  induction arguments generalizing depth parent args with
  | closed => exact h
  | fault error => cases h
  | content text rest ih =>
    rw [collect_content] at h
    obtain ⟨others, hRest, hArgs⟩ := Except.bind_eq_ok.1 h
    simp only [collect_content, ih hRest, bind_assoc]
    exact congrArg _ (funext fun _ => hArgs)
  | options raw rest ih =>
    rw [collect_options] at h
    obtain ⟨o, hOptions, h⟩ := Except.bind_eq_ok.1 h
    obtain ⟨others, hRest, hArgs⟩ := Except.bind_eq_ok.1 h
    simp only [collect_options, hOptions, ih hRest, bind_assoc]
    exact congrArg _ (funext fun _ => hArgs)
  | reference entries rest ih =>
    rw [collect_reference] at h
    obtain ⟨r, hReference, h⟩ := Except.bind_eq_ok.1 h
    obtain ⟨others, hRest, hArgs⟩ := Except.bind_eq_ok.1 h
    simp only [collect_reference, hReference, ih hRest, bind_assoc]
    exact congrArg _ (funext fun _ => hArgs)
  | command position child inner rest ihInner ih =>
    obtain ⟨hAdmits, -, innerArgs, add, others, hInner, hComplete, hRest, rfl⟩ :=
      collect_command_eq_ok.1 h
    rw [collect_command, if_pos hAdmits, ihInner hInner, ih hRest, Arguments.occurrences, enterAll,
      enterAll_append]
    simp only [bind_assoc, hComplete, Except.ok_bind]

/-- Where a text is read without limits, under limits its commands are entered in their order and
the same is read. -/
lemma readExpression_enterAll {category : Category} {text : String} {node : Node} {last : Cursor}
    (h : readExpression {} category (.first text) = .ok (node, last)) (limits : Limits) :
    readExpression limits category (.first text) = (do
      enterAll limits (occurrences text)
      .ok (node, last)) := by
  obtain ⟨command, opened, hKeyword, hAccepts, -, args, hCollect, hCount, hBuild, hLast⟩ :=
    readExpression_eq_ok.1 h
  rw [occurrences_eq hKeyword, enterAll, readExpression, hKeyword]
  simp only [Except.ok_bind, if_pos hAccepts, readCommand, collect_enterAll hCollect, bind_assoc,
    hCount, hBuild, hLast]

/-! ## The deepest command -/

/-- The depth of the most deeply nested command of a text. -/
def nesting (text : String) : Nat :=
  (occurrences text).foldr (fun found most => max found.depth most) 0

lemma nesting_le_iff {text : String} {most : Nat} :
    nesting text ≤ most ↔ ∀ found ∈ occurrences text, found.depth ≤ most := by
  rw [nesting]
  induction occurrences text with
  | nil => simp
  | cons found rest ih => rw [List.foldr_cons, Nat.max_le, ih, List.forall_mem_cons]

variable {limits : Limits} {most : Nat}

lemma enterAll_eq_ok {found : List Occurrence} (hLimit : limits.maxDepth = some most)
    (h : ∀ one ∈ found, one.depth ≤ most) : enterAll limits found = .ok () := by
  induction found with
  | nil => rfl
  | cons one rest ih =>
    obtain ⟨hOne, hRest⟩ := List.forall_mem_cons.1 h
    rw [enterAll, Limits.enter_eq_ok hLimit hOne, ih hRest, Except.ok_bind]

/-- Of commands that stand in their order the first one that is too deep is reported. -/
lemma exists_enterAll_eq_error {found : List Occurrence} (hLimit : limits.maxDepth = some most)
    (hOrder : found.Pairwise fun a b => a.position < b.position)
    (h : ∃ one ∈ found, most < one.depth) :
    ∃ one ∈ found, most < one.depth ∧
      (∀ other ∈ found, most < other.depth → one.position ≤ other.position) ∧
      enterAll limits found = .error (.depthExceeded most one.position) := by
  induction found with
  | nil =>
    obtain ⟨one, hOne, -⟩ := h
    cases hOne
  | cons first rest ih =>
    obtain ⟨hFirst, hRest⟩ := List.pairwise_cons.1 hOrder
    by_cases hDeep : most < first.depth
    · have hEnter := Limits.enter_eq_error hLimit hDeep first.position
      refine ⟨first, List.mem_cons_self, hDeep, ?_, by rw [enterAll, hEnter]; rfl⟩
      refine List.forall_mem_cons.2 ⟨fun _ => Nat.le_refl _, fun other hOther _ => ?_⟩
      exact Nat.le_of_lt (hFirst other hOther)
    · have hEnter := Limits.enter_eq_ok hLimit (Nat.not_lt.1 hDeep) first.position
      have hLater : ∃ one ∈ rest, most < one.depth := by
        obtain ⟨one, hOne, hOneDeep⟩ := h
        obtain rfl | hOne := List.mem_cons.1 hOne
        · exact absurd hOneDeep hDeep
        · exact ⟨one, hOne, hOneDeep⟩
      obtain ⟨one, hOne, hOneDeep, hLeast, hEnterAll⟩ := ih hRest hLater
      refine ⟨one, List.mem_cons_of_mem _ hOne, hOneDeep, ?_, ?_⟩
      · exact List.forall_mem_cons.2 ⟨fun hOther => absurd hOther hDeep, hLeast⟩
      · rw [enterAll, hEnter, Except.ok_bind, hEnterAll]

/-! ## Whole texts -/

/-- A text is refused for its length exactly if it is longer than the limit. -/
lemma Category.parse_eq_inputTooLong {category : Category} {text : String} {length : Nat} :
    category.parse limits text = .error (.inputTooLong most length) ↔
      limits.maxInputLength = some most ∧ most < text.length ∧ length = text.length := by
  rw [Category.parse_eq_error, parseNode_eq_error]
  rw [← String.length_toList]
  constructor
  · rintro (hLength | ⟨-, hRead | ⟨node, last, -, -, hError⟩⟩)
    · obtain ⟨_, hMost, hLong, ⟨⟩⟩ := Limits.checkLength_eq_error.1 hLength
      exact ⟨hMost, hLong, rfl⟩
    · exact (readExpression_error hRead).elim
    · cases hError
  · rintro ⟨hMost, hLong, rfl⟩
    exact Or.inl (Limits.checkLength_eq_error.2 ⟨most, hMost, hLong, rfl⟩)

lemma Category.cutOff_parse {category : Category} {others : Limits} {text : String}
    (h : CutOff limits (parseNode limits category text.toList)
      (parseNode others category text.toList)) :
    CutOff limits (category.parse limits text) (category.parse others text) := by
  rw [← Category.parse_map_node, ← Category.parse_map_node] at h
  obtain hSame | ⟨least, position, hLeast, hDeep⟩ := h
  · refine Or.inl ?_
    cases hOther : category.parse others text with
    | error e =>
      rw [hOther, Except.map, Except.map_eq_error] at hSame
      exact hSame
    | ok x =>
      rw [hOther, Except.map] at hSame
      obtain ⟨y, hParse, hNode⟩ := Except.map_eq_ok.1 hSame
      rw [hParse, Category.node_injective category hNode]
  · exact Or.inr ⟨least, position, hLeast, Except.map_eq_error.1 hDeep⟩

/-- Where a text is read without limits, under limits for which it is not too long its commands are
entered in their order, and the same is read. -/
lemma Category.parse_enterAll {category : Category} {text : String} {x : category.Entity}
    (h : category.parse {} text = .ok x) (hLength : limits.checkLength text.toList = .ok ()) :
    category.parse limits text = (do
      enterAll limits (occurrences text)
      .ok x) := by
  obtain ⟨-, last, hRead, hEnd⟩ := parseNode_eq_ok.1 (Category.parse_eq_ok.1 h)
  have hRead := readExpression_enterAll hRead limits
  cases hEnter : enterAll limits (occurrences text) with
  | error e =>
    rw [hEnter] at hRead
    exact Category.parse_eq_error.2 (parseNode_eq_error.2 (Or.inr ⟨hLength, Or.inl hRead⟩))
  | ok done =>
    rw [hEnter] at hRead
    exact Category.parse_eq_ok.2 (parseNode_eq_ok.2 ⟨hLength, last, hRead, hEnd⟩)

/-- **Limits only ever cut a reading off.**  A text is refused for its length exactly if it has more
characters than the limit, whatever they are.  If it has not, what is read under limits is what is
read without them, or the depth of a command exceeds the limit.  A limit that stops no command may
be raised without any difference.  And if a text can be read without limits, then under a limit for
the depth the same is read exactly if the deepest command of the text lies within the limit;
otherwise the error is reported at the keyword of the first command in the text that does not. -/
theorem parse_limits (category : Category) (limits : Limits) (text : String) :
    (∀ most length, category.parse limits text = .error (.inputTooLong most length) ↔
        limits.maxInputLength = some most ∧ most < text.length ∧ length = text.length) ∧
      ((∀ most ∈ limits.maxInputLength, text.length ≤ most) →
        category.parse limits text = category.parse {} text ∨
          ∃ most position, limits.maxDepth = some most ∧
            category.parse limits text = .error (.depthExceeded most position)) ∧
      (∀ most more, most ≤ more →
        (∀ position, category.parse { limits with maxDepth := some most } text
          ≠ .error (.depthExceeded most position)) →
        category.parse { limits with maxDepth := some more } text
          = category.parse { limits with maxDepth := some most } text) ∧
      ∀ x, category.parse {} text = .ok x →
        (∀ most ∈ limits.maxInputLength, text.length ≤ most) → ∀ most,
          (category.parse { limits with maxDepth := some most } text = .ok x
            ↔ nesting text ≤ most) ∧
          (most < nesting text →
            ∃ found ∈ occurrences text, most < found.depth ∧
              (∀ other ∈ occurrences text, most < other.depth →
                found.position ≤ other.position) ∧
              found.command.keyword.toList <+: text.toList.drop found.position ∧
              category.parse { limits with maxDepth := some most } text
                = .error (.depthExceeded most found.position)) := by
  refine ⟨fun most length => Category.parse_eq_inputTooLong, fun hLength => ?_,
    fun most more hLE hDeep => ?_, fun x hx hLength most => ?_⟩
  · have hDepth : limits.DepthLE {} := by rintro most ⟨⟩
    have hCheck : limits.checkLength text.toList = Limits.checkLength {} text.toList :=
      Limits.checkLength_eq_ok (by rwa [String.length_toList])
    exact Category.cutOff_parse (hDepth.cutOff_parseNode category hCheck)
  · have hDepth : Limits.DepthLE { limits with maxDepth := some most }
        { limits with maxDepth := some more } := by
      rintro _ ⟨⟩
      exact ⟨most, rfl, hLE⟩
    have hLength : Limits.checkLength { limits with maxDepth := some most } text.toList
        = Limits.checkLength { limits with maxDepth := some more } text.toList := rfl
    have hCut := Category.cutOff_parse (hDepth.cutOff_parseNode category hLength)
    obtain hSame | ⟨_, position, ⟨⟩, hError⟩ := hCut
    · exact hSame.symm
    · exact absurd hError (hDeep position)
  · have hCheck : Limits.checkLength { limits with maxDepth := some most } text.toList = .ok () :=
      Limits.checkLength_eq_ok (by rwa [String.length_toList])
    have hEnter := Category.parse_enterAll hx hCheck
    have hLimit : ({ limits with maxDepth := some most } : Limits).maxDepth = some most := rfl
    have hTooDeep (h : most < nesting text) := exists_enterAll_eq_error hLimit
      (occurrences_pairwise text) (by simpa using mt nesting_le_iff.2 (Nat.not_le.2 h))
    refine ⟨⟨fun h => ?_, fun h => ?_⟩, fun h => ?_⟩
    · by_contra hDeep
      obtain ⟨found, -, -, -, hError⟩ := hTooDeep (Nat.not_le.1 hDeep)
      rw [hEnter, hError] at h
      cases h
    · rw [hEnter, enterAll_eq_ok rfl (nesting_le_iff.1 h), Except.ok_bind]
    · obtain ⟨found, hFound, hDeep, hLeast, hError⟩ := hTooDeep h
      refine ⟨found, hFound, hDeep, hLeast, keyword_of_mem_occurrences hFound, ?_⟩
      rw [hEnter, hError]
      rfl

/-- Conditions that are nested four deep. -/
def nestedConditions : String := "*not(*any(#true(), *all(#false())))"

/-- Four levels are read under a limit of four as without a limit, also under a greater one, and not
under a limit of three. -/
theorem parse_limits_nested :
    ∃ x, Category.condition.parse {} nestedConditions = .ok x ∧ nesting nestedConditions = 4 ∧
      Category.condition.parse { maxDepth := some 4 } nestedConditions = .ok x ∧
      Category.condition.parse { maxDepth := some 9 } nestedConditions = .ok x ∧
      ∃ found ∈ occurrences nestedConditions, 3 < found.depth ∧
        Category.condition.parse { maxDepth := some 3 } nestedConditions
          = .error (.depthExceeded 3 found.position) := by
  obtain ⟨x, hx⟩ := Except.exists_eq_ok
    (by decide +kernel : (Category.condition.parse {} nestedConditions).isOk = true)
  have hNesting : nesting nestedConditions = 4 := by decide +kernel
  obtain ⟨-, -, hRaise, hDepth⟩ := parse_limits .condition {} nestedConditions
  have hFour := ((hDepth x hx nofun 4).1).2 (Nat.le_of_eq hNesting)
  have hNine := hRaise 4 9 (by decide) (by rw [hFour]; nofun)
  obtain ⟨found, hFound, hDeep, -, -, hError⟩ := (hDepth x hx nofun 3).2 (by rw [hNesting]; decide)
  exact ⟨x, hx, hNesting, hFour, hNine.trans hFour, found, hFound, hDeep, hError⟩

end PolicyText
