import PolicyText.Proofs.Build.Append
import PolicyText.Proofs.Print.Basic

/-!
# Texts as arguments

A text that can be read on its own means the same thing among the arguments of a command
(`parse_compose`).  It has been read from its own beginning and up to its own end, and is now found
behind other arguments and in front of a comma or a parenthesis; that this makes no difference is
what `ReadsArguments.continues` says.  The induction is on the list of the texts, and each of them
leaves the loop over arguments at the comma or the parenthesis behind it.
-/

namespace PolicyText

/-- The text of a command whose arguments are given texts, with commas between them. -/
def Command.applied (command : Command) (texts : List String) : String :=
  command.keyword ++ "(" ++ ",".intercalate texts ++ ")"

lemma collect_depth (depth other : Nat) (parent : Command) (arguments : Arguments) :
    collect {} depth parent arguments = collect {} other parent arguments := by
  induction arguments generalizing depth other parent with
  | closed => rfl
  | fault error => rfl
  | content text rest ih => simp only [collect_content, ih depth other]
  | options raw rest ih => simp only [collect_options, ih depth other]
  | reference entries rest ih => simp only [collect_reference, ih depth other]
  | command position child inner rest ihInner ih =>
    simp only [collect_command, ih depth other, ihInner (depth + 1) (other + 1)]
    rfl

/-- An expression that is read on its own is found as an argument: a command that is built as the
expression is. -/
lemma readArguments_expression {category : Category} {text : List Char} {node : Node}
    (h : parseNode {} category text = .ok node) (before : Nat) {d : Char} (tail : List Char)
    (hd : isFiller d = false) :
    ∃ position child inner args, category.accepts child.kind = true ∧
      (∀ depth, collect {} depth child inner = .ok args) ∧ child.checkCount args = .ok () ∧
      child.build args = .ok node ∧
      ∀ keyword start, readArguments keyword start ⟨before, text ++ d :: tail⟩
        = (readArguments keyword start ⟨before + text.length, d :: tail⟩).map
            (.command position child inner) id := by
  obtain ⟨-, last, hExpression, hEnd⟩ := parseNode_eq_ok.1 h
  have hPosition := position_of_readExpression hExpression hEnd
  obtain ⟨child, opened, hKeyword, hAccepts, -, args, hCollect, hCount, hBuild, hLast⟩ :=
    readExpression_eq_ok.1 hExpression
  obtain ⟨-, hReference, hOptions⟩ := Category.ne_of_accepts hAccepts
  have hFirst : (Cursor.start text).skipFiller.rest ≠ [] := by
    intro hNil
    rw [scanKeyword_of_nil hNil] at hKeyword
    cases hKeyword
  have hStart : Cursor.skipFiller ⟨before, text ++ d :: tail⟩
      = (Cursor.start text).skipFiller.within before (d :: tail) :=
    Cursor.skipWhile_within hFirst before (d :: tail)
  cases hPlace : (Cursor.start text).skipFiller with
  | mk position rest =>
    rw [hPlace] at hKeyword hCollect hLast hFirst hStart
    obtain ⟨sigil, more, rfl⟩ := List.exists_cons_of_ne_nil hFirst
    have hClass := class_of_scanKeyword hKeyword
    have hLarger := scanKeyword_within hKeyword before (d :: tail)
    obtain ⟨hArgs, hInner⟩ := (readsArguments child.keyword position (opened.advance 1)).continues
      before (d :: tail) (before + position)
    rw [← advance_within_of_scanKeyword hKeyword, hLast] at hInner
    rw [← advance_within_of_scanKeyword hKeyword] at hArgs
    have hCollected := hArgs.collect_kept {} 1 child
    rw [hCollect] at hCollected
    have hBehind : last.continued before (d :: tail) = ⟨before + text.length, d :: tail⟩ := by
      have hSkip := Cursor.skipWhile_within_of_nil hEnd isFiller before (d :: tail)
      rwa [List.takeWhile_cons_of_neg (by simp [hd]), List.dropWhile_cons_of_neg (by simp [hd]),
        hPosition] at hSkip
    refine ⟨before + position, child, (readArguments child.keyword (before + position)
      ((opened.within before (d :: tail)).advance 1)).1, args, hAccepts, fun depth => ?_, hCount,
      hBuild, fun keyword start => ?_⟩
    · rw [collect_depth depth 1]
      exact hCollected
    · rw [← readArguments_skipFiller, hStart, Cursor.within_cons]
      rw [Cursor.within_cons] at hLarger
      rw [readArguments_command hClass hOptions hReference hLarger (Prod.ext rfl hInner), hBehind]

/-- Texts that are read on their own are found as arguments, one after the other, and what they are
read as are the children of the command. -/
lemma readArguments_intercalate {category : Category} {parent : Command}
    (hParent : ∀ kind, category.accepts kind = true → parent.accepts kind = true)
    {texts : List (List Char)} {nodes : List Node}
    (h : List.Forall₂ (fun text node => parseNode {} category text = .ok node) texts nodes)
    (hTexts : texts ≠ []) (keyword : String) (start position : Nat) (tail : List Char) :
    ∃ arguments,
      readArguments keyword start ⟨position, [','].intercalate texts ++ ')' :: tail⟩
          = (arguments, .ok (Cursor.skipFiller
              ⟨position + ([','].intercalate texts).length + 1, tail⟩)) ∧
        ∀ depth, collect {} depth parent arguments = .ok { children := nodes } := by
  have hCommand {child : Command} {place : Nat} {inner rest : Arguments} {args others : Collected}
      {node : Node} (hAccepts : category.accepts child.kind = true)
      (hInner : ∀ depth, collect {} depth child inner = .ok args)
      (hCount : child.checkCount args = .ok ()) (hBuild : child.build args = .ok node)
      (depth : Nat) (hRest : collect {} depth parent rest = .ok others) :
      collect {} depth parent (.command place child inner rest) = .ok (others.consChild node) := by
    obtain ⟨hConstraint, -, -⟩ := Category.ne_of_accepts hAccepts
    have hComplete : child.complete args = .ok (Collected.consChild node) := by
      rw [Command.complete, hCount, Except.ok_bind, Command.attach, if_neg hConstraint, hBuild]
      rfl
    exact collect_command_eq_ok.2 ⟨Or.inr (hParent _ hAccepts), rfl, args, _, others, hInner _,
      hComplete, hRest, rfl⟩
  induction h generalizing position with
  | nil => exact absurd rfl hTexts
  | @cons text node texts nodes hText hRest ih =>
    cases texts with
    | nil =>
      cases hRest
      obtain ⟨place, child, inner, args, hAccepts, hInner, hCount, hBuild, hRead⟩ :=
        readArguments_expression hText position (d := ')') tail rfl
      have hClosed (depth : Nat) : collect {} depth parent .closed = .ok {} := rfl
      refine ⟨.command place child inner .closed, ?_, fun depth =>
        hCommand hAccepts hInner hCount hBuild depth (hClosed depth)⟩
      rw [List.intercalate_singleton, hRead, readArguments_closing]
      rfl
    | cons other texts =>
      obtain ⟨place, child, inner, args, hAccepts, hInner, hCount, hBuild, hRead⟩ :=
        readArguments_expression hText position (d := ',')
          ([','].intercalate (other :: texts) ++ ')' :: tail) rfl
      obtain ⟨rest, hReadRest, hCollect⟩ := ih (List.cons_ne_nil _ _)
        (position + text.length + 1)
      refine ⟨.command place child inner rest, ?_, fun depth =>
        hCommand hAccepts hInner hCount hBuild depth (hCollect depth)⟩
      rw [List.intercalate_cons_cons, List.append_assoc, List.append_assoc, List.cons_append,
        List.nil_append, hRead, passesOver_readArguments keyword start _ ',' _ rfl, hReadRest]
      simp only [List.length_append, List.length_cons, List.length_nil, Nat.add_assoc,
        Nat.zero_add]
      rfl

/-- A command is read from the texts of its arguments as what is built of the entities that they
are read as. -/
lemma Category.parse_applied (category outer : Category) {parent : Command} {texts : List String}
    {entities : List category.Entity} {x : outer.Entity}
    (hRoot : outer.accepts parent.kind = true)
    (hParent : ∀ kind, category.accepts kind = true → parent.accepts kind = true)
    (h : List.Forall₂ (fun text entity => category.parse {} text = .ok entity) texts entities)
    (hTexts : texts ≠ [])
    (hCount : parent.checkCount { children := entities.map category.node } = .ok ())
    (hBuild : parent.build { children := entities.map category.node } = .ok (outer.node x)) :
    outer.parse {} (parent.applied texts) = .ok x := by
  have hNodes : List.Forall₂ (fun text node => parseNode {} category text = .ok node)
      (texts.map String.toList) (entities.map category.node) :=
    List.forall₂_map_left_iff.2 (List.forall₂_map_right_iff.2
      (h.imp fun _ _ hText => Category.parse_eq_ok.1 hText))
  have hText : (parent.applied texts).toList = parent.keyword.toList ++
      ([] ++ '(' :: ([','].intercalate (texts.map String.toList) ++ [')'])) := by
    simp [Command.applied, String.toList_intercalate]
  obtain ⟨sigil, tail, hKeyword, hClass⟩ := parent.exists_sigil
  have hStart : (Cursor.start (parent.applied texts).toList).skipFiller
      = Cursor.start (parent.applied texts).toList := by
    rw [hText, hKeyword]
    exact Cursor.skipWhile_cons_of_neg 0 (isFiller_eq_false (by rw [hClass]; decide))
  have hScan := scanKeyword_written parent
    ([','].intercalate (texts.map String.toList) ++ [')']) 0 (List.forall_mem_nil _)
  rw [← hText] at hScan
  obtain ⟨arguments, hRead, hCollect⟩ := readArguments_intercalate hParent hNodes
    (by simpa using hTexts) parent.keyword 0 (0 + parent.keyword.toList.length + 0 + 1) []
  have hArguments := congrArg Prod.fst hRead
  have hLast := congrArg Prod.snd hRead
  have hExpression := readExpression_eq_ok.2 ⟨parent, _, hScan, hRoot, rfl, _,
    (congrArg _ hArguments).trans (hCollect 1), hCount, hBuild, hLast⟩
  exact Category.parse_eq_ok.2 (parseNode_eq_ok.2
    ⟨rfl, _, (congrArg (readExpression {} outer) hStart).trans hExpression, rfl⟩)

/-! ## What is built -/

lemma build_composite_children {logic : Logic} (hLogic : logic ≠ .nOf)
    (conditions : List Condition) :
    (Command.composite logic).build { children := conditions.map .condition }
      = .ok (.condition (.composite {} logic (conditions.map .value) {})) := by
  have hSlot (c : Condition) :
      (Node.condition c).conditionSlot (.composite logic) = .ok (.value c) := rfl
  have hSlots := Except.mapM_map_eq_ok hSlot conditions
  simp only [Command.build, Command.kind, buildComposite, Command.logic?, Command.require,
    Collected.rejectContents, Collected.rejectConstraint, checkMinimum, if_neg hLogic, hSlots, bind,
    Except.bind]
  rfl

lemma build_policySet_children (logic : CombinationLogic) {policies : List Policy}
    (hPolicies : policies ≠ []) :
    (Command.policySet logic).build { children := policies.map .policy }
      = .ok (.policy (.set {} logic (policies.map fun p => .plain (.value p)) {})) := by
  have hParts : setParts (.policySet logic) (policies.map .policy)
      = .ok (policies.map fun p => .plain (.value p), []) := by
    clear hPolicies
    induction policies with
    | nil => rfl
    | cons p policies ih =>
      rw [List.map_cons, setParts, ih]
      rfl
  have hSome : (policies.map fun p => Member.plain (.value p)).isEmpty = false := by
    simpa using hPolicies
  simp only [Command.build, Command.kind, buildPolicySet, Command.combination?, Command.require,
    Collected.rejectContents, hParts, hSome, bind, Except.bind, Bool.false_eq_true, if_false]
  rfl

lemma build_dynamicVariable_children (resolvers : List Resolver) :
    Command.dynamicVariable.build { children := resolvers.map .resolver }
      = .ok (.variable (.dynamic { resolvers := resolvers.map .value })) := by
  have hSlot (r : Resolver) :
      (Node.resolver r).resolverSlot .dynamicVariable = .ok (.value r) := rfl
  have hSlots := Except.mapM_map_eq_ok hSlot resolvers
  simp only [Command.build, Command.kind, buildDynamicVariable, Collected.rejectContents,
    Collected.rejectConstraint, hSlots, bind, Except.bind]
  rfl

lemma build_atomic_children {operation : Operation} {operands : List Variable}
    (hArity : operands.length = operation.arity) :
    (Command.atomic operation).build { children := operands.map .variable }
      = .ok (.condition (.atomic { operation := operation, args := operands.map .value })) := by
  have hSlot (v : Variable) :
      (Node.variable v).variableSlot (.atomic operation) = .ok (.value v) := rfl
  have hSlots := Except.mapM_map_eq_ok hSlot operands
  have hLength : ¬ (operands.map Node.variable).length ≠ operation.arity := by
    rw [List.length_map, hArity]
    exact not_not_intro rfl
  simp only [Command.build, Command.kind, buildAtomic, Command.operation?, Command.require,
    Collected.rejectContents, Collected.rejectConstraint, if_neg hLength, hSlots, bind, Except.bind]
  rfl

/-! ## What is read -/

lemma Command.checkCount_children {command : Command} {children : List Node}
    (hLeast : command.leastArguments ≤ children.length)
    (hMost : ∀ most ∈ command.mostArguments?, children.length ≤ most) :
    command.checkCount { children := children } = .ok () :=
  Command.checkCount_eq_ok (by simpa [Collected.count] using hLeast)
    (by simpa [Collected.count] using hMost)

/-- A combination of conditions is read from their texts, a negation from a single one. -/
lemma Condition.parse_composite_applied {logic : Logic} {texts : List String}
    {conditions : List Condition} (hLogic : logic ≠ .nOf) (hTexts : texts ≠ [])
    (hNot : logic = .not → texts.length = 1)
    (h : List.Forall₂ (fun text c => Condition.parse {} text = .ok c) texts conditions) :
    Condition.parse {} ((Command.composite logic).applied texts)
      = .ok (.composite {} logic (conditions.map .value) {}) := by
  have hParent (kind : EntityKind) (hKind : Category.condition.accepts kind = true) :
      (Command.composite logic).accepts kind = true := by
    cases kind <;> first | rfl | cases hKind
  have hLength : (conditions.map Node.condition).length = texts.length := by
    rw [List.length_map, h.length_eq]
  have hCount : (Command.composite logic).checkCount { children := conditions.map .condition }
      = .ok () := by
    refine Command.checkCount_children ?_ fun most hMost => ?_
    · rw [hLength]
      exact List.length_pos_iff.2 hTexts
    · rw [hLength]
      cases logic with
      | not =>
        cases hMost
        exact (hNot rfl).le
      | nOf => exact absurd rfl hLogic
      | and => cases hMost
      | or => cases hMost
  exact Category.parse_applied .condition .condition rfl hParent h hTexts hCount
    (build_composite_children hLogic conditions)

lemma Policy.parse_policySet_applied (logic : CombinationLogic) {texts : List String}
    {policies : List Policy} (hTexts : texts ≠ [])
    (h : List.Forall₂ (fun text p => Policy.parse {} text = .ok p) texts policies) :
    Policy.parse {} ((Command.policySet logic).applied texts)
      = .ok (.set {} logic (policies.map fun p => .plain (.value p)) {}) := by
  have hParent (kind : EntityKind) (hKind : Category.policy.accepts kind = true) :
      (Command.policySet logic).accepts kind = true := by
    cases kind <;> first | rfl | cases hKind
  have hPositive : 0 < policies.length := h.length_eq ▸ List.length_pos_iff.2 hTexts
  have hCount : (Command.policySet logic).checkCount { children := policies.map .policy }
      = .ok () :=
    Command.checkCount_children (by rwa [List.length_map]) nofun
  exact Category.parse_applied .policy .policy rfl hParent h hTexts hCount
    (build_policySet_children logic (List.length_pos_iff.1 hPositive))

lemma Variable.parse_dynamicVariable_applied {texts : List String} {resolvers : List Resolver}
    (hTexts : texts ≠ [])
    (h : List.Forall₂ (fun text r => Resolver.parse {} text = .ok r) texts resolvers) :
    Variable.parse {} (Command.dynamicVariable.applied texts)
      = .ok (.dynamic { resolvers := resolvers.map .value }) := by
  have hParent (kind : EntityKind) (hKind : Category.resolver.accepts kind = true) :
      Command.dynamicVariable.accepts kind = true := by
    cases kind <;> first | rfl | cases hKind
  have hPositive : 0 < resolvers.length := h.length_eq ▸ List.length_pos_iff.2 hTexts
  have hCount : Command.dynamicVariable.checkCount { children := resolvers.map .resolver }
      = .ok () :=
    Command.checkCount_children (by rwa [List.length_map]) nofun
  exact Category.parse_applied .resolver .variable rfl hParent h hTexts hCount
    (build_dynamicVariable_children resolvers)

/-- An operation is read from the texts of as many variables as it takes. -/
lemma Condition.parse_atomic_applied {operation : Operation} {texts : List String}
    {operands : List Variable} (hArity : texts.length = operation.arity)
    (h : List.Forall₂ (fun text v => Variable.parse {} text = .ok v) texts operands) :
    Condition.parse {} ((Command.atomic operation).applied texts)
      = .ok (.atomic { operation := operation, args := operands.map .value }) := by
  have hParent (kind : EntityKind) (hKind : Category.variable.accepts kind = true) :
      (Command.atomic operation).accepts kind = true := by
    cases kind <;> first | rfl | cases hKind
  have hOperands : operands.length = operation.arity := h.length_eq ▸ hArity
  have hTexts : texts ≠ [] := by
    rintro rfl
    cases operation <;> cases hArity
  have hCount : (Command.atomic operation).checkCount { children := operands.map .variable }
      = .ok () := by
    refine Command.checkCount_children ?_ fun most hMost => ?_
    · rw [List.length_map, hOperands, Command.leastArguments_atomic]
    · rw [Command.mostArguments?_atomic] at hMost
      cases hMost
      rw [List.length_map, hOperands]
  exact Category.parse_applied .variable .condition rfl hParent h hTexts hCount
    (build_atomic_children hOperands)

/-- **Texts mean among the arguments of a command what they mean on their own.**  Let texts be read
without limits, each from its own beginning and up to its own end.  A combination of the texts of
conditions is read as the combination of these conditions, in their order, without metadata and
without flags; a set of the texts of policies is read as the set of these policies, a dynamic
variable over the texts of resolvers as the variable with these resolvers, and an operation on the
texts of as many variables as it takes as the operation on these variables. -/
theorem parse_compose :
    (∀ (logic : Logic) (texts : List String) (conditions : List Condition),
        logic ≠ .nOf → texts ≠ [] → (logic = .not → texts.length = 1) →
        List.Forall₂ (fun text c => Condition.parse {} text = .ok c) texts conditions →
        Condition.parse {} ((Command.composite logic).applied texts)
          = .ok (.composite {} logic (conditions.map .value) {})) ∧
      (∀ (logic : CombinationLogic) (texts : List String) (policies : List Policy), texts ≠ [] →
        List.Forall₂ (fun text p => Policy.parse {} text = .ok p) texts policies →
        Policy.parse {} ((Command.policySet logic).applied texts)
          = .ok (.set {} logic (policies.map fun p => .plain (.value p)) {})) ∧
      (∀ (texts : List String) (resolvers : List Resolver), texts ≠ [] →
        List.Forall₂ (fun text r => Resolver.parse {} text = .ok r) texts resolvers →
        Variable.parse {} (Command.dynamicVariable.applied texts)
          = .ok (.dynamic { resolvers := resolvers.map .value })) ∧
      ∀ (operation : Operation) (texts : List String) (operands : List Variable),
        texts.length = operation.arity →
        List.Forall₂ (fun text v => Variable.parse {} text = .ok v) texts operands →
        Condition.parse {} ((Command.atomic operation).applied texts)
          = .ok (.atomic { operation := operation, args := operands.map .value }) := by
  refine ⟨fun logic texts conditions hLogic hTexts hNot h => ?_,
    fun logic texts policies hTexts h => ?_, fun texts resolvers hTexts h => ?_,
    fun operation texts operands hArity h => ?_⟩
  · exact Condition.parse_composite_applied hLogic hTexts hNot h
  · exact Policy.parse_policySet_applied logic hTexts h
  · exact Variable.parse_dynamicVariable_applied hTexts h
  · exact Condition.parse_atomic_applied hArity h

/-- Texts with fillers around them, with surplus parentheses and with surplus commas, and what is
read where they stand among the arguments of a command. -/
theorem parse_compose_texts :
    (∃ c d, Condition.parse {} " ; #true( , )" = .ok c ∧
      Condition.parse {} "#false((,() ;" = .ok d ∧
      Condition.parse {} "*all( ; #true( , ),#false((,() ;)"
        = .ok (.composite {} .and [.value c, .value d] {})) ∧
      (∃ p, Policy.parse {} "*permit((#true(),,)" = .ok p ∧
        Policy.parse {} "*firstAppl(*permit((#true(),,))"
          = .ok (.set {} .firstApplicable [.plain (.value p)] {})) ∧
      (∃ r, Resolver.parse {} " *jq(.age)" = .ok r ∧
        Variable.parse {} "*dyn( *jq(.age))" = .ok (.dynamic { resolvers := [.value r] })) ∧
      ∃ v w, Variable.parse {} "#int(,7)" = .ok v ∧ Variable.parse {} " #int(-1) " = .ok w ∧
        Condition.parse {} "*gt(#int(,7), #int(-1) )"
          = .ok (.atomic { operation := .greaterThan, args := [.value v, .value w] }) := by
  obtain ⟨c, hc⟩ := Except.exists_eq_ok
    (by decide +kernel : (Condition.parse {} " ; #true( , )").isOk = true)
  obtain ⟨d, hd⟩ := Except.exists_eq_ok
    (by decide +kernel : (Condition.parse {} "#false((,() ;").isOk = true)
  obtain ⟨p, hp⟩ := Except.exists_eq_ok
    (by decide +kernel : (Policy.parse {} "*permit((#true(),,)").isOk = true)
  obtain ⟨r, hr⟩ := Except.exists_eq_ok
    (by decide +kernel : (Resolver.parse {} " *jq(.age)").isOk = true)
  obtain ⟨v, hv⟩ := Except.exists_eq_ok
    (by decide +kernel : (Variable.parse {} "#int(,7)").isOk = true)
  obtain ⟨w, hw⟩ := Except.exists_eq_ok
    (by decide +kernel : (Variable.parse {} " #int(-1) ").isOk = true)
  have hAll := parse_compose.1 .and _ _ (by decide) (List.cons_ne_nil _ _) nofun
    (.cons hc (.cons hd .nil))
  have hFirst := parse_compose.2.1 .firstApplicable _ _ (List.cons_ne_nil _ _) (.cons hp .nil)
  have hDynamic := parse_compose.2.2.1 _ _ (List.cons_ne_nil _ _) (.cons hr .nil)
  have hGreater := parse_compose.2.2.2 .greaterThan _ _ rfl (.cons hv (.cons hw .nil))
  rw [show (Command.composite .and).applied [" ; #true( , )", "#false((,() ;"]
    = "*all( ; #true( , ),#false((,() ;)" by decide +kernel] at hAll
  rw [show (Command.policySet .firstApplicable).applied ["*permit((#true(),,)"]
    = "*firstAppl(*permit((#true(),,))" by decide +kernel] at hFirst
  rw [show Command.dynamicVariable.applied [" *jq(.age)"] = "*dyn( *jq(.age))"
    by decide +kernel] at hDynamic
  rw [show (Command.atomic .greaterThan).applied ["#int(,7)", " #int(-1) "]
    = "*gt(#int(,7), #int(-1) )" by decide +kernel] at hGreater
  exact ⟨⟨c, d, hc, hd, hAll⟩, ⟨p, hp, hFirst⟩, ⟨r, hr, hDynamic⟩, v, w, hv, hw, hGreater⟩

end PolicyText
