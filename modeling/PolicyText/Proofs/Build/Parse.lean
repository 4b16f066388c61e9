import PolicyText.Proofs.Build.Collect
import PolicyText.Proofs.Build.Entity
import PolicyText.Proofs.Build.Expression

/-!
# What the readers guarantee

The arguments that are collected from a text are sound at every depth (`collect_sound`): the option
lists among them hold values that were scanned, and every entity among them was built of arguments
that were collected before.  So what a reader makes of a text is well formed in all its parts, and
it is of the kind of the command with which the text begins (`parse_wellFormed`).
-/

namespace PolicyText

/-- An option list of a text: its entries have values of options. -/
def IsScannedOptions (raw : RawOptions) : Prop :=
  ∀ pair ∈ raw, IsOptionValue pair.2

/-- What is collected from the arguments of a text is sound. -/
lemma collect_sound {limits : Limits} {depth : Nat} {parent : Command} {arguments : Arguments}
    {args : Collected} (hArguments : arguments.Every IsScannedOptions)
    (h : collect limits depth parent arguments = .ok args) : args.Sound := by
  induction arguments generalizing depth parent args with
  | closed =>
    cases h
    exact .nothing
  | fault error => cases h
  | content text rest ih =>
    rw [collect_content] at h
    obtain ⟨others, hRest, h⟩ := Except.bind_eq_ok.1 h
    cases h
    exact (ih hArguments hRest).consContent text
  | options raw rest ih =>
    rw [collect_options] at h
    obtain ⟨hRaw, hArguments⟩ := hArguments
    obtain ⟨o, hOptions, h⟩ := Except.bind_eq_ok.1 h
    obtain ⟨others, hRest, h⟩ := Except.bind_eq_ok.1 h
    cases h
    exact (ih hArguments hRest).consOptions (.of_raw hRaw hOptions)
  | reference entries rest ih =>
    rw [collect_reference] at h
    obtain ⟨reference, -, h⟩ := Except.bind_eq_ok.1 h
    obtain ⟨others, hRest, h⟩ := Except.bind_eq_ok.1 h
    cases h
    exact (ih hArguments hRest).consChild trivial
  | command position child inner rest ihInner ih =>
    obtain ⟨hInner, hArguments⟩ := hArguments
    obtain ⟨-, -, innerArgs, add, others, hCollect, hComplete, hRest, rfl⟩ :=
      collect_command_eq_ok.1 h
    obtain ⟨⟨⟩, hCount, hAttach⟩ := Except.bind_eq_ok.1 hComplete
    have hSound := ihInner hInner hCollect
    obtain ⟨slot, -, hBuild, rfl⟩ | ⟨node, -, hBuild, rfl⟩ := Command.attach_eq_ok hAttach
    · exact (ih hArguments hRest).consConstraint (buildConstraint_meets hSound hBuild)
    · exact (ih hArguments hRest).consChild (Command.build_meets hSound hCount hBuild)

/-- A text begins with the keyword of a command of a kind. -/
def BeginsWithKind (text : String) (kind : EntityKind) : Prop :=
  ∃ command opened,
    scanKeyword (Cursor.start text.toList).skipFiller = .ok (command, opened) ∧
      command.kind = kind

lemma parseNode_meets {limits : Limits} {category : Category} {text : String} {node : Node}
    (h : parseNode limits category text.toList = .ok node) :
    node.Meets wellFormed ∧ BeginsWithKind text node.kind := by
  obtain ⟨-, last, hRead, -⟩ := parseNode_eq_ok.1 h
  obtain ⟨command, opened, hKeyword, -, -, args, hCollect, hCount, hBuild, -⟩ :=
    readExpression_eq_ok.1 hRead
  have hSound := collect_sound (scanArguments_every _ _ _) hCollect
  exact ⟨Command.build_meets hSound hCount hBuild, command, opened, hKeyword,
    (Command.kind_of_build hBuild).symm⟩

lemma Variable.parseNode_of_parse {limits : Limits} {text : String} {v : Variable}
    (h : Variable.parse limits text = .ok v) :
    parseNode limits .variable text.toList = .ok (.variable v) := by
  unfold Variable.parse at h
  split at h <;> cases h
  assumption

lemma Resolver.parseNode_of_parse {limits : Limits} {text : String} {r : Resolver}
    (h : Resolver.parse limits text = .ok r) :
    parseNode limits .resolver text.toList = .ok (.resolver r) := by
  unfold Resolver.parse at h
  split at h <;> cases h
  assumption

lemma Condition.parseNode_of_parse {limits : Limits} {text : String} {c : Condition}
    (h : Condition.parse limits text = .ok c) :
    parseNode limits .condition text.toList = .ok (.condition c) := by
  unfold Condition.parse at h
  split at h <;> cases h
  assumption

lemma Action.parseNode_of_parse {limits : Limits} {text : String} {a : Action}
    (h : Action.parse limits text = .ok a) :
    parseNode limits .action text.toList = .ok (.action a) := by
  unfold Action.parse at h
  split at h <;> cases h
  assumption

lemma Policy.parseNode_of_parse {limits : Limits} {text : String} {p : Policy}
    (h : Policy.parse limits text = .ok p) :
    parseNode limits .policy text.toList = .ok (.policy p) := by
  unfold Policy.parse at h
  split at h <;> cases h
  assumption

/-- **Whatever is read from a text is well formed at every depth.**  Under any limits, a variable, a
resolver, a condition, an action and a policy that are read from a text meet the demands of
`wellFormed` in all their parts, and each is of the kind of the command with which the text begins.
-/
theorem parse_wellFormed (limits : Limits) (text : String) :
    (∀ v, Variable.parse limits text = .ok v →
        v.Meets wellFormed ∧ BeginsWithKind text v.kind) ∧
      (∀ r, Resolver.parse limits text = .ok r →
        r.Meets wellFormed ∧ BeginsWithKind text .resolver) ∧
      (∀ c, Condition.parse limits text = .ok c →
        c.Meets wellFormed ∧ BeginsWithKind text c.kind) ∧
      (∀ a, Action.parse limits text = .ok a →
        a.Meets wellFormed ∧ BeginsWithKind text .action) ∧
      ∀ p, Policy.parse limits text = .ok p →
        p.Meets wellFormed ∧ BeginsWithKind text p.kind := by
  refine ⟨fun v h => ?_, fun r h => ?_, fun c h => ?_, fun a h => ?_, fun p h => ?_⟩
  · exact parseNode_meets (Variable.parseNode_of_parse h)
  · exact parseNode_meets (Resolver.parseNode_of_parse h)
  · exact parseNode_meets (Condition.parseNode_of_parse h)
  · exact parseNode_meets (Action.parseNode_of_parse h)
  · exact parseNode_meets (Policy.parseNode_of_parse h)

/-- A text of each category that is read as something. -/
theorem parse_wellFormed_texts :
    (∃ v, Variable.parse {} "*dyn(*jq(.age), #opts(type=INT))" = .ok v ∧ v.Meets wellFormed) ∧
      (∃ r, Resolver.parse {} "*key(age, #opts(key=k))" = .ok r ∧ r.Meets wellFormed) ∧
      (∃ c, Condition.parse {} "*nOf(#ref(a), #true(), #opts(minimumConditions=1))" = .ok c ∧
        c.Meets wellFormed) ∧
      (∃ a, Action.parse {} "*save(k, #num(0.5), #opts(labels=a | b))" = .ok a ∧
        a.Meets wellFormed) ∧
      ∃ p, Policy.parse {} "*DOverrides(*pol(#ref(p), #opts(priority=2)), #deny())" = .ok p ∧
        p.Meets wellFormed := by
  obtain ⟨v, hv⟩ := Except.exists_eq_ok (by decide +kernel :
    (Variable.parse {} "*dyn(*jq(.age), #opts(type=INT))").isOk = true)
  obtain ⟨r, hr⟩ := Except.exists_eq_ok (by decide +kernel :
    (Resolver.parse {} "*key(age, #opts(key=k))").isOk = true)
  obtain ⟨c, hc⟩ := Except.exists_eq_ok (by decide +kernel :
    (Condition.parse {} "*nOf(#ref(a), #true(), #opts(minimumConditions=1))").isOk = true)
  obtain ⟨a, ha⟩ := Except.exists_eq_ok (by decide +kernel :
    (Action.parse {} "*save(k, #num(0.5), #opts(labels=a | b))").isOk = true)
  obtain ⟨p, hp⟩ := Except.exists_eq_ok (by decide +kernel :
    (Policy.parse {} "*DOverrides(*pol(#ref(p), #opts(priority=2)), #deny())").isOk = true)
  exact ⟨⟨v, hv, ((parse_wellFormed _ _).1 v hv).1⟩, ⟨r, hr, ((parse_wellFormed _ _).2.1 r hr).1⟩,
    ⟨c, hc, ((parse_wellFormed _ _).2.2.1 c hc).1⟩,
    ⟨a, ha, ((parse_wellFormed _ _).2.2.2.1 a ha).1⟩,
    ⟨p, hp, ((parse_wellFormed _ _).2.2.2.2 p hp).1⟩⟩

end PolicyText
