import PolicyText.Proofs.Build.Collect
import PolicyText.Proofs.Options.Decoded

/-!
# The options that a command consumes

Every command takes over the options that concern it, and ignores all others.
`Command.consumedOptions` lists for every command the keys that it is meant to consume.  It is a
table of its own: nothing in the builders refers to it, and that they keep to it is what
`Command.complete_withOptions` says.  Options which agree on these keys (`Options.AgreeOn`) make no
difference to the entity that is built.

There is one exception.  How many conditions have to hold is meant for a choice of some conditions
only, but every combination of conditions takes it over.  `Command.copiedOptions` adds this key.
-/

namespace PolicyText

/-! ## The table -/

/-- The keys of the identity data, which every named entity consumes. -/
def namingOptions : List String :=
  ["id", "ver", "desc", "labels"]

/-- The keys that concern the values of a type: the format of dates and times, and whether a string
is a JSON value. -/
def ValueType.consumedOptions : ValueType → List String
  | .string => ["isJson"]
  | .date => ["dateFormat"]
  | .time => ["timeFormat"]
  | .dateTime => ["dateTimeFormat"]
  | .period | .duration | .int | .long | .number | .float | .bigDecimal | .boolean | .object
  | .array => []

/-- The keys that say when an action fails, and what it does instead. -/
def ActionType.consumedOptions : ActionType → List String
  | .save => ["failOnExistingKey"]
  | .clear => ["failOnMissingKey"]
  | .patch => ["castNullSourceToArray", "failOnMissingKey", "failOnNullSource"]
  | .merge => ["failOnMissingKey", "failOnExistingKey", "failOnNullSource", "failOnNullMerge"]

/-- The keys that basic policies and sets have in common. -/
def policyOptions : List String :=
  ["lenientConstraints", "actionExecutionStrategy", "ignoreErrors", "skipCache"]

/-- The keys of the options that a command is meant to consume. -/
def Command.consumedOptions : Command → List String
  | .staticVariable type => namingOptions ++ type.consumedOptions
  | .dynamicVariable => namingOptions ++ ["type", "format"]
  | .resolver _ => namingOptions ++ ["source", "key"]
  | .atomic _ =>
    namingOptions ++
      ["negateResult", "stringIgnoreCase", "fieldsStrictCheck", "arrayOrderStrictCheck"]
  | .composite logic =>
    namingOptions ++ ["negateResult", "optimize", "strictCheck"] ++
      if logic = .nOf then ["minimumConditions"] else []
  | .basicPolicy _ => namingOptions ++ ["strictTargetEffect"] ++ policyOptions
  | .policySet _ =>
    namingOptions ++ policyOptions ++
      ["runChildActions", "indeterminateOnActionFail", "strictUnlessLogic"]
  | .action type => namingOptions ++ type.consumedOptions
  | .actionLink => ["executionMode", "priority"]
  | .member => ["runAction", "priority"]
  | .constant _ | .defaultPolicy _ | .constraint | .reference | .options => []

/-- The keys of the options that a command takes over: those that it is meant to consume, and for
every combination of conditions how many of them have to hold. -/
def Command.copiedOptions : Command → List String
  | .composite logic => "minimumConditions" :: Command.consumedOptions (.composite logic)
  | command => command.consumedOptions

/-- Options give the same values to some keys. -/
def Options.AgreeOn (keys : List String) (o other : Options) : Prop :=
  ∀ row ∈ Options.rows, row.key ∈ keys → row.field o = row.field other

instance (keys : List String) (o other : Options) : Decidable (o.AgreeOn keys other) :=
  inferInstanceAs
    (Decidable (∀ row ∈ Options.rows, row.key ∈ keys → row.field o = row.field other))

/-! ## Arguments with other options -/

namespace Collected

/-- Arguments with other options. -/
def withOptions (o : Options) (args : Collected) : Collected :=
  { args with options := some o }

variable (o : Options) (args : Collected) (command : Command)

@[simp] lemma children_withOptions : (args.withOptions o).children = args.children := rfl

@[simp] lemma constraint_withOptions : (args.withOptions o).constraint = args.constraint := rfl

@[simp] lemma options_withOptions : (args.withOptions o).options = some o := rfl

@[simp] lemma settings_withOptions : (args.withOptions o).settings = o := rfl

@[simp] lemma rejectContents_withOptions :
    (args.withOptions o).rejectContents command = args.rejectContents command := rfl

@[simp] lemma rejectChildren_withOptions :
    (args.withOptions o).rejectChildren command = args.rejectChildren command := rfl

@[simp] lemma rejectConstraint_withOptions :
    (args.withOptions o).rejectConstraint command = args.rejectConstraint command := rfl

@[simp] lemma singleContent_withOptions :
    (args.withOptions o).singleContent command = args.singleContent command := rfl

@[simp] lemma singleChild_withOptions :
    (args.withOptions o).singleChild command = args.singleChild command := rfl

@[simp] lemma actionKey_withOptions :
    actionKey command (args.withOptions o) = actionKey command args := rfl

@[simp] lemma checkCount_withOptions :
    command.checkCount (args.withOptions o) = command.checkCount args := rfl

lemma withOptions_eq_self {o : Options} {args : Collected} (h : args.options = some o) :
    args.withOptions o = args := by
  rw [withOptions, ← h]

end Collected

/-! ## Builders -/

section Builders

variable {o other : Options} {args : Collected}

lemma Options.AgreeOn.metadata {keys : List String} (h : o.AgreeOn keys other)
    (hKeys : ∀ key ∈ namingOptions, key ∈ keys) : o.metadata = other.metadata := by
  simp only [namingOptions, List.forall_mem_cons] at hKeys
  obtain ⟨hId, hVersion, hDescription, hLabels, -⟩ := hKeys
  simp only [AgreeOn, rows, List.forall_mem_cons] at h
  obtain ⟨id, version, description, labels, -⟩ := h
  rw [Options.metadata, Options.metadata, id hId, version hVersion, description hDescription,
    labels hLabels]

/-- Options that agree on the keys of a static variable read its value alike. -/
lemma StaticValue.read_congr {type : ValueType} (raw : String)
    (h : o.AgreeOn (Command.staticVariable type).consumedOptions other) :
    StaticValue.read o raw type = StaticValue.read other raw type ∧
      o.formatFor type = other.formatFor type ∧
      (if type = .string then o.isJson else none)
        = if type = .string then other.isJson else none := by
  cases type with
  | string =>
    have hJson : o.isJson = other.isJson :=
      h ⟨"isJson", .truthValue, Options.isJson⟩ (by simp [Options.rows]) (by decide)
    simp only [StaticValue.read, Options.formatFor, hJson, and_self]
  | date =>
    have hFormat : o.dateFormat = other.dateFormat :=
      h ⟨"dateFormat", .text, Options.dateFormat⟩ (by simp [Options.rows]) (by decide)
    simp [StaticValue.read, Options.formatFor, hFormat]
  | dateTime =>
    have hFormat : o.dateTimeFormat = other.dateTimeFormat :=
      h ⟨"dateTimeFormat", .text, Options.dateTimeFormat⟩ (by simp [Options.rows]) (by decide)
    simp [StaticValue.read, Options.formatFor, hFormat]
  | time =>
    have hFormat : o.timeFormat = other.timeFormat :=
      h ⟨"timeFormat", .text, Options.timeFormat⟩ (by simp [Options.rows]) (by decide)
    simp [StaticValue.read, Options.formatFor, hFormat]
  | period | duration | int | long | number | float | bigDecimal | boolean | object | array =>
    exact ⟨rfl, rfl, rfl⟩

lemma buildStaticVariable_withOptions {type : ValueType}
    (h : o.AgreeOn (Command.staticVariable type).consumedOptions other) :
    buildStaticVariable (.staticVariable type) (args.withOptions o)
      = buildStaticVariable (.staticVariable type) (args.withOptions other) := by
  have hMetadata := h.metadata fun key hKey => List.mem_append_left _ hKey
  have hRead (raw : String) := (StaticValue.read_congr raw h).1
  obtain ⟨-, hFormat, hJson⟩ := StaticValue.read_congr "" h
  simp only [buildStaticVariable, Collected.rejectChildren_withOptions,
    Collected.rejectConstraint_withOptions, Collected.singleContent_withOptions,
    Collected.settings_withOptions, Command.valueType?, Command.require, Except.ok_bind, hRead,
    hMetadata, hFormat, hJson]

lemma buildResolver_withOptions {engine : Engine}
    (h : o.AgreeOn (Command.resolver engine).consumedOptions other) :
    buildResolver (.resolver engine) (args.withOptions o)
      = buildResolver (.resolver engine) (args.withOptions other) := by
  have hMetadata := h.metadata fun key hKey => List.mem_append_left _ hKey
  simp [Options.AgreeOn, Options.rows, Command.consumedOptions, namingOptions] at h
  simp [buildResolver, hMetadata, h]

lemma buildDynamicVariable_withOptions
    (h : o.AgreeOn Command.dynamicVariable.consumedOptions other) :
    buildDynamicVariable .dynamicVariable (args.withOptions o)
      = buildDynamicVariable .dynamicVariable (args.withOptions other) := by
  have hMetadata := h.metadata fun key hKey => List.mem_append_left _ hKey
  simp [Options.AgreeOn, Options.rows, Command.consumedOptions, namingOptions] at h
  simp [buildDynamicVariable, hMetadata, h]

lemma buildAtomic_withOptions {operation : Operation}
    (h : o.AgreeOn (Command.atomic operation).consumedOptions other) :
    buildAtomic (.atomic operation) (args.withOptions o)
      = buildAtomic (.atomic operation) (args.withOptions other) := by
  have hMetadata := h.metadata fun key hKey => List.mem_append_left _ hKey
  simp [Options.AgreeOn, Options.rows, Command.consumedOptions, namingOptions] at h
  simp only [buildAtomic, Collected.rejectContents_withOptions,
    Collected.rejectConstraint_withOptions, Collected.children_withOptions,
    Collected.settings_withOptions, hMetadata, h]
  rfl

lemma buildComposite_withOptions {logic : Logic}
    (h : o.AgreeOn (Command.composite logic).copiedOptions other) :
    buildComposite (.composite logic) (args.withOptions o)
      = buildComposite (.composite logic) (args.withOptions other) := by
  have hMetadata := h.metadata fun key hKey =>
    List.mem_cons_of_mem _ (List.mem_append_left _ (List.mem_append_left _ hKey))
  simp [Options.AgreeOn, Options.rows, Command.copiedOptions, Command.consumedOptions,
    namingOptions] at h
  simp [buildComposite, checkMinimum, hMetadata, h]

lemma buildAction_withOptions {type : ActionType}
    (h : o.AgreeOn (Command.action type).consumedOptions other) :
    buildAction (.action type) (args.withOptions o)
      = buildAction (.action type) (args.withOptions other) := by
  have hMetadata := h.metadata fun key hKey => List.mem_append_left _ hKey
  have hEffect : effectOf? o type = effectOf? other type := by
    funext operands
    cases type <;>
      simp [Options.AgreeOn, Options.rows, Command.consumedOptions, namingOptions,
        ActionType.consumedOptions] at h <;>
      unfold effectOf? <;> split <;> simp_all
  simp only [buildAction, Collected.rejectConstraint_withOptions, Collected.actionKey_withOptions,
    Collected.children_withOptions, Collected.settings_withOptions, Command.actionType?,
    Command.require, Except.ok_bind, hMetadata, hEffect]
  rfl

lemma buildActionLink_withOptions (h : o.AgreeOn Command.actionLink.consumedOptions other) :
    buildActionLink .actionLink (args.withOptions o)
      = buildActionLink .actionLink (args.withOptions other) := by
  simp [Options.AgreeOn, Options.rows, Command.consumedOptions] at h
  simp [buildActionLink, h]

lemma buildBasicPolicy_withOptions {effect : TargetEffect}
    (h : o.AgreeOn (Command.basicPolicy effect).consumedOptions other) :
    buildBasicPolicy (.basicPolicy effect) (args.withOptions o)
      = buildBasicPolicy (.basicPolicy effect) (args.withOptions other) := by
  have hMetadata := h.metadata fun key hKey =>
    List.mem_append_left _ (List.mem_append_left _ hKey)
  simp [Options.AgreeOn, Options.rows, Command.consumedOptions, namingOptions, policyOptions] at h
  simp [buildBasicPolicy, hMetadata, h]

lemma buildPolicySet_withOptions {logic : CombinationLogic}
    (h : o.AgreeOn (Command.policySet logic).consumedOptions other) :
    buildPolicySet (.policySet logic) (args.withOptions o)
      = buildPolicySet (.policySet logic) (args.withOptions other) := by
  have hMetadata := h.metadata fun key hKey =>
    List.mem_append_left _ (List.mem_append_left _ hKey)
  simp [Options.AgreeOn, Options.rows, Command.consumedOptions, namingOptions, policyOptions] at h
  simp [buildPolicySet, hMetadata, h]

lemma buildMember_withOptions (h : o.AgreeOn Command.member.consumedOptions other) :
    buildMember .member (args.withOptions o) = buildMember .member (args.withOptions other) := by
  simp [Options.AgreeOn, Options.rows, Command.consumedOptions] at h
  simp [buildMember, h]

lemma Command.build_withOptions {command : Command} (h : o.AgreeOn command.copiedOptions other) :
    command.build (args.withOptions o) = command.build (args.withOptions other) := by
  cases command with
  | staticVariable type => exact congrArg (Except.map _) (buildStaticVariable_withOptions h)
  | resolver engine => exact congrArg (Except.map _) (buildResolver_withOptions h)
  | dynamicVariable => exact congrArg (Except.map _) (buildDynamicVariable_withOptions h)
  | atomic operation => exact congrArg (Except.map _) (buildAtomic_withOptions h)
  | composite logic => exact congrArg (Except.map _) (buildComposite_withOptions h)
  | basicPolicy effect => exact congrArg (Except.map _) (buildBasicPolicy_withOptions h)
  | policySet logic => exact congrArg (Except.map _) (buildPolicySet_withOptions h)
  | action type => exact congrArg (Except.map _) (buildAction_withOptions h)
  | actionLink => exact congrArg (Except.map _) (buildActionLink_withOptions h)
  | member => exact congrArg (Except.map _) (buildMember_withOptions h)
  | constant | defaultPolicy | constraint | reference | options => rfl

lemma Command.complete_withOptions {command : Command} (h : o.AgreeOn command.copiedOptions other) :
    command.complete (args.withOptions o) = command.complete (args.withOptions other) := by
  unfold Command.complete Command.attach
  by_cases hConstraint : command = .constraint
  · subst hConstraint
    rfl
  · rw [if_neg hConstraint, if_neg hConstraint, Command.build_withOptions h]
    rfl

end Builders

end PolicyText
