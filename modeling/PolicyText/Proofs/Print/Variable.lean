import PolicyText.Proofs.Calendar.Period
import PolicyText.Proofs.Model.Demands
import PolicyText.Proofs.Print.Basic
import PolicyText.Proofs.Print.Literal

/-!
# Printing variables

Resolvers and variables are printed as trees, which mean them again (`Resolver.prints_tree`,
`Variable.prints_tree`) if they are `printable`: strings can be written, options are not empty, and
a dynamic variable has a resolver.  Of the static values those are covered whose text does not
depend on notations of numbers, dates and documents: strings, integers, truth values and periods.
-/

namespace PolicyText

/-! ## What can be printed -/

/-- A text that can be the value of an option: not empty, and held by a wrapper. -/
def IsOptionText (text : String) : Prop :=
  text ≠ "" ∧ Representable text.toList

instance (text : String) : Decidable (IsOptionText text) :=
  inferInstanceAs (Decidable (_ ∧ _))

/-- Identity data that can be printed. -/
structure Metadata.Printable (m : Metadata) : Prop where
  id : ∀ text ∈ m.id, IsOptionText text
  description : ∀ text ∈ m.description, IsOptionText text
  labels : ∀ labels ∈ m.labels, WritableLabels labels

/-- A static value that can be printed. -/
def StaticValue.Printable : StaticValue → Prop
  | .string s => Representable s.toList
  | .int _ | .long _ | .boolean _ | .period _ => True
  | _ => False

/-- A static variable that can be printed: it has no format, and is not the text of a JSON value. -/
structure StaticVariable.Printable (v : StaticVariable) : Prop where
  value : v.value.Printable
  format : v.format = none
  isJson : v.isJson = none ∨ v.value.type = .string ∧ v.isJson = some false

/-- What can be printed: every string can be written where it stands, and the numbers of arguments
are as the grammar demands. -/
def printable : Demands where
  metadata m := m.Printable
  reference target := Representable target.id.toList
  staticVariable v := v.Printable
  resolver r := Representable r.expression.toList ∧ ∀ text ∈ r.key, IsOptionText text
  dynamicVariable v := v.resolvers ≠ [] ∧ ∀ text ∈ v.format, IsOptionText text
  atomic c := c.args.length = c.operation.arity
  composite logic conditions settings :=
    conditions ≠ [] ∧ (logic = .not → conditions.length = 1) ∧
      (logic = .nOf → settings.minimumConditions ≠ none)
  action a := Representable a.key.toList
  actionLink link := ∀ modes ∈ link.executionMode, modes.toList ≠ []
  policySet members := members ≠ []

/-! ## Options -/

/-- Identity data as options. -/
def Metadata.options (m : Metadata) : Options :=
  { id := m.id, version := m.version, description := m.description, labels := m.labels }

/-- Options of an entity can be written if its identity data can be printed and its own texts can be
the values of options. -/
lemma Options.Writable.of_metadata {o : Options} (hMetadata : o.metadata.Printable)
    (hDates : o.dateFormat = none ∧ o.timeFormat = none ∧ o.dateTimeFormat = none)
    (hFormat : ∀ text ∈ o.format, IsOptionText text) (hKey : ∀ text ∈ o.key, IsOptionText text)
    (hModes : ∀ modes ∈ o.executionMode, modes.toList ≠ []) : o.Writable := by
  obtain ⟨hDate, hTime, hDateTime⟩ := hDates
  refine ⟨?_, hMetadata.labels, hModes⟩
  rw [hDate, hTime, hDateTime]
  simp only [List.forall_mem_cons, List.not_mem_nil, false_implies, implies_true, and_true]
  have hNone : ∀ text ∈ (none : Option String), text ≠ "" ∧ Representable text.toList := by
    intro text hText
    cases hText
  exact ⟨hMetadata.id, hMetadata.description, hNone, hNone, hNone, hFormat, hKey⟩

lemma forall_mem_none {α : Type} {p : α → Prop} : ∀ a ∈ (none : Option α), p a := by
  intro a ha
  cases ha

lemma constraintPrints_none : ConstraintPrints none none :=
  trivial

lemma Items.prints_nil (command : Command) :
    Items.Prints command .nil (([] : List Node).map .child) :=
  .nil command

/-! ## Resolvers -/

/-- The options of a resolver. -/
def Resolver.options (r : Resolver) : Options :=
  { r.metadata.options with source := r.source, key := r.key }

/-- The tree of a resolver. -/
def Resolver.tree (r : Resolver) : Tree :=
  ⟨.resolver r.engine, .ofParts r.options none [r.expression] .nil⟩

lemma Resolver.prints_tree {r : Resolver} (h : r.Meets printable) :
    r.tree.Prints (.resolver r) := by
  obtain ⟨hMetadata, hExpression, hKey⟩ := h
  have hOptions : r.options.Writable :=
    .of_metadata hMetadata ⟨rfl, rfl, rfl⟩ forall_mem_none hKey forall_mem_none
  have hContents : ∀ text ∈ [r.expression], Representable text.toList := by
    simpa using hExpression
  have hCount : (Command.resolver r.engine).checkCount ⟨[], [r.expression], some r.options, none⟩
      = .ok () :=
    rfl
  have hBuild : (Command.resolver r.engine).build ⟨[], [r.expression], some r.options, none⟩
      = .ok (.resolver r) :=
    rfl
  exact Tree.prints_ofParts hOptions constraintPrints_none hContents (Items.prints_nil _) hCount
    hBuild

/-! ## Variables -/

/-- The text of a static value that can be printed. -/
def StaticValue.plainText : StaticValue → String
  | .string s => s
  | .int n => String.ofList (Text.integerText n.value)
  | .long n => String.ofList (Text.integerText n.value)
  | .boolean b => truthText b
  | .period p => String.ofList p.text
  | _ => ""

lemma StaticValue.Printable.representable {value : StaticValue} (h : value.Printable) :
    Representable value.plainText.toList := by
  cases value with
  | string s => exact h
  | int n =>
    rw [plainText, String.toList_ofList]
    exact representable_of_not_mem (not_mem_integerText n.value)
  | long n =>
    rw [plainText, String.toList_ofList]
    exact representable_of_not_mem (not_mem_integerText n.value)
  | boolean b => cases b <;> exact Or.inl (by decide)
  | period p =>
    rw [plainText, String.toList_ofList]
    refine representable_of_not_mem ?_
    simp [Period.text, Period.body, not_mem_integerText]
  | _ => exact h.elim

lemma StaticValue.Printable.read {value : StaticValue} (h : value.Printable) {options : Options}
    (hOptions : options.isJson ≠ some true) :
    StaticValue.read options value.plainText value.type = .ok value := by
  cases value with
  | string s => simp only [StaticValue.read, StaticValue.type, plainText, if_neg hOptions]
  | int n =>
    have hRead := @Text.readBounded_integerText .int32 (by decide) n
    simp only [StaticValue.read, StaticValue.type, plainText, String.toList_ofList, hRead,
      mapFault, Except.map]
  | long n =>
    have hRead := @Text.readBounded_integerText .int64 (by decide) n
    simp only [StaticValue.read, StaticValue.type, plainText, String.toList_ofList, hRead,
      mapFault, Except.map]
  | boolean b =>
    simp only [StaticValue.read, StaticValue.type, plainText, truthValue?_truthText]
  | period p =>
    simp only [StaticValue.read, StaticValue.type, plainText, String.toList_ofList,
      Period.read_text, mapFault, Except.map]
  | _ => exact h.elim

/-- The options of a static variable. -/
def StaticVariable.options (v : StaticVariable) : Options :=
  { v.metadata.options with isJson := v.isJson }

/-- The tree of a static variable. -/
def StaticVariable.tree (v : StaticVariable) : Tree :=
  ⟨.staticVariable v.value.type, .ofParts v.options none [v.value.plainText] .nil⟩

/-- A static variable that can be printed is what its tree means. -/
lemma StaticVariable.prints_tree {v : StaticVariable} (h : v.Meets printable) :
    v.tree.Prints (.variable (.static v)) := by
  obtain ⟨hMetadata, hValue, hFormat, hJson⟩ := h
  have hOptions : v.options.Writable :=
    .of_metadata hMetadata ⟨rfl, rfl, rfl⟩ forall_mem_none forall_mem_none forall_mem_none
  have hContents : ∀ text ∈ [v.value.plainText], Representable text.toList := by
    simpa using hValue.representable
  have hCount : (Command.staticVariable v.value.type).checkCount
      ⟨[], [v.value.plainText], some v.options, none⟩ = .ok () :=
    rfl
  have hRead : StaticValue.read v.options v.value.plainText v.value.type = .ok v.value := by
    refine hValue.read ?_
    obtain hNone | ⟨-, hFalse⟩ := hJson
    · simp [options, hNone]
    · simp [options, hFalse]
  have hFormatFor : v.options.formatFor v.value.type = v.format := by
    rw [hFormat]
    cases v.value.type <;> rfl
  have hIsJson : (if v.value.type = .string then v.options.isJson else none) = v.isJson := by
    obtain hNone | ⟨hString, hFalse⟩ := hJson
    · simp [options, hNone]
    · simp [options, hString]
  have hBuild : (Command.staticVariable v.value.type).build
      ⟨[], [v.value.plainText], some v.options, none⟩ = .ok (.variable (.static v)) := by
    have hStatic : buildStaticVariable (.staticVariable v.value.type)
        ⟨[], [v.value.plainText], some v.options, none⟩ = .ok v := by
      simp only [buildStaticVariable_single, Option.getD_some, hRead, hFormatFor, hIsJson]
      rfl
    simp only [Command.build, Command.kind, hStatic]
    rfl
  exact Tree.prints_ofParts hOptions constraintPrints_none hContents (Items.prints_nil _) hCount
    hBuild

/-- The options of a dynamic variable. -/
def DynamicVariable.options (v : DynamicVariable) : Options :=
  { v.metadata.options with type := v.type, format := v.format }

/-- The tree of a dynamic variable. -/
def DynamicVariable.tree (v : DynamicVariable) : Tree :=
  ⟨.dynamicVariable, .ofParts v.options none [] (slotItems Resolver.tree v.resolvers .nil)⟩

/-- A dynamic variable that can be printed is what its tree means. -/
lemma DynamicVariable.prints_tree {v : DynamicVariable} (h : v.Meets printable) :
    v.tree.Prints (.variable (.dynamic v)) := by
  obtain ⟨hMetadata, ⟨hSome, hFormat⟩, hSlots⟩ := h
  have hOptions : v.options.Writable :=
    .of_metadata hMetadata ⟨rfl, rfl, rfl⟩ hFormat forall_mem_none forall_mem_none
  have hChildren : (slotItems Resolver.tree v.resolvers .nil).Prints .dynamicVariable
      ((v.resolvers.map (Slot.node .resolver .resolver)).map .child) := by
    refine prints_slots ?_ rfl
    rintro (r | target) hSlot
    · exact ⟨Resolver.prints_tree (hSlots _ hSlot), rfl⟩
    · exact hSlots _ hSlot
  have hCount : Command.dynamicVariable.checkCount
      ⟨v.resolvers.map (Slot.node .resolver .resolver), [], some v.options, none⟩ = .ok () := by
    refine Command.checkCount_eq_ok ?_ forall_mem_none
    rw [Collected.count, List.length_map]
    exact Nat.le_add_right_of_le (List.length_pos_iff.2 hSome)
  have hBuild : Command.dynamicVariable.build
      ⟨v.resolvers.map (Slot.node .resolver .resolver), [], some v.options, none⟩
      = .ok (.variable (.dynamic v)) := by
    have hResolvers : (v.resolvers.map (Slot.node .resolver .resolver)).mapM
        (Node.resolverSlot .dynamicVariable) = .ok v.resolvers :=
      mapM_slotNode (fun slot => by cases slot <;> rfl) v.resolvers
    have hDynamic : buildDynamicVariable .dynamicVariable
        ⟨v.resolvers.map (Slot.node .resolver .resolver), [], some v.options, none⟩ = .ok v := by
      simp only [buildDynamicVariable, Collected.rejectContents, Collected.rejectConstraint,
        Collected.settings, Option.getD_some, bind, Except.bind, hResolvers]
      rfl
    simp only [Command.build, Command.kind, hDynamic]
    rfl
  exact Tree.prints_ofParts hOptions constraintPrints_none (List.forall_mem_nil _) hChildren
    hCount hBuild

/-- The tree of a variable. -/
def Variable.tree : Variable → Tree
  | .static v => v.tree
  | .dynamic v => v.tree

lemma Variable.prints_tree {v : Variable} (h : v.Meets printable) :
    v.tree.Prints (.variable v) := by
  cases v with
  | static v => exact StaticVariable.prints_tree h
  | dynamic v => exact DynamicVariable.prints_tree h

lemma Variable.isPrinted_slot {slot : Slot Variable} {parent : Command}
    (hSlot : slot.Meets printable (Variable.Meets printable))
    (hAccepts : parent.children = Command.variableKinds) :
    slot.IsPrinted Variable.tree .variable parent := by
  cases slot with
  | value v =>
    refine ⟨Variable.prints_tree hSlot, ?_⟩
    rw [Command.accepts, hAccepts]
    cases v <;> rfl
  | ref target => exact hSlot

end PolicyText
