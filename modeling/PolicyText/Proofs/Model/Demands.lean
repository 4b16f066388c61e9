import Mathlib.Tactic.Lemma
import PolicyText.Model.Policy

/-!
# Demands on every part of an entity

An entity is made of entities: a policy of conditions and actions, a condition of variables, and
these of metadata and resolvers; some stand inline and others are referred to.  Statements about
entities of any depth mostly ask the same of every part of a sort, wherever it stands.

`Demands` says what is asked of the parts of each sort, and `Variable.Meets`, `Condition.Meets`,
`Policy.Meets` and so on that all parts of an entity, down through slots, constraints, actions and
members, are as demanded.  For conditions and policies, which can contain others of their own sort,
this is an inductive definition; induction on it is how something is shown of them.
-/

namespace PolicyText

/-- What is demanded of the parts of an entity, sort by sort.  Each demand concerns what a part says
itself and the number of parts that it has, and not what these parts say in turn. -/
structure Demands where
  metadata : Metadata → Prop := fun _ => True
  reference : EntityRef → Prop := fun _ => True
  staticVariable : StaticVariable → Prop := fun _ => True
  resolver : Resolver → Prop := fun _ => True
  dynamicVariable : DynamicVariable → Prop := fun _ => True
  atomic : AtomicCondition → Prop := fun _ => True
  composite : Logic → List (Slot Condition) → CompositeSettings → Prop := fun _ _ _ => True
  action : Action → Prop := fun _ => True
  actionLink : ActionLink → Prop := fun _ => True
  policySet : List (Member Policy) → Prop := fun _ => True

variable (demands : Demands)

/-- What stands in a slot meets demands: an inline entity is as it has to be, and a reference too.
-/
def Slot.Meets {α : Type} (entity : α → Prop) : Slot α → Prop
  | .value a => entity a
  | .ref target => demands.reference target

/-! ## Variables -/

/-- A resolver meets demands. -/
def Resolver.Meets (r : Resolver) : Prop :=
  demands.metadata r.metadata ∧ demands.resolver r

/-- A static variable meets demands. -/
def StaticVariable.Meets (v : StaticVariable) : Prop :=
  demands.metadata v.metadata ∧ demands.staticVariable v

/-- A dynamic variable meets demands. -/
def DynamicVariable.Meets (v : DynamicVariable) : Prop :=
  demands.metadata v.metadata ∧ demands.dynamicVariable v ∧
    ∀ slot ∈ v.resolvers, slot.Meets demands (Resolver.Meets demands)

/-- A variable meets demands. -/
def Variable.Meets : Variable → Prop
  | .static v => v.Meets demands
  | .dynamic v => v.Meets demands

/-! ## Conditions -/

/-- An atomic condition meets demands. -/
def AtomicCondition.Meets (c : AtomicCondition) : Prop :=
  demands.metadata c.metadata ∧ demands.atomic c ∧
    ∀ slot ∈ c.args, slot.Meets demands (Variable.Meets demands)

/-- A condition meets demands, and so do all conditions inside it. -/
inductive Condition.Meets : Condition → Prop where
  | atomic {c : AtomicCondition} (hAtomic : c.Meets demands) : Meets (.atomic c)
  | composite {metadata : Metadata} {logic : Logic} {conditions : List (Slot Condition)}
    {settings : CompositeSettings} (hMetadata : demands.metadata metadata)
    (hComposite : demands.composite logic conditions settings)
    (hValues : ∀ c, .value c ∈ conditions → Meets c)
    (hReferences : ∀ target, .ref target ∈ conditions → demands.reference target) :
    Meets (.composite metadata logic conditions settings)
  | constant (value : ConstantCondition) : Meets (.constant value)

/-- A constraint meets demands, if there is one. -/
def ConstraintMeets (constraint : Option (Slot Condition)) : Prop :=
  ∀ slot ∈ constraint, slot.Meets demands (Condition.Meets demands)

/-! ## Actions -/

/-- The variables on which an effect works. -/
def Effect.operands : Effect → List (Slot Variable)
  | .save value _ => [value]
  | .clear _ => []
  | .patch source change _ _ _ => [source, change]
  | .merge source other _ _ _ _ => [source, other]

/-- An action meets demands. -/
def Action.Meets (a : Action) : Prop :=
  demands.metadata a.metadata ∧ demands.action a ∧
    ∀ slot ∈ a.effect.operands, slot.Meets demands (Variable.Meets demands)

/-- The part of an action in a policy meets demands. -/
def ActionLink.Meets (link : ActionLink) : Prop :=
  demands.actionLink link ∧ link.action.Meets demands (Action.Meets demands) ∧
    ConstraintMeets demands link.constraint

/-! ## Policies -/

/-- A basic policy meets demands. -/
def BasicPolicy.Meets (p : BasicPolicy) : Prop :=
  demands.metadata p.metadata ∧ p.condition.Meets demands (Condition.Meets demands) ∧
    ConstraintMeets demands p.constraint ∧ ∀ link ∈ p.actions, link.Meets demands

/-- A policy meets demands, and so do all policies inside it. -/
inductive Policy.Meets : Policy → Prop where
  | basic {p : BasicPolicy} (hBasic : p.Meets demands) : Meets (.basic p)
  | set {metadata : Metadata} {logic : CombinationLogic} {members : List (Member Policy)}
    {settings : SetSettings} (hMetadata : demands.metadata metadata)
    (hSet : demands.policySet members)
    (hValues : ∀ member ∈ members, ∀ p, member.policy = .value p → Meets p)
    (hReferences : ∀ member ∈ members, ∀ target, member.policy = .ref target →
      demands.reference target)
    (hConstraints : ∀ member ∈ members, ConstraintMeets demands member.constraint)
    (hConstraint : ConstraintMeets demands settings.constraint)
    (hActions : ∀ link ∈ settings.actions, link.Meets demands) :
    Meets (.set metadata logic members settings)
  | default (decision : DefaultPolicy) : Meets (.default decision)

/-- The part of a policy in a set meets demands. -/
def Member.Meets (m : Member Policy) : Prop :=
  m.policy.Meets demands (Policy.Meets demands) ∧ ConstraintMeets demands m.constraint

variable {demands}

lemma Slot.forall_meets {α : Type} {entity : α → Prop} {slots : List (Slot α)} :
    (∀ slot ∈ slots, slot.Meets demands entity) ↔
      (∀ a, .value a ∈ slots → entity a) ∧
        ∀ target, .ref target ∈ slots → demands.reference target := by
  constructor
  · exact fun h => ⟨fun a ha => h _ ha, fun target ht => h _ ht⟩
  · rintro ⟨hValues, hReferences⟩ (a | target) hSlot
    · exact hValues a hSlot
    · exact hReferences target hSlot

lemma Policy.Meets.of_members {metadata : Metadata} {logic : CombinationLogic}
    {members : List (Member Policy)} {settings : SetSettings}
    (hMetadata : demands.metadata metadata) (hSet : demands.policySet members)
    (hMembers : ∀ member ∈ members, member.Meets demands)
    (hConstraint : ConstraintMeets demands settings.constraint)
    (hActions : ∀ link ∈ settings.actions, link.Meets demands) :
    Policy.Meets demands (.set metadata logic members settings) := by
  refine .set hMetadata hSet ?_ ?_ (fun m hm => (hMembers m hm).2) hConstraint hActions
  · intro member hMember p hPolicy
    have hSlot := (hMembers member hMember).1
    rwa [hPolicy] at hSlot
  · intro member hMember target hPolicy
    have hSlot := (hMembers member hMember).1
    rwa [hPolicy] at hSlot

/-! ## Weaker demands -/

/-- Demands imply others if each of them does. -/
structure Demands.Implies (demands others : Demands) : Prop where
  metadata : ∀ m, demands.metadata m → others.metadata m
  reference : ∀ r, demands.reference r → others.reference r
  staticVariable : ∀ v, demands.staticVariable v → others.staticVariable v
  resolver : ∀ r, demands.resolver r → others.resolver r
  dynamicVariable : ∀ v, demands.dynamicVariable v → others.dynamicVariable v
  atomic : ∀ c, demands.atomic c → others.atomic c
  composite : ∀ logic conditions settings,
    demands.composite logic conditions settings → others.composite logic conditions settings
  action : ∀ a, demands.action a → others.action a
  actionLink : ∀ link, demands.actionLink link → others.actionLink link
  policySet : ∀ members, demands.policySet members → others.policySet members

section

variable {others : Demands} (h : demands.Implies others)

include h

lemma Slot.Meets.mono {α : Type} {entity entity' : α → Prop} (hEntity : ∀ a, entity a → entity' a)
    {slot : Slot α} (hSlot : slot.Meets demands entity) : slot.Meets others entity' := by
  cases slot with
  | value a => exact hEntity a hSlot
  | ref target => exact h.reference target hSlot

lemma Variable.Meets.mono {v : Variable} (hv : v.Meets demands) : v.Meets others := by
  cases v with
  | static v => exact ⟨h.metadata _ hv.1, h.staticVariable _ hv.2⟩
  | dynamic v =>
    obtain ⟨hMetadata, hDynamic, hSlots⟩ := hv
    exact ⟨h.metadata _ hMetadata, h.dynamicVariable _ hDynamic, fun slot hSlot =>
      (hSlots slot hSlot).mono h fun r hr => ⟨h.metadata _ hr.1, h.resolver r hr.2⟩⟩

lemma Condition.Meets.mono {c : Condition} (hc : c.Meets demands) : c.Meets others := by
  induction hc with
  | atomic hAtomic =>
    obtain ⟨hMetadata, hAtomic, hSlots⟩ := hAtomic
    exact .atomic ⟨h.metadata _ hMetadata, h.atomic _ hAtomic, fun slot hSlot =>
      (hSlots slot hSlot).mono h fun _ hv => hv.mono h⟩
  | composite hMetadata hComposite hValues hReferences ih =>
    exact .composite (h.metadata _ hMetadata) (h.composite _ _ _ hComposite) ih
      fun target hTarget => h.reference target (hReferences target hTarget)
  | constant value => exact .constant value

lemma ConstraintMeets.mono {constraint : Option (Slot Condition)}
    (hConstraint : ConstraintMeets demands constraint) : ConstraintMeets others constraint :=
  fun slot hSlot => (hConstraint slot hSlot).mono h fun _ hc => hc.mono h

lemma Action.Meets.mono {a : Action} (ha : a.Meets demands) : a.Meets others := by
  obtain ⟨hMetadata, hAction, hSlots⟩ := ha
  exact ⟨h.metadata _ hMetadata, h.action _ hAction, fun slot hSlot =>
    (hSlots slot hSlot).mono h fun _ hv => hv.mono h⟩

lemma ActionLink.Meets.mono {link : ActionLink} (hLink : link.Meets demands) :
    link.Meets others := by
  obtain ⟨hOwn, hAction, hConstraint⟩ := hLink
  exact ⟨h.actionLink _ hOwn, hAction.mono h fun _ ha => ha.mono h, hConstraint.mono h⟩

lemma Policy.Meets.mono {p : Policy} (hp : p.Meets demands) : p.Meets others := by
  induction hp with
  | basic hBasic =>
    obtain ⟨hMetadata, hCondition, hConstraint, hActions⟩ := hBasic
    exact .basic ⟨h.metadata _ hMetadata, hCondition.mono h fun _ hc => hc.mono h,
      hConstraint.mono h, fun link hLink => (hActions link hLink).mono h⟩
  | set hMetadata hSet hValues hReferences hConstraints hConstraint hActions ih =>
    exact .set (h.metadata _ hMetadata) (h.policySet _ hSet) ih
      (fun member hMember target hTarget =>
        h.reference target (hReferences member hMember target hTarget))
      (fun member hMember => (hConstraints member hMember).mono h) (hConstraint.mono h)
      fun link hLink => (hActions link hLink).mono h
  | default decision => exact .default decision

lemma Member.Meets.mono {m : Member Policy} (hm : m.Meets demands) : m.Meets others :=
  ⟨hm.1.mono h fun _ hp => hp.mono h, hm.2.mono h⟩

end

/-! ## Demands taken together -/

/-- All that is demanded by the one or the other. -/
def Demands.both (demands others : Demands) : Demands where
  metadata m := demands.metadata m ∧ others.metadata m
  reference r := demands.reference r ∧ others.reference r
  staticVariable v := demands.staticVariable v ∧ others.staticVariable v
  resolver r := demands.resolver r ∧ others.resolver r
  dynamicVariable v := demands.dynamicVariable v ∧ others.dynamicVariable v
  atomic c := demands.atomic c ∧ others.atomic c
  composite logic conditions settings :=
    demands.composite logic conditions settings ∧ others.composite logic conditions settings
  action a := demands.action a ∧ others.action a
  actionLink link := demands.actionLink link ∧ others.actionLink link
  policySet members := demands.policySet members ∧ others.policySet members

section

variable {others : Demands}

lemma Slot.Meets.both {α : Type} {entity entity' both : α → Prop} {slot : Slot α}
    (hSlot : slot.Meets demands entity) (hOther : slot.Meets others entity')
    (hEntity : ∀ a, entity a → entity' a → both a) : slot.Meets (demands.both others) both := by
  cases slot with
  | value a => exact hEntity a hSlot hOther
  | ref target => exact ⟨hSlot, hOther⟩

lemma Resolver.Meets.both {r : Resolver} (hr : r.Meets demands) (hOther : r.Meets others) :
    r.Meets (demands.both others) :=
  ⟨⟨hr.1, hOther.1⟩, hr.2, hOther.2⟩

lemma Variable.Meets.both {v : Variable} (hv : v.Meets demands) (hOther : v.Meets others) :
    v.Meets (demands.both others) := by
  cases v with
  | static v => exact ⟨⟨hv.1, hOther.1⟩, hv.2, hOther.2⟩
  | dynamic v =>
    obtain ⟨hMetadata, hDynamic, hSlots⟩ := hv
    obtain ⟨hMetadata', hDynamic', hSlots'⟩ := hOther
    exact ⟨⟨hMetadata, hMetadata'⟩, ⟨hDynamic, hDynamic'⟩, fun slot hSlot =>
      (hSlots slot hSlot).both (hSlots' slot hSlot) fun _ hr hr' => hr.both hr'⟩

lemma Condition.Meets.both {c : Condition} (hc : c.Meets demands) (hOther : c.Meets others) :
    c.Meets (demands.both others) := by
  induction hc with
  | atomic hAtomic =>
    obtain ⟨hMetadata, hAtomic, hSlots⟩ := hAtomic
    cases hOther with
    | atomic hAtomic' =>
      obtain ⟨hMetadata', hAtomic', hSlots'⟩ := hAtomic'
      exact .atomic ⟨⟨hMetadata, hMetadata'⟩, ⟨hAtomic, hAtomic'⟩, fun slot hSlot =>
        (hSlots slot hSlot).both (hSlots' slot hSlot) fun _ hv hv' => hv.both hv'⟩
  | composite hMetadata hComposite hValues hReferences ih =>
    cases hOther with
    | composite hMetadata' hComposite' hValues' hReferences' =>
      exact .composite ⟨hMetadata, hMetadata'⟩ ⟨hComposite, hComposite'⟩
        (fun c hMem => ih c hMem (hValues' c hMem))
        fun target hTarget => ⟨hReferences target hTarget, hReferences' target hTarget⟩
  | constant value => exact .constant value

lemma ConstraintMeets.both {constraint : Option (Slot Condition)}
    (hConstraint : ConstraintMeets demands constraint)
    (hOther : ConstraintMeets others constraint) :
    ConstraintMeets (demands.both others) constraint :=
  fun slot hSlot => (hConstraint slot hSlot).both (hOther slot hSlot) fun _ hc hc' => hc.both hc'

lemma Action.Meets.both {a : Action} (ha : a.Meets demands) (hOther : a.Meets others) :
    a.Meets (demands.both others) := by
  obtain ⟨hMetadata, hAction, hSlots⟩ := ha
  obtain ⟨hMetadata', hAction', hSlots'⟩ := hOther
  exact ⟨⟨hMetadata, hMetadata'⟩, ⟨hAction, hAction'⟩, fun slot hSlot =>
    (hSlots slot hSlot).both (hSlots' slot hSlot) fun _ hv hv' => hv.both hv'⟩

lemma ActionLink.Meets.both {link : ActionLink} (hLink : link.Meets demands)
    (hOther : link.Meets others) : link.Meets (demands.both others) := by
  obtain ⟨hOwn, hAction, hConstraint⟩ := hLink
  obtain ⟨hOwn', hAction', hConstraint'⟩ := hOther
  exact ⟨⟨hOwn, hOwn'⟩, hAction.both hAction' fun _ ha ha' => ha.both ha',
    hConstraint.both hConstraint'⟩

/-- A policy meets demands together if it meets each of them. -/
lemma Policy.Meets.both {p : Policy} (hp : p.Meets demands) (hOther : p.Meets others) :
    p.Meets (demands.both others) := by
  induction hp with
  | basic hBasic =>
    obtain ⟨hMetadata, hCondition, hConstraint, hActions⟩ := hBasic
    cases hOther with
    | basic hBasic' =>
      obtain ⟨hMetadata', hCondition', hConstraint', hActions'⟩ := hBasic'
      exact .basic ⟨⟨hMetadata, hMetadata'⟩,
        hCondition.both hCondition' fun _ hc hc' => hc.both hc', hConstraint.both hConstraint',
        fun link hLink => (hActions link hLink).both (hActions' link hLink)⟩
  | set hMetadata hSet hValues hReferences hConstraints hConstraint hActions ih =>
    cases hOther with
    | set hMetadata' hSet' hValues' hReferences' hConstraints' hConstraint' hActions' =>
      refine .set ⟨hMetadata, hMetadata'⟩ ⟨hSet, hSet'⟩ ?_ ?_ ?_ (hConstraint.both hConstraint') ?_
      · exact fun m hm p hPolicy => ih m hm p hPolicy (hValues' m hm p hPolicy)
      · exact fun m hm target hPolicy =>
          ⟨hReferences m hm target hPolicy, hReferences' m hm target hPolicy⟩
      · exact fun m hm => (hConstraints m hm).both (hConstraints' m hm)
      · exact fun link hLink => (hActions link hLink).both (hActions' link hLink)
  | default decision => exact .default decision

lemma Member.Meets.both {m : Member Policy} (hm : m.Meets demands) (hOther : m.Meets others) :
    m.Meets (demands.both others) :=
  ⟨hm.1.both hOther.1 fun _ hp hp' => hp.both hp', hm.2.both hOther.2⟩

end

end PolicyText
