import PolicyText.Proofs.Build.Parse
import PolicyText.Proofs.Document.Policy

/-!
# Documents lose nothing

Whatever variable, resolver, condition, action or policy is written as a document is read back as it
was, at whatever places the fields of its objects stand (`document_lossless`).  All that is asked of
it is that the numbers of binary formats in it are finite and that an object or array in it which is
a value of its own keeps its fields at their places.  The latter is no demand where fields stay as
they are written (`Arrangement.id`); where they are ordered by name (`Arrangement.ordered`) it says
that the value is a tree, with its fields in order and no name twice.  Both are true of everything
that is read from a text.
-/

namespace PolicyText

open Json

/-- A document loses nothing of what it was written for: it is read back with the fields of objects
in the order of writing, and as a tree, with the fields in the order of their names. -/
def IsLossless {α : Type} (ofDocument? : Json → Option α) (document : α → Json) (a : α) : Prop :=
  ofDocument? (document a) = some a ∧ ofDocument? (document a).ordered = some a

variable {demands : Demands}

lemma Demands.implies_documentable {arrange : Json → Json}
    (h : ∀ v, demands.staticVariable v → v.value.IsFinite ∧ v.value.KeptBy arrange) :
    demands.Implies (documentable arrange) where
  metadata _ _ := trivial
  reference _ _ := trivial
  staticVariable := h
  resolver _ _ := trivial
  dynamicVariable _ _ := trivial
  atomic _ _ := trivial
  composite _ _ _ _ := trivial
  action _ _ := trivial
  actionLink _ _ := trivial
  policySet _ _ := trivial

lemma StaticValue.keptBy_id (v : StaticValue) : v.KeptBy fun j => j := by
  cases v <;> first | rfl | trivial

lemma wellFormed_implies_written : wellFormed.Implies (documentable fun j => j) :=
  Demands.implies_documentable fun v hv => ⟨hv.finite, v.value.keptBy_id⟩

lemma wellFormed_implies_tree : wellFormed.Implies (documentable Json.ordered) :=
  Demands.implies_documentable fun _ hv => ⟨hv.finite, hv.tree⟩

/-- **Documents lose nothing.**  However the fields of objects are arranged, a variable, a resolver,
a condition, an action and a policy are read back from their documents, of any depth, if the values
in them are finite and kept by the arrangement; and so is, in the order of writing and as a tree,
whatever is read from a text under any limits. -/
theorem document_lossless :
    (∀ arrange, Arrangement arrange →
      (∀ v : Variable, v.Meets (documentable arrange) →
        Variable.ofDocument? (arrange v.document) = some v) ∧
      (∀ r : Resolver, Resolver.ofDocument? (arrange r.document) = some r) ∧
      (∀ c : Condition, c.Meets (documentable arrange) →
        Condition.ofDocument? (arrange c.document) = some c) ∧
      (∀ a : Action, a.Meets (documentable arrange) →
        Action.ofDocument? (arrange a.document) = some a) ∧
      ∀ p : Policy, p.Meets (documentable arrange) →
        Policy.ofDocument? (arrange p.document) = some p) ∧
    ∀ (limits : Limits) (text : String),
      (∀ v, Variable.parse limits text = .ok v →
        IsLossless Variable.ofDocument? Variable.document v) ∧
      (∀ r, Resolver.parse limits text = .ok r →
        IsLossless Resolver.ofDocument? Resolver.document r) ∧
      (∀ c, Condition.parse limits text = .ok c →
        IsLossless Condition.ofDocument? Condition.document c) ∧
      (∀ a, Action.parse limits text = .ok a →
        IsLossless Action.ofDocument? Action.document a) ∧
      ∀ p, Policy.parse limits text = .ok p →
        IsLossless Policy.ofDocument? Policy.document p := by
  refine ⟨fun arrange h => ⟨fun v hv => ?_, fun r => ?_, fun c hc => ?_, fun a ha => ?_,
    fun p hp => ?_⟩, fun limits text => ⟨fun v h => ?_, fun r h => ?_, fun c h => ?_, fun a h => ?_,
    fun p h => ?_⟩⟩
  · exact (ReadsBack.variable h hv).read
  · exact (ReadsBack.resolver h r).read
  · exact (ReadsBack.condition h hc).read
  · exact (ReadsBack.action h ha).read
  · exact (ReadsBack.policy h hp).read
  · have hv : v.Meets wellFormed := (parseNode_meets (Variable.parseNode_of_parse h)).1
    exact ⟨(ReadsBack.variable .id (hv.mono wellFormed_implies_written)).read,
      (ReadsBack.variable .ordered (hv.mono wellFormed_implies_tree)).read⟩
  · exact ⟨(ReadsBack.resolver .id r).read, (ReadsBack.resolver .ordered r).read⟩
  · have hc : c.Meets wellFormed := (parseNode_meets (Condition.parseNode_of_parse h)).1
    exact ⟨(ReadsBack.condition .id (hc.mono wellFormed_implies_written)).read,
      (ReadsBack.condition .ordered (hc.mono wellFormed_implies_tree)).read⟩
  · have ha : a.Meets wellFormed := (parseNode_meets (Action.parseNode_of_parse h)).1
    exact ⟨(ReadsBack.action .id (ha.mono wellFormed_implies_written)).read,
      (ReadsBack.action .ordered (ha.mono wellFormed_implies_tree)).read⟩
  · have hp : p.Meets wellFormed := (parseNode_meets (Policy.parseNode_of_parse h)).1
    exact ⟨(ReadsBack.policy .id (hp.mono wellFormed_implies_written)).read,
      (ReadsBack.policy .ordered (hp.mono wellFormed_implies_tree)).read⟩

/-- The number one half. -/
def oneHalf : Binary64 := .ofRatio .double false 1 2

/-- A variable with a finite number. -/
def scoreLimit : Variable :=
  .static { metadata := { id := some "limit" }, value := .number oneHalf }

/-- A variable whose value is an object. -/
def scoreReport : Variable :=
  .static { value := .object [("scores", .array [.int 1, .null]), ("valid", .bool true)] }

/-- A way to find a value. -/
def scoreResolver : Resolver :=
  { engine := .jsonPath, expression := "$.score", source := some .subject }

/-- A condition inside another one. -/
def scoreCondition : Condition :=
  .composite {} .and
    [.value (.atomic
      { operation := .greaterThan, args := [.ref { id := "score" }, .value scoreLimit] })] {}

/-- An action that saves a value. -/
def scoreAction : Action :=
  { key := "report", effect := .save (.value scoreReport) (some true) }

/-- A set with a policy in it that has a condition and an action. -/
def scorePolicy : Policy :=
  .set {} .firstApplicable
    [.plain (.value (.basic
      { targetEffect := .permit, condition := .value scoreCondition,
        actions := [{ action := .value scoreAction }] }))] {}

/-- Entities and texts of every category whose documents lose nothing. -/
theorem document_lossless_score :
    Variable.ofDocument? scoreLimit.document.ordered = some scoreLimit ∧
      Resolver.ofDocument? scoreResolver.document = some scoreResolver ∧
      Condition.ofDocument? scoreCondition.document.ordered = some scoreCondition ∧
      Action.ofDocument? scoreAction.document.ordered = some scoreAction ∧
      Policy.ofDocument? scorePolicy.document.ordered = some scorePolicy ∧
      (∃ v, Variable.parse {} "#num(0.5)" = .ok v ∧
        IsLossless Variable.ofDocument? Variable.document v) ∧
      (∃ r, Resolver.parse {} "*jq(.)" = .ok r ∧
        IsLossless Resolver.ofDocument? Resolver.document r) ∧
      (∃ c, Condition.parse {} "#true()" = .ok c ∧
        IsLossless Condition.ofDocument? Condition.document c) ∧
      (∃ a, Action.parse {} "*save(k, #num(0.5))" = .ok a ∧
        IsLossless Action.ofDocument? Action.document a) ∧
      ∃ p, Policy.parse {} "#deny()" = .ok p ∧
        IsLossless Policy.ofDocument? Policy.document p := by
  have hLimit : scoreLimit.Meets (documentable Json.ordered) := ⟨trivial, rfl, trivial⟩
  have hReport : scoreReport.Meets (documentable Json.ordered) := ⟨trivial, trivial, rfl⟩
  have hCondition : scoreCondition.Meets (documentable Json.ordered) := by
    refine .composite trivial trivial (fun c hc => ?_) fun _ _ => trivial
    obtain ⟨⟩ := List.mem_singleton.1 hc
    exact .atomic ⟨trivial, trivial,
      List.forall_mem_cons.2 ⟨trivial, List.forall_mem_singleton.2 hLimit⟩⟩
  have hAction : scoreAction.Meets (documentable Json.ordered) :=
    ⟨trivial, trivial, List.forall_mem_singleton.2 hReport⟩
  have hNone : ConstraintMeets (documentable Json.ordered) none := by
    rintro slot ⟨⟩
  have hPolicy : scorePolicy.Meets (documentable Json.ordered) := by
    refine .of_members trivial trivial (List.forall_mem_singleton.2 ⟨?_, hNone⟩) hNone
      (List.forall_mem_nil _)
    exact .basic ⟨trivial, hCondition, hNone, List.forall_mem_singleton.2 ⟨trivial, hAction, hNone⟩⟩
  obtain ⟨v, hv⟩ := Except.exists_eq_ok (by decide +kernel :
    (Variable.parse {} "#num(0.5)").isOk = true)
  obtain ⟨r, hr⟩ := Except.exists_eq_ok (by decide +kernel :
    (Resolver.parse {} "*jq(.)").isOk = true)
  obtain ⟨c, hc⟩ := Except.exists_eq_ok (by decide +kernel :
    (Condition.parse {} "#true()").isOk = true)
  obtain ⟨a, ha⟩ := Except.exists_eq_ok (by decide +kernel :
    (Action.parse {} "*save(k, #num(0.5))").isOk = true)
  obtain ⟨p, hp⟩ := Except.exists_eq_ok (by decide +kernel :
    (Policy.parse {} "#deny()").isOk = true)
  obtain ⟨hVariables, -, hConditions, hActions, hPolicies⟩ := document_lossless.1 _ .ordered
  exact ⟨hVariables _ hLimit, (document_lossless.1 _ .id).2.1 _, hConditions _ hCondition,
    hActions _ hAction, hPolicies _ hPolicy, ⟨v, hv, (document_lossless.2 _ _).1 v hv⟩,
    ⟨r, hr, (document_lossless.2 _ _).2.1 r hr⟩, ⟨c, hc, (document_lossless.2 _ _).2.2.1 c hc⟩,
    ⟨a, ha, (document_lossless.2 _ _).2.2.2.1 a ha⟩,
    ⟨p, hp, (document_lossless.2 _ _).2.2.2.2 p hp⟩⟩

end PolicyText
