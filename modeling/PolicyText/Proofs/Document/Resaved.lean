import PolicyText.Proofs.Document.Lossless
import PolicyText.Proofs.Document.Trees

/-!
# Documents that are written again

Whoever stores documents reads them, and writes what has been read.  The document that is written
need not be the one that was read, for readers accept more than is ever written: fields in any
place, absent values as null, fields that nobody knows, integers where numbers are wanted.  But
whatever has been read from a tree is read again from what is written for it (`document_resaved`).

There is one exception.  A number of 32 bits that is beyond the greatest one is read as infinity,
and infinity is written as the null value, which is no number (`excessiveFloat_not_resaved`).  So
the theorem demands that the numbers of 32 bits in what has been read are finite (`finiteFloats`).
-/

namespace PolicyText

/-! ## Values -/

/-- A value is finite if it is a number of 32 bits. -/
def StaticValue.FloatIsFinite : StaticValue → Prop
  | .float x => x.isFinite = true
  | _ => True

/-- Numbers of 32 bits are to be finite, wherever they stand in an entity. -/
def finiteFloats : Demands where
  staticVariable v := v.value.FloatIsFinite

lemma StaticValue.FromTree.isFinite {v : StaticValue} (h : v.FromTree) (hFloat : v.FloatIsFinite) :
    v.IsFinite := by
  cases v with
  | number x => exact h
  | float x => exact hFloat
  | _ => trivial

lemma StaticValue.FromTree.isTree {v : StaticValue} (h : v.FromTree) : v.IsTree := by
  cases v with
  | object fields => exact h
  | array items => exact h
  | _ => trivial

lemma fromTree_implies_written :
    (fromTree.both finiteFloats).Implies (documentable fun j => j) :=
  Demands.implies_documentable fun v hv => ⟨hv.1.isFinite hv.2, v.value.keptBy_id⟩

lemma fromTree_implies_tree :
    (fromTree.both finiteFloats).Implies (documentable Json.ordered) :=
  Demands.implies_documentable fun _ hv => ⟨hv.1.isFinite hv.2, hv.1.isTree⟩

lemma IsLossless.of_readsBack {α : Type} {read? : Json → Option α} {document : α → Json} {a : α}
    (hWritten : ReadsBack (fun j => j) read? document a)
    (hTree : ReadsBack Json.ordered read? document a) : IsLossless read? document a :=
  ⟨hWritten.read, hTree.read⟩

lemma ReadsBack.member_of_meets {arrange : Json → Json} (h : Json.Arrangement arrange)
    {m : Member Policy} (hm : m.Meets (documentable arrange)) :
    ReadsBack arrange Member.ofDocument? Member.document m := by
  obtain ⟨hPolicy, hConstraint⟩ := hm
  refine .member h (fun p hp => .policy h ?_) hConstraint
  rwa [hp] at hPolicy

/-! ## Documents -/

/-- **What has been read from a tree is read again from what is written for it.**  A document of any
type that is a tree may be written in another way than ours; if it is read as something in which no
number of 32 bits is infinite, then the document of this, in the order of writing and as a tree, is
read as the same. -/
theorem document_resaved {d : Json} (hTree : d.IsTree) :
    (∀ v, Variable.ofDocument? d = some v → v.Meets finiteFloats →
        IsLossless Variable.ofDocument? Variable.document v) ∧
      (∀ r, Resolver.ofDocument? d = some r →
        IsLossless Resolver.ofDocument? Resolver.document r) ∧
      (∀ c, Condition.ofDocument? d = some c → c.Meets finiteFloats →
        IsLossless Condition.ofDocument? Condition.document c) ∧
      (∀ a, Action.ofDocument? d = some a → a.Meets finiteFloats →
        IsLossless Action.ofDocument? Action.document a) ∧
      (∀ p, Policy.ofDocument? d = some p → p.Meets finiteFloats →
        IsLossless Policy.ofDocument? Policy.document p) ∧
      (∀ v, StaticValue.ofDocument? d = some v → v.FloatIsFinite →
        IsLossless StaticValue.ofDocument? StaticValue.document v) ∧
      (∀ m, Metadata.ofDocument? d = some m →
        IsLossless Metadata.ofDocument? Metadata.document m) ∧
      (∀ r, EntityRef.ofDocument? d = some r →
        IsLossless EntityRef.ofDocument? EntityRef.document r) ∧
      (∀ r, Reference.ofDocument? d = some r →
        IsLossless Reference.ofDocument? Reference.document r) ∧
      (∀ link, ActionLink.ofDocument? d = some link → link.Meets finiteFloats →
        IsLossless ActionLink.ofDocument? ActionLink.document link) ∧
      ∀ m, Member.ofDocument? d = some m → m.Meets finiteFloats →
        IsLossless Member.ofDocument? Member.document m := by
  refine ⟨fun v h hFinite => ?_, fun r _ => ?_, fun c h hFinite => ?_, fun a h hFinite => ?_,
    fun p h hFinite => ?_, fun v h hFinite => ?_, fun m _ => ?_, fun r _ => ?_, fun r _ => ?_,
    fun link h hFinite => ?_, fun m h hFinite => ?_⟩
  · have hv := (readsOnly_variable d v hTree h).both hFinite
    exact .of_readsBack (.variable .id (hv.mono fromTree_implies_written))
      (.variable .ordered (hv.mono fromTree_implies_tree))
  · exact .of_readsBack (.resolver .id r) (.resolver .ordered r)
  · have hc := (readsOnly_condition d c hTree h).both hFinite
    exact .of_readsBack (.condition .id (hc.mono fromTree_implies_written))
      (.condition .ordered (hc.mono fromTree_implies_tree))
  · have ha := (readsOnly_action d a hTree h).both hFinite
    exact .of_readsBack (.action .id (ha.mono fromTree_implies_written))
      (.action .ordered (ha.mono fromTree_implies_tree))
  · have hp := (readsOnly_policy d p hTree h).both hFinite
    exact .of_readsBack (.policy .id (hp.mono fromTree_implies_written))
      (.policy .ordered (hp.mono fromTree_implies_tree))
  · have hv := readsOnly_staticValue d v hTree h
    exact .of_readsBack (.staticValue .id (hv.isFinite hFinite) v.keptBy_id)
      (.staticValue .ordered (hv.isFinite hFinite) hv.isTree)
  · exact .of_readsBack (.metadata .id m) (.metadata .ordered m)
  · exact .of_readsBack (.entityRef .id r) (.entityRef .ordered r)
  · exact .of_readsBack (.reference .id r) (.reference .ordered r)
  · have hLink := (readsOnly_actionLink d link hTree h).both hFinite
    exact .of_readsBack (.actionLink .id (hLink.mono fromTree_implies_written))
      (.actionLink .ordered (hLink.mono fromTree_implies_tree))
  · have hm := (readsOnly_member d m hTree h).both hFinite
    exact .of_readsBack (.member_of_meets .id (hm.mono fromTree_implies_written))
      (.member_of_meets .ordered (hm.mono fromTree_implies_tree))

/-- A variable with a number of 32 bits that is written as an integer, a format that is null, and a
field that nobody knows. -/
def foreignVariable : Json :=
  .object [("comment", .bool true), ("format", .null), ("kind", .string "static"),
    ("value", .object [("type", .string "FLOAT"), ("value", .int 7)])]

/-- Identity data without labels, written as an array. -/
def foreignMetadata : Json :=
  .array [.string "limit", .null, .null, .array []]

/-- Documents that are not as they would be written, and what has been read from them. -/
theorem document_resaved_foreign :
    (∃ v, Variable.ofDocument? foreignVariable = some v ∧ v.document ≠ foreignVariable ∧
        IsLossless Variable.ofDocument? Variable.document v) ∧
      ∃ m, Metadata.ofDocument? foreignMetadata = some m ∧ m.document ≠ foreignMetadata ∧
        IsLossless Metadata.ofDocument? Metadata.document m := by
  have hVariable : Variable.ofDocument? foreignVariable
      = some (.static { value := .float (.ofInt .single 7) }) := by
    decide +kernel
  have hMetadata : Metadata.ofDocument? foreignMetadata
      = some { id := some "limit", labels := some [] } := by
    decide +kernel
  have hFinite : (Binary.ofInt .single 7).isFinite = true := by decide +kernel
  refine ⟨⟨_, hVariable, by decide +kernel, ?_⟩, _, hMetadata, by decide +kernel, ?_⟩
  · exact (document_resaved (d := foreignVariable) (by decide +kernel)).1 _ hVariable
      ⟨trivial, hFinite⟩
  · exact (document_resaved (d := foreignMetadata) (by decide +kernel)).2.2.2.2.2.2.1 _ hMetadata

lemma StaticValue.ofDocument?_infinite (negative : Bool) :
    ofDocument? (document (.float (.infinite negative))) = none := by
  rfl

/-- A document with a number of 32 bits that is beyond the greatest one. -/
def excessiveFloat : Json :=
  .object [("type", .string "FLOAT"), ("value", .number (.double (.ofDecimal .double false 1 39)))]

/-- A number of 32 bits beyond the greatest one can be read from a tree, but not from what is then
written for it. -/
theorem excessiveFloat_not_resaved :
    excessiveFloat.IsTree ∧ ∃ v, StaticValue.ofDocument? excessiveFloat = some v ∧
      StaticValue.ofDocument? v.document = none ∧
      StaticValue.ofDocument? v.document.ordered = none := by
  have hRead : StaticValue.ofDocument? excessiveFloat = some (.float (.infinite false)) := by
    decide +kernel
  exact ⟨by decide +kernel, _, hRead, StaticValue.ofDocument?_infinite false, by decide +kernel⟩

end PolicyText
