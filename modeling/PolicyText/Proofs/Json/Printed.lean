import PolicyText.Proofs.Json.Spells
import PolicyText.Proofs.Json.Tree

/-!
# The texts that the printer writes

A value is written without any white space or over several lines, and both texts are spellings of it
(`Json.spells_compact`, `Json.spells_pretty`).  So they are read back as the value; for a tree
without binary numbers (`Json.integral`) this is `Json.parse_compact`.
-/

namespace PolicyText.Json

/-! ## Spellings -/

lemma compactItems_cons (item next : Json) (items : List Json) :
    compactItems (item :: next :: items)
      = compact item ++ ',' :: compactItems (next :: items) :=
  compactItems.eq_3 _ _ (List.cons_ne_nil _ _)

lemma compactFields_cons (name : String) (value : Json) (next : String × Json)
    (fields : List (String × Json)) :
    compactFields ((name, value) :: next :: fields)
      = quoted name ++ ':' :: (compact value ++ ',' :: compactFields (next :: fields)) := by
  rw [compactFields.eq_3 _ _ _ (List.cons_ne_nil _ _), List.append_assoc, List.cons_append]

lemma isGap_newline (level : Nat) : IsGap (newline level) := by
  refine List.forall_mem_cons.2 ⟨by decide, fun c hc => ?_⟩
  rw [List.eq_of_mem_replicate hc]
  rfl

lemma isGap_space : IsGap [' '] :=
  List.forall_mem_singleton.2 rfl

mutual

lemma spells_compact : ∀ d : Json, Spells d d.compact
  | .null => .null
  | .bool b => .bool b
  | .number n => .number n
  | .string s => .string s
  | .array [] => .emptyArray isGap_nil
  | .array (item :: items) => .array (spellsItems_compact (item :: items) (List.cons_ne_nil _ _))
  | .object [] => .emptyObject isGap_nil
  | .object (field :: fields) =>
    .object (spellsFields_compact (field :: fields) (List.cons_ne_nil _ _))

lemma spellsItems_compact : ∀ items : List Json, items ≠ [] →
    SpellsItems items (compactItems items)
  | [], hItems => absurd rfl hItems
  | [item], _ => .last (spells_compact item)
  | item :: next :: items, _ => by
    rw [compactItems_cons]
    exact .cons (spells_compact item)
      (spellsItems_compact (next :: items) (List.cons_ne_nil _ _))

lemma spellsFields_compact : ∀ fields : List (String × Json), fields ≠ [] →
    SpellsFields fields (compactFields fields)
  | [], hFields => absurd rfl hFields
  | [(name, value)], _ => by
    have hLast := @SpellsFields.last name _ _ _ _ isGap_nil isGap_nil (spells_compact value)
    rwa [List.nil_append, List.append_nil] at hLast
  | (name, value) :: next :: fields, _ => by
    have hCons := @SpellsFields.cons name _ _ _ _ _ _ isGap_nil isGap_nil (spells_compact value)
      (spellsFields_compact (next :: fields) (List.cons_ne_nil _ _))
    rw [compactFields_cons]
    simpa only [List.nil_append, List.append_nil, List.append_assoc, List.cons_append] using hCons

end

lemma prettyItems_cons (level : Nat) (item next : Json) (items : List Json) :
    prettyItems level (item :: next :: items)
      = newline level ++ prettyAt level item ++ ',' :: prettyItems level (next :: items) :=
  prettyItems.eq_3 _ _ _ (List.cons_ne_nil _ _)

lemma prettyFields_cons (level : Nat) (name : String) (value : Json) (next : String × Json)
    (fields : List (String × Json)) :
    prettyFields level ((name, value) :: next :: fields)
      = newline level ++ quoted name ++ [':', ' '] ++ prettyAt level value ++
        ',' :: prettyFields level (next :: fields) :=
  prettyFields.eq_3 _ _ _ _ (List.cons_ne_nil _ _)

mutual

lemma spells_prettyAt : ∀ (d : Json) (level : Nat), Spells d (prettyAt level d)
  | .null, _ => .null
  | .bool b, _ => .bool b
  | .number n, _ => .number n
  | .string s, _ => .string s
  | .array [], _ => .emptyArray isGap_nil
  | .array (item :: items), level => by
    have hItems := spellsItems_pretty (item :: items) (level + 1) (isGap_newline level)
      (List.cons_ne_nil _ _)
    simpa only [prettyAt, List.append_assoc, List.cons_append] using Spells.array hItems
  | .object [], _ => .emptyObject isGap_nil
  | .object (field :: fields), level => by
    have hFields := spellsFields_pretty (field :: fields) (level + 1) (isGap_newline level)
      (List.cons_ne_nil _ _)
    simpa only [prettyAt, List.append_assoc, List.cons_append] using Spells.object hFields

lemma spellsItems_pretty : ∀ (items : List Json) (level : Nat) {after : List Char}, IsGap after →
    items ≠ [] → SpellsItems items (prettyItems level items ++ after)
  | [], _, _, _, hItems => absurd rfl hItems
  | [item], level, _, hAfter, _ =>
    .last (.padded (isGap_newline level) (spells_prettyAt item level) hAfter)
  | item :: next :: items, level, _, hAfter, _ => by
    have hItem := Spells.padded (isGap_newline level) (spells_prettyAt item level) isGap_nil
    rw [List.append_nil] at hItem
    rw [prettyItems_cons, List.append_assoc, List.cons_append]
    exact .cons hItem (spellsItems_pretty (next :: items) level hAfter (List.cons_ne_nil _ _))

lemma spellsFields_pretty : ∀ (fields : List (String × Json)) (level : Nat) {after : List Char},
    IsGap after → fields ≠ [] → SpellsFields fields (prettyFields level fields ++ after)
  | [], _, _, _, hFields => absurd rfl hFields
  | [(name, value)], level, after, hAfter, _ => by
    have hValue := Spells.padded isGap_space (spells_prettyAt value level) hAfter
    have hLast := @SpellsFields.last name _ _ _ _ (isGap_newline level) isGap_nil hValue
    simpa only [prettyFields, List.append_nil, List.append_assoc, List.cons_append,
      List.nil_append] using hLast
  | (name, value) :: next :: fields, level, after, hAfter, _ => by
    have hValue := Spells.padded isGap_space (spells_prettyAt value level) isGap_nil
    have hCons := @SpellsFields.cons name _ _ _ _ _ _ (isGap_newline level) isGap_nil hValue
      (spellsFields_pretty (next :: fields) level hAfter (List.cons_ne_nil _ _))
    rw [prettyFields_cons]
    simpa only [List.append_nil, List.append_assoc, List.cons_append, List.nil_append] using hCons

end

lemma spells_pretty (d : Json) : Spells d d.pretty :=
  spells_prettyAt d 0

/-! ## Reading -/

mutual

/-- All numbers of a value are integers. -/
def integral : Json → Bool
  | .null | .bool _ | .string _ => true
  | .number (.integer _) => true
  | .number (.double _) | .number (.single _) => false
  | .array items => itemsIntegral items
  | .object fields => valuesIntegral fields

/-- All numbers of all items are integers. -/
def itemsIntegral : List Json → Bool
  | [] => true
  | item :: rest => integral item && itemsIntegral rest

/-- All numbers in the values of all fields are integers. -/
def valuesIntegral : List (String × Json) → Bool
  | [] => true
  | (_, value) :: rest => integral value && valuesIntegral rest

end

lemma integral_of_mem_items {items : List Json} (h : itemsIntegral items = true) :
    ∀ item ∈ items, item.integral = true := by
  induction items with
  | nil => exact List.forall_mem_nil _
  | cons item items ih =>
    rw [itemsIntegral, Bool.and_eq_true] at h
    exact List.forall_mem_cons.2 ⟨h.1, ih h.2⟩

lemma integral_of_mem_fields {fields : List (String × Json)} (h : valuesIntegral fields = true) :
    ∀ field ∈ fields, field.2.integral = true := by
  induction fields with
  | nil => exact List.forall_mem_nil _
  | cons field fields ih =>
    rw [valuesIntegral, Bool.and_eq_true] at h
    exact List.forall_mem_cons.2 ⟨h.1, ih h.2⟩

lemma IsTree.isWhole {d : Json} (h : d.IsTree) (hIntegral : d.integral = true) : d.IsWhole := by
  induction h with
  | null => exact .null
  | bool b => exact .bool b
  | string s => exact .string s
  | @number n hNumber =>
    cases n with
    | integer n => exact .integer hNumber.1 hNumber.2
    | double x => cases hIntegral
    | single x => cases hIntegral
  | array hItems ih => exact .array fun item h => ih item h (integral_of_mem_items hIntegral item h)
  | object _ hValues ih =>
    exact .object fun field h => ih field h (integral_of_mem_fields hIntegral field h)

lemma parse_compact {d : Json} (hTree : d.IsTree) (hIntegral : d.integral = true)
    (hNesting : d.nesting < nestingLimit) : parse d.compact = .ok d := by
  rw [parse, parseAsWritten_of_spells (spells_compact d) (hTree.isWhole hIntegral) hNesting]
  exact congrArg Except.ok hTree.ordered_eq

end PolicyText.Json
