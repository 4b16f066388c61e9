import PolicyText.Proofs.Build.Entity
import PolicyText.Proofs.Build.Expression

/-!
# The five readers as one

Variables, resolvers, conditions, actions and policies are read in the same way and differ in the
category of their texts only.  `Category.parse` is the reader of a category, so that what is true of
all readers can be said once.

Each of them looks whether the entity that has been built is of its category.  This is always so,
because the kind of the first command has been compared with the category before
(`Category.exists_entity_of_parseNode`); so a reader reads what `parseNode` does
(`Category.parse_map_node`).
-/

namespace PolicyText

namespace Category

/-- The entities of a category. -/
def Entity : Category → Type
  | .variable => Variable
  | .resolver => Resolver
  | .condition => Condition
  | .action => Action
  | .policy => Policy

/-- Reads an entity of a category. -/
def parse : (category : Category) → Limits → String → Except ParseError category.Entity
  | .variable => Variable.parse
  | .resolver => Resolver.parse
  | .condition => Condition.parse
  | .action => Action.parse
  | .policy => Policy.parse

/-- An entity of a category as one of any category. -/
def node : (category : Category) → category.Entity → Node
  | .variable, v => .variable v
  | .resolver, r => .resolver r
  | .condition, c => .condition c
  | .action, a => .action a
  | .policy, p => .policy p

lemma node_injective (category : Category) : Function.Injective category.node := by
  intro x y h
  cases category <;> cases h <;> rfl

/-- An entity whose kind belongs to a category is an entity of the category. -/
lemma exists_entity_of_accepts {category : Category} {found : Node}
    (h : category.accepts found.kind = true) : ∃ x, category.node x = found := by
  cases found with
  | «variable» v =>
    cases category with
    | «variable» => exact ⟨v, rfl⟩
    | _ => cases v <;> cases h
  | resolver r =>
    cases category with
    | resolver => exact ⟨r, rfl⟩
    | _ => cases h
  | condition c =>
    cases category with
    | condition => exact ⟨c, rfl⟩
    | _ => cases c <;> cases h
  | policy p =>
    cases category with
    | policy => exact ⟨p, rfl⟩
    | _ => cases p <;> cases h
  | action a =>
    cases category with
    | action => exact ⟨a, rfl⟩
    | _ => cases h
  | actionLink | member | reference => cases category <;> cases h

lemma exists_entity_of_parseNode {category : Category} {limits : Limits} {text : List Char}
    {found : Node} (h : parseNode limits category text = .ok found) :
    ∃ x, category.node x = found := by
  obtain ⟨-, last, hRead, -⟩ := parseNode_eq_ok.1 h
  obtain ⟨command, opened, -, hAccepts, -, args, -, -, hBuild, -⟩ := readExpression_eq_ok.1 hRead
  refine exists_entity_of_accepts ?_
  rw [Command.kind_of_build hBuild]
  exact hAccepts

lemma parse_map_node (category : Category) (limits : Limits) (text : String) :
    (category.parse limits text).map category.node = parseNode limits category text.toList := by
  cases hParse : parseNode limits category text.toList with
  | error e =>
    cases category <;>
      simp only [parse, Variable.parse, Resolver.parse, Condition.parse, Action.parse,
        Policy.parse, hParse, Except.map]
  | ok found =>
    obtain ⟨x, rfl⟩ := exists_entity_of_parseNode hParse
    cases category <;>
      simp only [parse, Variable.parse, Resolver.parse, Condition.parse, Action.parse,
        Policy.parse, hParse, Except.map, node]

variable {category : Category} {limits : Limits} {text : String}

lemma parse_eq_ok {x : category.Entity} :
    category.parse limits text = .ok x ↔
      parseNode limits category text.toList = .ok (category.node x) := by
  rw [← parse_map_node, Except.map_eq_ok]
  constructor
  · exact fun h => ⟨x, h, rfl⟩
  · rintro ⟨y, hParse, hNode⟩
    rwa [node_injective category hNode] at hParse

lemma parse_eq_error {e : ParseError} :
    category.parse limits text = .error e ↔
      parseNode limits category text.toList = .error e := by
  rw [← parse_map_node, Except.map_eq_error]

end Category

lemma Policy.parse_eq_ok {limits : Limits} {text : String} {p : Policy} :
    Policy.parse limits text = .ok p ↔ parseNode limits .policy text.toList = .ok (.policy p) :=
  @Category.parse_eq_ok .policy limits text p

lemma Condition.parse_eq_ok {limits : Limits} {text : String} {c : Condition} :
    Condition.parse limits text = .ok c ↔
      parseNode limits .condition text.toList = .ok (.condition c) :=
  @Category.parse_eq_ok .condition limits text c

end PolicyText
