import PolicyText.Proofs.Build.Readers
import PolicyText.Proofs.Tree.Render

/-!
# Literals alone

A static variable can be written as nothing but a keyword and one token between parentheses.  It is
read as the value that the token is for the type of the keyword, with no metadata and no format; and
if the token is no such value, the error says which text it is and why
(`Variable.parse_literal`).
-/

namespace PolicyText

lemma buildStaticVariable_single (type : ValueType) (raw : String) (options : Option Options) :
    buildStaticVariable (.staticVariable type) ⟨[], [raw], options, none⟩
      = match StaticValue.read (options.getD {}) raw type with
        | .error fault =>
          .error (.invalidLiteral (Command.staticVariable type).keyword raw fault.message)
        | .ok value =>
          .ok
            { metadata := (options.getD {}).metadata
              value := value
              format := (options.getD {}).formatFor type
              isJson := if type = .string then (options.getD {}).isJson else none } := by
  cases hRead : StaticValue.read (options.getD {}) raw type <;>
    simp only [buildStaticVariable, Command.valueType?, Command.require, Collected.rejectChildren,
      Collected.rejectConstraint, Collected.singleContent, Collected.settings, bind, Except.bind,
      hRead]

/-- The outcome of reading a literal that stands alone: a static variable with no more than its
value, or an error about the literal. -/
def Variable.ofLiteral (type : ValueType) (raw : String) : Except ParseError Variable :=
  match StaticValue.read {} raw type with
  | .ok value => .ok (.static { value := value })
  | .error fault =>
    .error (.invalidLiteral (Command.staticVariable type).keyword raw fault.message)

/-- A command around a single token. -/
def Token.tree (token : Token) (type : ValueType) : Tree :=
  ⟨.staticVariable type, .content token .nil⟩

lemma Token.node_tree (token : Token) (type : ValueType) :
    (token.tree type).node
      = (Variable.ofLiteral type (String.ofList token.text)).map .variable := by
  have hBuild : (token.tree type).node = (Command.staticVariable type).build
      ⟨[], [String.ofList token.text], none, none⟩ :=
    rfl
  have hFormatFor : ({} : Options).formatFor type = none := by cases type <;> rfl
  rw [hBuild, Variable.ofLiteral]
  simp only [Command.build, Command.kind, buildStaticVariable_single, Option.getD_none, hFormatFor,
    ite_self]
  cases StaticValue.read {} (String.ofList token.text) type <;> rfl

lemma Variable.parse_literal {token : Token} (hBegins : token.Begins) (hToken : token.Sound)
    (type : ValueType) {text : String}
    (hText : text.toList = (Command.staticVariable type).enclosing [] token.written) :
    Variable.parse {} text = Variable.ofLiteral type (String.ofList token.text) := by
  have hRender : text.toList = (token.tree type).render := by
    rw [hText, Tree.render, Token.tree, Items.render]
    simp [ListPlace.comma, Items.render]
  have hRead := @parseNode_render (token.tree type) .variable rfl (by cases type <;> rfl)
    ⟨hBegins, hToken, trivial⟩
  rw [← hRender, Token.node_tree] at hRead
  cases hLiteral : ofLiteral type (String.ofList token.text) with
  | ok v =>
    rw [hLiteral] at hRead
    exact (@Category.parse_eq_ok .variable {} text v).2 hRead
  | error e =>
    rw [hLiteral] at hRead
    exact (@Category.parse_eq_error .variable {} text e).2 hRead

lemma Variable.parse_backticks {raw : String} (hRaw : '\x60' ∉ raw.toList) (type : ValueType) :
    Variable.parse {} ((Command.staticVariable type).keyword ++ "(\x60" ++ raw ++ "\x60)")
      = Variable.ofLiteral type raw := by
  have hParse := @parse_literal (.wrapped .backtick raw.toList) trivial hRaw type
    ((Command.staticVariable type).keyword ++ "(\x60" ++ raw ++ "\x60)")
    (by simp [Command.enclosing, Token.written, Wrapper.mark])
  rwa [Token.text, String.ofList_toList] at hParse

/-- A text that can stand between parentheses without a wrapper: its first character begins a
content. -/
def IsBareLiteral (text : List Char) : Prop :=
  text.head?.map CharClass.of = some .content ∧ IsBare text

lemma Variable.parse_bare {raw : String} (hRaw : IsBareLiteral raw.toList) (type : ValueType) :
    Variable.parse {} ((Command.staticVariable type).keyword ++ "(" ++ raw ++ ")")
      = Variable.ofLiteral type raw := by
  have hParse := @parse_literal (.bare raw.toList) hRaw.1 hRaw.2 type
    ((Command.staticVariable type).keyword ++ "(" ++ raw ++ ")")
    (by simp [Command.enclosing, Token.written])
  rwa [Token.text, String.ofList_toList] at hParse

end PolicyText
