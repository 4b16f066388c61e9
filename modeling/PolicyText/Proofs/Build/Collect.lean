import PolicyText.Parse
import PolicyText.Proofs.Outcome

/-!
# One argument at a time

Constraints and children are treated alike while arguments are collected: the command is entered,
its own arguments are collected, and then it is completed, which is to say counted and built.  What
comes of it is something that is added to the arguments around it (`Command.complete`).
`collect_command` says of both at once what happens at a command, and all that follows about
collecting distinguishes the forms of arguments and nothing else.

Limits matter only where a command is entered.  So `Command.complete` does not know them.

The counter of the depth is down again wherever arguments are closed, those of constraints included
(`left_of_collectCounting`).  So it need not be followed through the arguments: all of them stand at
the depth of the command around them, however many there are.
-/

namespace PolicyText

/-- Whether a command can stand among the arguments of another one as far as the scanner and the
grammar decide it.  A constraint always can, and is refused later where it has no place. -/
def Command.admits (parent child : Command) : Prop :=
  child = .constraint ∨ parent.accepts child.kind = true

instance (parent child : Command) : Decidable (parent.admits child) :=
  inferInstanceAs (Decidable (_ ∨ _))

/-- Counts the arguments of a command and builds it. -/
def Command.complete (command : Command) (args : Collected) :
    Except ParseError (Collected → Collected) := do
  command.checkCount args
  command.attach args

lemma Command.attach_eq_ok {command : Command} {args : Collected} {add : Collected → Collected}
    (h : command.attach args = .ok add) :
    (∃ slot, command = .constraint ∧ buildConstraint args = .ok slot ∧
        add = Collected.consConstraint slot) ∨
      ∃ node, command ≠ .constraint ∧ command.build args = .ok node ∧
        add = Collected.consChild node := by
  unfold attach at h
  split at h
  · rename_i hConstraint
    obtain ⟨slot, hBuild, hAdd⟩ := Except.map_eq_ok.1 h
    exact Or.inl ⟨slot, hConstraint, hBuild, hAdd.symm⟩
  · rename_i hConstraint
    obtain ⟨node, hBuild, hAdd⟩ := Except.map_eq_ok.1 h
    exact Or.inr ⟨node, hConstraint, hBuild, hAdd.symm⟩

/-! ## The counter -/

section Collecting

variable {limits : Limits} {depth : Nat} {parent : Command}

/-- Behind its arguments a command leaves the counter one lower than it found it, whatever stands
among them. -/
lemma left_of_collectCounting {arguments : Arguments} {args : Collected} {left : Nat}
    (h : collectCounting limits parent arguments depth = .ok (args, left)) : left = depth - 1 := by
  induction arguments generalizing depth parent args left with
  | closed =>
    cases h
    rfl
  | fault error => cases h
  | content text rest ih =>
    obtain ⟨⟨others, after⟩, hRest, h⟩ := Except.bind_eq_ok.1 h
    cases h
    exact ih hRest
  | options raw rest ih =>
    obtain ⟨options, -, h⟩ := Except.bind_eq_ok.1 h
    obtain ⟨⟨others, after⟩, hRest, h⟩ := Except.bind_eq_ok.1 h
    cases h
    exact ih hRest
  | reference entries rest ih =>
    obtain ⟨reference, -, h⟩ := Except.bind_eq_ok.1 h
    obtain ⟨⟨others, after⟩, hRest, h⟩ := Except.bind_eq_ok.1 h
    cases h
    exact ih hRest
  | command position child inner rest ihInner ih =>
    unfold collectCounting at h
    split at h
    · obtain ⟨⟨⟩, -, h⟩ := Except.bind_eq_ok.1 h
      obtain ⟨⟨innerArgs, back⟩, hInner, h⟩ := Except.bind_eq_ok.1 h
      obtain ⟨⟨⟩, -, h⟩ := Except.bind_eq_ok.1 h
      obtain ⟨constraint, -, h⟩ := Except.bind_eq_ok.1 h
      obtain ⟨⟨others, after⟩, hRest, h⟩ := Except.bind_eq_ok.1 h
      cases h
      obtain rfl : back = depth := ihInner hInner
      exact ih hRest
    split at h
    · obtain ⟨⟨⟩, -, h⟩ := Except.bind_eq_ok.1 h
      obtain ⟨⟨innerArgs, back⟩, hInner, h⟩ := Except.bind_eq_ok.1 h
      obtain ⟨⟨⟩, -, h⟩ := Except.bind_eq_ok.1 h
      obtain ⟨node, -, h⟩ := Except.bind_eq_ok.1 h
      obtain ⟨⟨others, after⟩, hRest, h⟩ := Except.bind_eq_ok.1 h
      cases h
      obtain rfl : back = depth := ihInner hInner
      exact ih hRest
    · cases h

variable (limits depth parent)

lemma collectCounting_eq (arguments : Arguments) :
    collectCounting limits parent arguments depth
      = (collect limits depth parent arguments).map fun args => (args, depth - 1) := by
  rw [collect]
  cases hCount : collectCounting limits parent arguments depth with
  | error e => rfl
  | ok found =>
    obtain ⟨args, left⟩ := found
    rw [left_of_collectCounting hCount]
    rfl

/-! ## One argument -/

lemma collect_content (text : String) (rest : Arguments) :
    collect limits depth parent (.content text rest) = (do
      let args ← collect limits depth parent rest
      .ok (args.consContent text)) := by
  rw [collect, collectCounting, collectCounting_eq]
  simp only [Except.map_bind, Except.bind_map]
  rfl

lemma collect_options (raw : RawOptions) (rest : Arguments) :
    collect limits depth parent (.options raw rest) = (do
      let options ← Options.ofRaw raw
      let args ← collect limits depth parent rest
      .ok (args.consOptions options)) := by
  rw [collect, collectCounting, collectCounting_eq]
  simp only [Except.map_bind, Except.bind_map]
  rfl

lemma collect_reference (entries : List String) (rest : Arguments) :
    collect limits depth parent (.reference entries rest) = (do
      let reference ← parent.resolveReference entries
      let args ← collect limits depth parent rest
      .ok (args.consChild (.reference reference))) := by
  rw [collect, collectCounting, collectCounting_eq]
  simp only [Except.map_bind, Except.bind_map]
  rfl

/-- Where a command is met it is entered, its arguments are collected, and it is completed. -/
lemma collect_command (position : Nat) (child : Command) (inner rest : Arguments) :
    collect limits depth parent (.command position child inner rest) =
      if parent.admits child then do
        limits.enter (depth + 1) position
        let innerArgs ← collect limits (depth + 1) child inner
        let add ← child.complete innerArgs
        let args ← collect limits depth parent rest
        .ok (add args)
      else .error (parent.unexpectedChild child position) := by
  rw [collect, collectCounting]
  simp only [collectCounting_eq, Except.map_bind, Nat.add_sub_cancel]
  by_cases hConstraint : child = .constraint
  · have hAdmits : parent.admits child := Or.inl hConstraint
    simp only [if_pos hConstraint, if_pos hAdmits, Command.complete, Command.attach, bind_assoc,
      Except.map_bind, Except.bind_map]
    rfl
  by_cases hAccepts : parent.accepts child.kind = true
  · have hAdmits : parent.admits child := Or.inr hAccepts
    simp only [if_neg hConstraint, if_pos hAccepts, if_pos hAdmits, Command.complete,
      Command.attach, bind_assoc, Except.map_bind, Except.bind_map]
    rfl
  · have hAdmits : ¬ parent.admits child := not_or_intro hConstraint hAccepts
    simp only [if_neg hConstraint, if_neg hAccepts, if_neg hAdmits]
    rfl

end Collecting

/-- What is needed for arguments among which a command stands to be collected. -/
lemma collect_command_eq_ok {limits : Limits} {depth position : Nat} {parent child : Command}
    {inner rest : Arguments} {args : Collected} :
    collect limits depth parent (.command position child inner rest) = .ok args ↔
      parent.admits child ∧ limits.enter (depth + 1) position = .ok () ∧
        ∃ innerArgs add others, collect limits (depth + 1) child inner = .ok innerArgs ∧
          child.complete innerArgs = .ok add ∧ collect limits depth parent rest = .ok others ∧
          add others = args := by
  rw [collect_command]
  split
  · rename_i hAdmits
    constructor
    · intro h
      obtain ⟨⟨⟩, hEnter, h⟩ := Except.bind_eq_ok.1 h
      obtain ⟨innerArgs, hInner, h⟩ := Except.bind_eq_ok.1 h
      obtain ⟨add, hComplete, h⟩ := Except.bind_eq_ok.1 h
      obtain ⟨others, hRest, h⟩ := Except.bind_eq_ok.1 h
      exact ⟨hAdmits, hEnter, innerArgs, add, others, hInner, hComplete, hRest,
        Except.ok.inj h⟩
    · rintro ⟨-, hEnter, innerArgs, add, others, hInner, hComplete, hRest, rfl⟩
      simp only [hEnter, hInner, hComplete, hRest, bind, Except.bind]
  · rename_i hAdmits
    constructor
    · rintro ⟨⟩
    · exact fun h => absurd h.1 hAdmits

end PolicyText
