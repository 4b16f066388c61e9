import PolicyText.Proofs.Build.OnePass
import PolicyText.Proofs.Indexed.Scanners

/-!
# Arguments by indices

The loop over the arguments of a command, with an index that is kept for the whole text and a
counter for the depth: a child moves both, and the loop goes on where the child has left them.  What
has been collected so far is carried along (`LoopState`), and the arguments are counted when the
loop is left.

Three functions call each other.  The loop and its children go further in the text by what they
check, the arguments of a child by the parenthesis with which they begin.  They gather what is
gathered from cursors: this holds of arguments and of children if it holds of the loop further on
(`LoopAgrees.readArgumentsAt_eq`, `LoopAgrees.readChildAt_eq`), and so of the loop at every index
(`loopAgrees`).
-/

namespace PolicyText

/-! ## Collecting behind what has been collected -/

/-- A piece behind other arguments.  Options and a constraint replace those that are there. -/
def Piece.push (piece : Piece) (args : Collected) : Collected :=
  match piece with
  | .child found => { args with children := args.children ++ [found] }
  | .content found => { args with contents := args.contents ++ [found] }
  | .options found => { args with options := some found }
  | .constraint found => { args with constraint := some found }

/-- Arguments behind other arguments. -/
def Collected.append (args more : Collected) : Collected :=
  { children := args.children ++ more.children
    contents := args.contents ++ more.contents
    options := more.options.or args.options
    constraint := more.constraint.or args.constraint }

lemma Collected.nil_append (args : Collected) : ({} : Collected).append args = args := by
  simp [append]

lemma Collected.append_nil (args : Collected) : args.append {} = args := by
  simp [append]

lemma Piece.push_append (piece : Piece) (args more : Collected) :
    (piece.push args).append more = args.append (piece.add more) := by
  cases piece with
  | child node => simp [push, add, Collected.append, Collected.consChild]
  | content text => simp [push, add, Collected.append, Collected.consContent]
  | options options =>
    cases more with
    | mk children contents options constraint => cases options <;> rfl
  | constraint constraint =>
    cases more with
    | mk children contents options constraint => cases constraint <;> rfl

/-! ## Reading -/

/-- What the loop over arguments knows: the arguments, whether a parenthesis has opened and whether
one has closed, the index and the depth. -/
structure LoopState where
  args : Collected := {}
  started : Bool := false
  completed : Bool := false
  position : Nat
  depth : Nat

/-- Leaves the loop over the arguments of a command: the arguments, the index behind them and the
depth outside of them. -/
def LoopState.finish (command : Command) (start : Nat) (state : LoopState) :
    Checked (Collected × Nat × Nat) := do
  let depth ← minus state.depth 1
  if !state.started then throw (.notStarted command.keyword start)
  else if !state.completed then throw (.notCompleted command.keyword start)
  else do
    Checked.of (command.checkCount state.args)
    pure (state.args, state.position, depth)

lemma LoopState.finish_closed (command : Command) (start : Nat) (args : Collected)
    (position depth : Nat) :
    LoopState.finish command start ⟨args, true, true, position, depth + 1⟩
      = .of (do
          command.checkCount args
          .ok (args, position, depth)) := by
  have hMinus : minus (depth + 1) 1 = .of (.ok depth) := if_pos (Nat.le_add_left 1 depth)
  rw [finish, hMinus, Checked.of_ok_bind]
  cases command.checkCount args <;> rfl

section Definitions

variable (limits : Limits) (text : List Char)

mutual

/-- Reads the arguments of the command whose parenthesis opens at an index.  The depth is that
around the command. -/
def readArgumentsAt (command : Command) (start opened depth : Nat) :
    Checked (Collected × Nat × Nat) := do
  Checked.of (limits.enter (depth + 1) start)
  let state ← argumentsLoopAt command { position := opened, depth := depth + 1 }
  state.finish command start
termination_by (text.length - opened, 2)

/-- The loop over arguments. -/
def argumentsLoopAt (command : Command) (state : LoopState) : Checked LoopState :=
  match _ : text[state.position]? with
  | none => pure state
  | some d =>
    match CharClass.of d with
    | .opening =>
      argumentsLoopAt command { state with started := true, position := state.position + 1 }
    | .closing => do
      let next ← skipWhileAt text isFiller (state.position + 1)
      pure { state with completed := true, position := next }
    | .delimiter | .filler =>
      argumentsLoopAt command { state with position := state.position + 1 }
    | .sigil => do
      let next ← readChildAt command state
      if _ : state.position < next.position ∧ next.position ≤ text.length then
        argumentsLoopAt command next
      else .fault (.standstill state.position)
    | .content => do
      let (entry, next) ← scanContentAt text ',' state.position
      if _ : state.position < next ∧ next ≤ text.length then
        argumentsLoopAt command
          { state with args := (Piece.content entry).push state.args, position := next }
      else .fault (.standstill state.position)
termination_by (text.length - state.position, 1)
decreasing_by
  all_goals
    have hLess := (List.getElem?_eq_some_iff.1 ‹text[state.position]? = _›).1
    omega

/-- Reads the option list, the reference or the command that begins at the index. -/
def readChildAt (parent : Command) (state : LoopState) : Checked LoopState := do
  let (child, opened) ← scanKeywordAt text state.position
  match child with
  | .options => do
    let (raw, next) ← scanOptionsAt text child.keyword opened
    let options ← Checked.of (Options.ofRaw raw)
    pure { state with args := (Piece.options options).push state.args, position := next }
  | .reference => do
    let (entries, next) ← scanReferenceAt text child.keyword opened
    let reference ← Checked.of (parent.resolveReference entries)
    pure
      { state with args := (Piece.child (.reference reference)).push state.args, position := next }
  | child =>
    if parent.admits child then
      if _ : state.position < opened ∧ opened ≤ text.length then do
        let (args, next, depth) ← readArgumentsAt child state.position opened state.depth
        let piece ← Checked.of (child.piece args)
        pure { state with args := piece.push state.args, position := next, depth := depth }
      else .fault (.standstill state.position)
    else throw (parent.unexpectedChild child state.position)
termination_by (text.length - state.position, 0)

end

end Definitions

/-! ## Agreement -/

variable {limits : Limits} {text : List Char}

/-- A loop that has come to an index ends with what is gathered from the place there, behind what
it has collected before. -/
def LoopAgrees (limits : Limits) (text : List Char) (i : Nat) : Prop :=
  ∀ (command : Command) (start : Nat) (args : Collected) (depth : Nat),
    argumentsLoopAt limits text command
        { args := args, started := true, position := i, depth := depth + 1 }
        >>= LoopState.finish command start
      = .of (do
          let (found, last) ← gatherFrom limits (depth + 1) command start (.ofIndex text i)
          command.checkCount (args.append found)
          .ok (args.append found, last.position, depth))

/-- Arguments are gathered if the loop behind their parenthesis agrees. -/
lemma LoopAgrees.readArgumentsAt_eq {opened : Nat} (h : LoopAgrees limits text (opened + 1))
    (hOpening : text[opened]? = some '(') (command : Command) (start depth : Nat) :
    readArgumentsAt limits text command start opened depth
      = .of ((gatherArguments limits (depth + 1) command start (.ofIndex text opened)).map
          fun found => (found.1, found.2.position, depth)) := by
  have hLoop : argumentsLoopAt limits text command { position := opened, depth := depth + 1 }
      = argumentsLoopAt limits text command
          { started := true, position := opened + 1, depth := depth + 1 } := by
    rw [argumentsLoopAt]
    split
    · rename_i hEnd
      cases hOpening.symm.trans hEnd
    · rename_i d hChar
      cases hOpening.symm.trans hChar
      rfl
  rw [readArgumentsAt, gatherArguments, Cursor.advance_ofIndex, hLoop, Except.bind_map]
  refine Checked.of_bind fun _ => ?_
  rw [h]
  simp only [Collected.nil_append, Except.bind_map]
  rfl

/-- What begins with a sigil is gathered if the loops further on agree. -/
lemma LoopAgrees.readChildAt_eq {state : LoopState}
    (h : ∀ j, state.position < j → LoopAgrees limits text j) (parent : Command) :
    readChildAt limits text parent state
      = .of ((gatherChild limits state.depth parent (.ofIndex text state.position)).map fun found =>
          { state with args := found.1.push state.args, position := found.2.position }) := by
  rw [readChildAt, scanKeywordAt_eq]
  cases hKeyword : scanKeyword (.ofIndex text state.position) with
  | error e =>
    rw [gatherChild, hKeyword]
    rfl
  | ok found =>
    obtain ⟨child, opened⟩ := found
    obtain ⟨j, rfl, hProgress, hOpening⟩ := exists_opened_of_scanKeyword hKeyword
    rw [of_atIndex_ok_bind]
    dsimp only [Cursor.position_ofIndex]
    split
    · rw [gatherChild, hKeyword, Except.ok_bind, scanOptionsAt_eq]
      dsimp only
      cases scanOptions Command.options.keyword (.ofIndex text j) with
      | error e => rfl
      | ok found =>
        rw [of_atIndex_ok_bind, Except.ok_bind]
        dsimp only
        cases Options.ofRaw found.1 <;> rfl
    · rw [gatherChild, hKeyword, Except.ok_bind, scanReferenceAt_eq]
      dsimp only
      cases scanReference Command.reference.keyword (.ofIndex text j) with
      | error e => rfl
      | ok found =>
        rw [of_atIndex_ok_bind, Except.ok_bind]
        dsimp only
        cases parent.resolveReference found.1 <;> rfl
    · rename_i hOptions hReference
      rw [gatherChild_command hOptions hReference hKeyword, dif_pos hProgress,
        (h (j + 1) (by omega)).readArgumentsAt_eq hOpening _ state.position state.depth,
        Cursor.position_ofIndex]
      split
      · cases gatherArguments limits (state.depth + 1) child state.position (.ofIndex text j) with
        | error e => rfl
        | ok found =>
          rw [Except.ok_bind]
          dsimp only [Except.map]
          rw [Checked.of_ok_bind]
          dsimp only
          cases child.piece found.1 <;> rfl
      · rfl

/-- The loop over arguments agrees at every index. -/
lemma loopAgrees (limits : Limits) (text : List Char) (i : Nat) : LoopAgrees limits text i := by
  -- The induction is on what is left of the text; what the loop has collected is carried along.
  induction hSize : text.length - i using Nat.strong_induction_on generalizing i with
  | _ size ih =>
  intro command start args depth
  rw [argumentsLoopAt]
  split
  · rename_i hEnd
    rw [Cursor.ofIndex_of_none hEnd, gatherFrom_nil]
    rfl
  rename_i d hChar
  have hPlace := Cursor.ofIndex_of_some hChar
  have hLess := (List.getElem?_eq_some_iff.1 hChar).1
  dsimp only at hPlace hLess ⊢
  have hNext := ih _ (by omega) (i + 1) rfl
  cases hClass : CharClass.of d with
  | opening =>
    rw [hPlace, gatherFrom_passed (Or.inr (Or.inr hClass))]
    exact hNext command start args depth
  | delimiter =>
    rw [hPlace, gatherFrom_passed (Or.inl hClass)]
    exact hNext command start args depth
  | filler =>
    rw [hPlace, gatherFrom_passed (Or.inr (Or.inl hClass))]
    exact hNext command start args depth
  | closing =>
    obtain ⟨next, hSkip, hSkipped⟩ := exists_skipWhileAt text isFiller (i + 1)
    have hBehind : Cursor.skipFiller ⟨i + 1, (Cursor.ofIndex text (i + 1)).rest⟩
        = .ofIndex text next := hSkipped
    dsimp only
    rw [hSkip, Checked.of_ok_bind, hPlace, gatherFrom_closing hClass, Except.ok_bind, hBehind,
      Collected.append_nil]
    exact LoopState.finish_closed command start args next depth
  | sigil =>
    have hFurther (j : Nat) (hj : i < j) : LoopAgrees limits text j :=
      ih _ (by omega) j rfl
    dsimp only
    rw [LoopAgrees.readChildAt_eq hFurther, hPlace, gatherFrom_sigil hClass, ← hPlace]
    cases hChild : gatherChild limits (depth + 1) command (.ofIndex text i) with
    | error e => rfl
    | ok found =>
      obtain ⟨piece, next⟩ := found
      obtain ⟨hLeads, hShorter⟩ := ahead_of_gatherChild hChild
      obtain ⟨j, rfl, hProgress⟩ := hLeads.exists_ofIndex hShorter
      dsimp only [Except.map]
      rw [Checked.of_ok_bind]
      refine (congrArg (· >>= LoopState.finish command start) (dif_pos hProgress)).trans ?_
      dsimp only [Cursor.position_ofIndex]
      rw [hFurther j hProgress.1]
      simp only [Piece.push_append, Except.ok_bind, bind_assoc]
  | content =>
    dsimp only
    rw [scanContentAt_eq, hPlace, gatherFrom_content hClass, ← hPlace]
    cases hContent : scanContent ',' (.ofIndex text i) with
    | error e => rfl
    | ok found =>
      obtain ⟨entry, next⟩ := found
      obtain ⟨j, rfl, hProgress⟩ := (leads_of_scanContent hContent).exists_ofIndex
        (length_of_scanContent (congrArg Cursor.rest hPlace) (endsContent_of_content hClass)
          hContent)
      rw [of_atIndex_ok_bind]
      refine (congrArg (· >>= LoopState.finish command start) (dif_pos hProgress)).trans ?_
      dsimp only [Cursor.position_ofIndex]
      rw [ih _ (by omega) j rfl]
      simp only [Piece.push_append, Except.ok_bind, bind_assoc]
      rfl

end PolicyText
