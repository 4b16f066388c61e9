import PolicyText.Proofs.Scan.Ahead

/-!
# The commands of a text

A text begins with a command, and among the arguments of a command stand further ones.
`occurrences` lists them all, each with its depth: that of the first is one, and a command stands
one deeper than the command around it.  Option lists and references are no commands in this sense,
for they have no arguments that could be commands.

The list is in the order of the text, since positions increase along it
(`occurrences_pairwise`), and at every position stands the keyword of the command
(`keyword_of_mem_occurrences`).
-/

namespace PolicyText

/-- A command as it stands in a text: the position of its keyword, its depth, and its arguments. -/
structure Occurrence where
  position : Nat
  depth : Nat
  command : Command
  arguments : Arguments

/-- The commands among arguments, of which those that are not inside of others have a depth. -/
def Arguments.occurrences (depth : Nat) : Arguments → List Occurrence
  | .closed | .fault _ => []
  | .content _ rest | .options _ rest | .reference _ rest => rest.occurrences depth
  | .command position child inner rest =>
    ⟨position, depth, child, inner⟩ :: (inner.occurrences (depth + 1) ++ rest.occurrences depth)

/-- The place at which the first command of a text can begin. -/
def Cursor.first (text : String) : Cursor :=
  (Cursor.start text.toList).skipFiller

/-- The commands of a text. -/
def occurrences (text : String) : List Occurrence :=
  match scanKeyword (.first text) with
  | .error _ => []
  | .ok (command, opened) =>
    let position := (Cursor.first text).position
    let arguments := (scanArguments command.keyword position (opened.advance 1)).arguments
    ⟨position, 1, command, arguments⟩ :: arguments.occurrences 2

lemma occurrences_eq {text : String} {command : Command} {opened : Cursor}
    (h : scanKeyword (.first text) = .ok (command, opened)) :
    occurrences text =
      ⟨(Cursor.first text).position, 1, command,
        (readArguments command.keyword (Cursor.first text).position (opened.advance 1)).1⟩ ::
      (readArguments command.keyword (Cursor.first text).position
        (opened.advance 1)).1.occurrences 2 := by
  rw [occurrences, h]
  rfl

/-! ## Where commands stand -/

/-- A command that is found from a place on is recognised at a place further on, and before that at
which the arguments end. -/
lemma ReadsArguments.exists_place {keyword : String} {start : Nat} {c : Cursor}
    {args : Arguments} {last : Except ParseError Cursor}
    (h : ReadsArguments keyword start c args last) (depth : Nat) :
    ∀ found ∈ args.occurrences depth, ∃ d opened, c.Leads d ∧ d.position = found.position ∧
      scanKeyword d = .ok (found.command, opened) ∧ ∀ e, last = .ok e → opened.Leads e := by
  induction h generalizing depth with
  | ended => exact List.forall_mem_nil _
  | closing => exact List.forall_mem_nil _
  | stuck => exact List.forall_mem_nil _
  | passed hClass hRest ih =>
    intro found hFound
    obtain ⟨d, opened, hLeads, hFound⟩ := ih depth found hFound
    exact ⟨d, opened, (Cursor.leads_tail _ _ _).trans hLeads, hFound⟩
  | content hClass hContent hRest ih =>
    intro found hFound
    obtain ⟨d, opened, hLeads, hFound⟩ := ih depth found hFound
    exact ⟨d, opened, (leads_of_scanContent hContent).trans hLeads, hFound⟩
  | options hClass hKeyword hOptions hRest ih =>
    intro found hFound
    obtain ⟨d, opened, hLeads, hFound⟩ := ih depth found hFound
    have hNext := (leads_of_scanKeyword hKeyword).1.trans (leads_of_scanOptions hOptions)
    exact ⟨d, opened, hNext.trans hLeads, hFound⟩
  | reference hClass hKeyword hReference hRest ih =>
    intro found hFound
    obtain ⟨d, opened, hLeads, hFound⟩ := ih depth found hFound
    have hNext := (leads_of_scanKeyword hKeyword).1.trans (leads_of_scanReference hReference)
    exact ⟨d, opened, hNext.trans hLeads, hFound⟩
  | unclosed hClass hOptions hReference hKeyword hInner ih =>
    intro found hFound
    rw [Arguments.occurrences, Arguments.occurrences, List.append_nil, List.mem_cons] at hFound
    obtain ⟨hOpened, -, hAdvance⟩ := leads_of_scanKeyword hKeyword
    obtain rfl | hFound := hFound
    · exact ⟨_, _, .refl _, rfl, hKeyword, by rintro e ⟨⟩⟩
    · obtain ⟨d, opened, hLeads, hPosition, hFound, -⟩ := ih (depth + 1) found hFound
      exact ⟨d, opened, (hOpened.trans hAdvance).trans hLeads, hPosition, hFound,
        by rintro e ⟨⟩⟩
  | command hClass hOptions hReference hKeyword hInner hRest ihInner ih =>
    intro found hFound
    rw [Arguments.occurrences, List.mem_cons, List.mem_append] at hFound
    obtain ⟨hOpened, -, hAdvance⟩ := leads_of_scanKeyword hKeyword
    have hInside := hInner.leads _ rfl
    obtain rfl | hFound | hFound := hFound
    · exact ⟨_, _, .refl _, rfl, hKeyword,
        fun e he => (hAdvance.trans hInside).trans (hRest.leads e he)⟩
    · obtain ⟨d, opened, hLeads, hPosition, hFound, hEnd⟩ := ihInner (depth + 1) found hFound
      exact ⟨d, opened, (hOpened.trans hAdvance).trans hLeads, hPosition, hFound,
        fun e he => (hEnd _ rfl).trans (hRest.leads e he)⟩
    · obtain ⟨d, opened, hLeads, hFound⟩ := ih depth found hFound
      exact ⟨d, opened, ((hOpened.trans hAdvance).trans hInside).trans hLeads, hFound⟩

lemma ReadsArguments.le_position {keyword : String} {start : Nat} {c : Cursor}
    {args : Arguments} {last : Except ParseError Cursor}
    (h : ReadsArguments keyword start c args last) {depth : Nat} {found : Occurrence}
    (hFound : found ∈ args.occurrences depth) : c.position ≤ found.position := by
  obtain ⟨d, opened, hLeads, hPosition, -⟩ := h.exists_place depth found hFound
  exact hPosition ▸ hLeads.position_le

lemma ReadsArguments.position_lt {keyword : String} {start : Nat} {c last : Cursor}
    {args : Arguments} (h : ReadsArguments keyword start c args (.ok last)) {depth : Nat}
    {found : Occurrence} (hFound : found ∈ args.occurrences depth) :
    found.position < last.position := by
  obtain ⟨d, opened, -, hPosition, hKeyword, hEnd⟩ := h.exists_place depth found hFound
  rw [← hPosition]
  exact Nat.lt_of_lt_of_le (leads_of_scanKeyword hKeyword).2.1 (hEnd last rfl).position_le

/-- Of two commands that are found the later one has the greater position. -/
lemma ReadsArguments.pairwise_position {keyword : String} {start : Nat} {c : Cursor}
    {args : Arguments} {last : Except ParseError Cursor}
    (h : ReadsArguments keyword start c args last) (depth : Nat) :
    (args.occurrences depth).Pairwise fun a b => a.position < b.position := by
  induction h generalizing depth with
  | ended => exact .nil
  | closing => exact .nil
  | stuck => exact .nil
  | passed hClass hRest ih => exact ih depth
  | content hClass hContent hRest ih => exact ih depth
  | options hClass hKeyword hOptions hRest ih => exact ih depth
  | reference hClass hKeyword hReference hRest ih => exact ih depth
  | unclosed hClass hOptions hReference hKeyword hInner ih =>
    obtain ⟨-, hBehind, hAdvance⟩ := leads_of_scanKeyword hKeyword
    rw [Arguments.occurrences, Arguments.occurrences, List.append_nil]
    refine List.pairwise_cons.2 ⟨fun found hFound => ?_, ih (depth + 1)⟩
    exact Nat.lt_of_lt_of_le hBehind (hAdvance.position_le.trans (hInner.le_position hFound))
  | command hClass hOptions hReference hKeyword hInner hRest ihInner ih =>
    obtain ⟨-, hBehind, hAdvance⟩ := leads_of_scanKeyword hKeyword
    have hOpened := Nat.lt_of_lt_of_le hBehind hAdvance.position_le
    have hInside := (hInner.leads _ rfl).position_le
    rw [Arguments.occurrences]
    refine List.pairwise_cons.2 ⟨fun found hFound => ?_, List.pairwise_append.2
      ⟨ihInner (depth + 1), ih depth, fun found hFound other hOther => ?_⟩⟩
    · rcases List.mem_append.1 hFound with hFound | hFound
      · exact Nat.lt_of_lt_of_le hOpened (hInner.le_position hFound)
      · exact Nat.lt_of_lt_of_le hOpened (hInside.trans (hRest.le_position hFound))
    · exact Nat.lt_of_lt_of_le (hInner.position_lt hFound) (hRest.le_position hOther)

/-! ## Whole texts -/

lemma occurrences_pairwise (text : String) :
    (occurrences text).Pairwise fun a b => a.position < b.position := by
  unfold occurrences
  split
  · exact .nil
  · rename_i command opened hKeyword
    have hRead := readsArguments command.keyword (Cursor.first text).position (opened.advance 1)
    obtain ⟨-, hBehind, hAdvance⟩ := leads_of_scanKeyword hKeyword
    refine List.pairwise_cons.2 ⟨fun found hFound => ?_, hRead.pairwise_position 2⟩
    exact Nat.lt_of_lt_of_le hBehind (hAdvance.position_le.trans (hRead.le_position hFound))

/-- The keyword of a command stands at its position. -/
lemma keyword_of_mem_occurrences {text : String} {found : Occurrence}
    (h : found ∈ occurrences text) :
    found.command.keyword.toList <+: text.toList.drop found.position := by
  obtain ⟨d, opened, ⟨run, hRun, hEnd⟩, hPosition, hKeyword⟩ :
      ∃ d opened, (Cursor.start text.toList).Leads d ∧ d.position = found.position ∧
        scanKeyword d = .ok (found.command, opened) := by
    have hFirst : (Cursor.start text.toList).Leads (Cursor.first text) :=
      Cursor.leads_skipFiller _
    unfold occurrences at h
    split at h
    · cases h
    rename_i command opened hKeyword
    obtain ⟨hOpened, -, hAdvance⟩ := leads_of_scanKeyword hKeyword
    obtain rfl | h := List.mem_cons.1 h
    · exact ⟨_, opened, hFirst, rfl, hKeyword⟩
    · have hRead :=
        readsArguments command.keyword (Cursor.first text).position (opened.advance 1)
      obtain ⟨d, opened, hLeads, hPosition, hFound, -⟩ := hRead.exists_place 2 found h
      exact ⟨d, opened, ((hFirst.trans hOpened).trans hAdvance).trans hLeads, hPosition, hFound⟩
  obtain ⟨pad, rest, -, hRest, -⟩ := keyword_of_scanKeyword hKeyword
  have hDrop : text.toList.drop found.position = d.rest := by
    rw [← hPosition, hEnd, show (Cursor.start text.toList).position = 0 from rfl, Nat.zero_add]
    conv_lhs => rw [show text.toList = run ++ d.rest from hRun, List.drop_left]
  rw [hDrop, hRest]
  exact List.prefix_append _ _

end PolicyText
