import Mathlib.Tactic.Lemma
import PolicyText.Proofs.Scan.Ahead

/-!
# Reading a text by indices

A cursor holds what is left of a text and can only go forward.  A program that has the text in an
array and a position in it can do more than that: it can look at an index where there is no
character, cut a part out of the text that is not there, take a number from a smaller one, or go
round in a loop without getting any further.

Here a text is read by indices, and each of these is a fault of its own (`AccessFault`).  A
computation whose accesses are checked (`Checked`) ends in a fault or has an outcome, a result or an
error about the text.  That it has no fault is said by giving its outcome: it is `Checked.of` that
outcome.

`Cursor.ofIndex` is the place at an index of a text, and `atIndex` the outcome of a scanner with the
index instead of the place at which it ends.  The lemmas of this file say for every access what it
amounts to at a cursor; so a reader by indices is compared with a scanner step by step, and no index
is computed with except where a loop begins again (`Cursor.Leads.exists_ofIndex`).
-/

namespace PolicyText

/-- What can go wrong where a text is read by indices. -/
inductive AccessFault where
  /-- There is no character at an index. -/
  | index (i : Nat)
  /-- There is no part of the text from one index to another. -/
  | slice (first last : Nat)
  /-- A number is taken from a smaller one. -/
  | underflow (n k : Nat)
  /-- A loop has not got ahead within the text. -/
  | standstill (i : Nat)
  deriving DecidableEq, Repr

/-- A computation whose accesses are checked.  Without a fault it has an outcome. -/
abbrev Checked (α : Type) := ExceptT ParseError (Except AccessFault) α

namespace Checked

variable {α β : Type}

/-- A computation without a fault that has an outcome. -/
def of (outcome : Except ParseError α) : Checked α :=
  ExceptT.mk (.ok outcome)

/-- A computation that ends in a fault. -/
def fault (f : AccessFault) : Checked α :=
  ExceptT.mk (.error f)

lemma of_inj {outcome other : Except ParseError α} : of outcome = of other ↔ outcome = other :=
  ⟨Except.ok.inj, congrArg of⟩

lemma pure_eq (a : α) : (pure a : Checked α) = of (.ok a) :=
  rfl

@[simp] lemma of_ok_bind (a : α) (next : α → Checked β) : of (.ok a) >>= next = next a :=
  rfl

lemma of_bind {outcome : Except ParseError α} {next : α → Checked β}
    {step : α → Except ParseError β} (h : ∀ a, next a = of (step a)) :
    of outcome >>= next = of (outcome >>= step) := by
  cases outcome with
  | error e => rfl
  | ok a => exact h a

lemma findM?_of (found : α → Bool) (items : List α) :
    items.findM? (fun a => of (.ok (found a))) = of (.ok (items.find? found)) := by
  induction items with
  | nil => rfl
  | cons a items ih =>
    rw [List.findM?, of_ok_bind, List.find?_cons, ih]
    cases found a <;> rfl

end Checked

/-! ## Accesses -/

section Accesses

variable (text : List Char)

/-- The character at an index. -/
def charAt (i : Nat) : Checked Char :=
  if h : i < text.length then pure text[i] else .fault (.index i)

/-- The characters from one index to another. -/
def slice (first last : Nat) : Checked (List Char) :=
  if first ≤ last ∧ last ≤ text.length then pure ((text.drop first).take (last - first))
  else .fault (.slice first last)

/-- A number less another one. -/
def minus (n k : Nat) : Checked Nat :=
  if k ≤ n then pure (n - k) else .fault (.underflow n k)

/-- The first index, from some one on, whose character does not satisfy `p`, or the end. -/
def skipWhileAt (p : Char → Bool) (i : Nat) : Checked Nat :=
  if i < text.length then do
    let d ← charAt text i
    if p d then skipWhileAt p (i + 1) else pure i
  else pure i
termination_by text.length - i

/-- The first index, from some one on, at which something is found. -/
def findAt (found : Nat → Checked Bool) (i : Nat) : Checked (Option Nat) :=
  if i < text.length then do
    if ← found i then pure (some i) else findAt found (i + 1)
  else pure none
termination_by text.length - i

/-- Whether a mark stands at an index. -/
def startsWithAt (i : Nat) : List Char → Checked Bool
  | [] => pure true
  | c :: mark =>
    if i < text.length then do
      let d ← charAt text i
      if d = c then startsWithAt (i + 1) mark else pure false
    else pure false

end Accesses

/-! ## Accesses and cursors -/

variable {text : List Char} {i : Nat}

/-- The place at an index of a text. -/
def Cursor.ofIndex (text : List Char) (i : Nat) : Cursor :=
  ⟨i, text.drop i⟩

@[simp] lemma Cursor.position_ofIndex (text : List Char) (i : Nat) :
    (Cursor.ofIndex text i).position = i :=
  rfl

@[simp] lemma Cursor.rest_ofIndex (text : List Char) (i : Nat) :
    (Cursor.ofIndex text i).rest = text.drop i :=
  rfl

lemma Cursor.head?_rest_ofIndex (text : List Char) (i : Nat) :
    (Cursor.ofIndex text i).rest.head? = text[i]? :=
  List.head?_drop

lemma Cursor.ofIndex_of_none (h : text[i]? = none) : Cursor.ofIndex text i = ⟨i, []⟩ := by
  rw [ofIndex, List.drop_of_length_le (List.getElem?_eq_none_iff.1 h)]

lemma Cursor.ofIndex_of_some {d : Char} (h : text[i]? = some d) :
    Cursor.ofIndex text i = ⟨i, d :: (Cursor.ofIndex text (i + 1)).rest⟩ := by
  obtain ⟨hLess, rfl⟩ := List.getElem?_eq_some_iff.1 h
  rw [ofIndex, List.drop_eq_getElem_cons hLess, rest_ofIndex]

lemma Cursor.advance_ofIndex (text : List Char) (i n : Nat) :
    (Cursor.ofIndex text i).advance n = .ofIndex text (i + n) := by
  rw [advance, ofIndex, List.drop_drop, ofIndex]

lemma Cursor.Leads.eq_ofIndex {c : Cursor} (h : (Cursor.ofIndex text i).Leads c) :
    c = Cursor.ofIndex text c.position := by
  obtain ⟨run, hRest, hPosition⟩ := h
  obtain ⟨position, rest⟩ := c
  dsimp only [Cursor.ofIndex] at hRest hPosition ⊢
  rw [hPosition, ← List.drop_drop, hRest, List.drop_left]

lemma Cursor.Leads.exists_ofIndex {c : Cursor} (h : (Cursor.ofIndex text i).Leads c)
    (hLess : c.rest.length < (Cursor.ofIndex text i).rest.length) :
    ∃ j, c = .ofIndex text j ∧ i < j ∧ j ≤ text.length := by
  have hSum := h.position_add
  rw [rest_ofIndex, List.length_drop] at hLess hSum
  rw [position_ofIndex] at hSum
  exact ⟨c.position, h.eq_ofIndex, by omega, by omega⟩

lemma lt_length_of_drop {d : Char} {tail : List Char} (h : text.drop i = d :: tail) :
    i < text.length := by
  have hLength := congrArg List.length h
  rw [List.length_drop, List.length_cons] at hLength
  omega

lemma charAt_eq {d : Char} {tail : List Char} (h : text.drop i = d :: tail) :
    charAt text i = .of (.ok d) := by
  have hLess := lt_length_of_drop h
  have hGet : text[i] = d := by
    rw [List.drop_eq_getElem_cons hLess] at h
    exact (List.cons.inj h).1
  rw [charAt, dif_pos hLess, hGet]
  rfl

/-- The outcome of a scanner, with the index of the place at which it ends. -/
def atIndex {α : Type} (outcome : Except ParseError (α × Cursor)) : Except ParseError (α × Nat) :=
  outcome.map fun found => (found.1, found.2.position)

lemma of_atIndex_ok_bind {α β : Type} (a : α) (c : Cursor) (next : α × Nat → Checked β) :
    .of (atIndex (.ok (a, c))) >>= next = next (a, c.position) :=
  rfl

lemma drop_succ {d : Char} {tail : List Char} (h : text.drop i = d :: tail) :
    text.drop (i + 1) = tail := by
  rw [← List.drop_drop, h, List.drop_one, List.tail_cons]

lemma drop_eq_nil_of_not_lt (h : ¬ i < text.length) : text.drop i = [] :=
  List.drop_of_length_le (Nat.le_of_not_lt h)

lemma isEmpty_drop_iff : (text.drop i).isEmpty = true ↔ text.length ≤ i := by
  rw [List.isEmpty_iff, List.drop_eq_nil_iff]

lemma exists_drop_of_lt (h : i < text.length) : ∃ d tail, text.drop i = d :: tail :=
  ⟨_, _, List.drop_eq_getElem_cons h⟩

lemma slice_of_le {last : Nat} (hFirst : i ≤ last) (hLast : last ≤ text.length) :
    slice text i last = .of (.ok ((text.drop i).take (last - i))) :=
  if_pos ⟨hFirst, hLast⟩

lemma slice_eq {run rest : List Char} (h : text.drop i = run ++ rest) (hRest : rest ≠ []) :
    slice text i (i + run.length) = .of (.ok run) := by
  have hLength := congrArg List.length h
  have hLeft := List.length_pos_iff.2 hRest
  rw [List.length_drop, List.length_append] at hLength
  rw [slice_of_le (Nat.le_add_right _ _) (by omega), h, Nat.add_sub_cancel_left, List.take_left]

lemma skipWhileAt_eq (text : List Char) (p : Char → Bool) (i : Nat) :
    skipWhileAt text p i = .of (.ok ((Cursor.ofIndex text i).skipWhile p).position) := by
  fun_induction skipWhileAt text p i with
  | case1 i hLess ih =>
    obtain ⟨d, tail, hDrop⟩ := exists_drop_of_lt hLess
    rw [charAt_eq hDrop, Checked.of_ok_bind, Cursor.ofIndex, hDrop]
    split
    · rename_i hp
      rw [ih, Cursor.skipWhile_cons_of_pos _ hp, Cursor.ofIndex, drop_succ hDrop]
    · rename_i hp
      rw [Cursor.skipWhile_cons_of_neg _ (Bool.not_eq_true _ ▸ hp)]
      rfl
  | case2 i hEnd =>
    rw [Cursor.ofIndex, drop_eq_nil_of_not_lt hEnd]
    rfl

lemma exists_skipWhileAt (text : List Char) (p : Char → Bool) (i : Nat) :
    ∃ j, skipWhileAt text p i = .of (.ok j) ∧
      (Cursor.ofIndex text i).skipWhile p = .ofIndex text j :=
  ⟨_, skipWhileAt_eq text p i, (Cursor.leads_skipWhile p _).eq_ofIndex⟩

lemma slice_of_skipWhile {p : Char → Bool} {last : Nat}
    (h : (Cursor.ofIndex text i).skipWhile p = .ofIndex text last) (hLast : last < text.length) :
    slice text i last = .of (.ok ((text.drop i).takeWhile p)) := by
  obtain ⟨hPosition, hRest⟩ := Cursor.mk.inj h
  obtain rfl : i + ((text.drop i).takeWhile p).length = last := hPosition
  refine slice_eq List.takeWhile_append_dropWhile.symm ?_
  rw [show (text.drop i).dropWhile p = _ from hRest]
  exact fun hNil => Nat.not_le_of_lt hLast (List.drop_eq_nil_iff.1 hNil)

lemma startsWithAt_eq (text : List Char) (i : Nat) (mark : List Char) :
    startsWithAt text i mark = .of (.ok (mark.isPrefixOf (text.drop i))) := by
  induction mark generalizing i with
  | nil => rfl
  | cons c mark ih =>
    rw [startsWithAt]
    split
    · rename_i hLess
      obtain ⟨d, tail, hDrop⟩ := exists_drop_of_lt hLess
      rw [charAt_eq hDrop, Checked.of_ok_bind, hDrop, List.isPrefixOf_cons_cons]
      split
      · rename_i hSame
        rw [ih, drop_succ hDrop, hSame, beq_self_eq_true, Bool.true_and]
      · rename_i hOther
        rw [beq_eq_false_iff_ne.2 (Ne.symm hOther), Bool.false_and]
        rfl
    · rename_i hEnd
      rw [drop_eq_nil_of_not_lt hEnd]
      rfl

lemma startsWithAt_singleton (text : List Char) (i : Nat) (c : Char) :
    startsWithAt text i [c] = .of (.ok (decide (text[i]? = some c))) := by
  rw [startsWithAt_eq, ← List.head?_drop]
  cases text.drop i with
  | nil => rfl
  | cons d tail =>
    rw [List.isPrefixOf_cons_cons, List.isPrefixOf_nil_left, Bool.and_true, List.head?_cons]
    congr 3
    rw [Bool.beq_eq_decide_eq]
    simp [eq_comm]

end PolicyText
