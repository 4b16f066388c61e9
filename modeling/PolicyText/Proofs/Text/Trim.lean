import Mathlib.Data.List.DropRight
import Mathlib.Data.List.TakeWhile
import PolicyText.Text.Blank

/-!
# Runs at the ends of a text

Scanners cut a text where a run of characters of some class ends, and trim what they have cut.
This file says what that does to a text that was put together from parts: a run in front of a
character that does not belong to it is taken as a whole (`takeWhile_append_cons`,
`dropWhile_append_cons`), and blanks behind a text are trimmed away with those the text already
ends in (`trim_append_of_blank`), as are those before it (`trim_append_of_blank_left`).

A text that equals its own trim is `Trimmed`.  Such a text, if there is any of it, neither begins
nor ends with a blank (`Trimmed.head`, `Trimmed.exists_last`).
-/

namespace PolicyText.Text

/-- What is said of every character of a text is decided along the text, and not by going through
all characters that there are. -/
instance decidableForallMemChar {property : Char → Prop} [DecidablePred property]
    (text : List Char) : Decidable (∀ c ∈ text, property c) :=
  List.decidableBAll property text

variable {p : Char → Bool}

/-! ## Runs at the beginning -/

lemma takeWhile_append_cons {run rest : List Char} {c : Char} (hRun : ∀ d ∈ run, p d = true)
    (hc : p c = false) : (run ++ c :: rest).takeWhile p = run := by
  rw [List.takeWhile_append_of_pos hRun, List.takeWhile_cons_of_neg (by simp [hc]),
    List.append_nil]

lemma dropWhile_append_cons {run rest : List Char} {c : Char} (hRun : ∀ d ∈ run, p d = true)
    (hc : p c = false) : (run ++ c :: rest).dropWhile p = c :: rest := by
  rw [List.dropWhile_append_of_pos hRun, List.dropWhile_cons_of_neg (by simp [hc])]

/-- A run ends at the end of the text or at a character that does not belong to it. -/
lemma exists_mark (p : Char → Bool) (text : List Char) :
    ∃ mark : Option Char, (∀ c ∈ mark, p c = true) ∧
      (mark = none → (text.dropWhile (!p ·)).drop 1 = []) ∧
      text = text.takeWhile (!p ·) ++ mark.toList ++ (text.dropWhile (!p ·)).drop 1 ∧
      mark.isNone = (text.dropWhile (!p ·)).isEmpty := by
  have hText := List.takeWhile_append_dropWhile (p := (!p ·)) (l := text)
  have hEnd := List.head?_dropWhile_not (!p ·) text
  cases hMarked : text.dropWhile (!p ·) with
  | nil =>
    rw [hMarked, List.append_nil] at hText
    refine ⟨none, fun _ h => (Option.not_mem_none _ h).elim, fun _ => rfl, ?_, rfl⟩
    simp only [Option.toList_none, List.append_nil, List.drop_nil, hText]
  | cons c rest =>
    rw [hMarked, List.head?_cons] at hEnd
    refine ⟨some c, ?_, nofun, ?_, rfl⟩
    · intro d hd
      obtain rfl := Option.mem_some.1 hd
      simpa using hEnd
    · rw [hMarked] at hText
      rw [Option.toList_some, List.append_assoc, List.singleton_append, List.drop_succ_cons,
        List.drop_zero, hText]

/-! ## Runs at the end -/

lemma dropEndWhile_append_of_all (text : List Char) {run : List Char}
    (hRun : ∀ d ∈ run, p d = true) : dropEndWhile p (text ++ run) = dropEndWhile p text := by
  have hReverse : ∀ d ∈ run.reverse, p d = true := fun d hd => hRun d (List.mem_reverse.1 hd)
  rw [dropEndWhile, List.reverse_append, List.dropWhile_append_of_pos hReverse, dropEndWhile]

lemma dropEndWhile_append_singleton (text : List Char) {c : Char} (hc : p c = false) :
    dropEndWhile p (text ++ [c]) = text ++ [c] :=
  List.rdropWhile_concat_neg p text c (by simp [hc])

lemma dropEndWhile_isPrefix (p : Char → Bool) (text : List Char) :
    dropEndWhile p text <+: text :=
  List.rdropWhile_prefix p text

lemma dropEndWhile_idem (p : Char → Bool) (text : List Char) :
    dropEndWhile p (dropEndWhile p text) = dropEndWhile p text :=
  List.rdropWhile_idempotent p text

/-! ## Trimming -/

lemma trim_append_of_blank (text : List Char) {pad : List Char}
    (hPad : ∀ d ∈ pad, isBlank d = true) : trim (text ++ pad) = trim text := by
  rw [trim, trim, trimStart, trimStart, List.dropWhile_append]
  split
  · rename_i hText
    rw [List.isEmpty_iff.1 hText, List.dropWhile_eq_nil_iff.2 hPad]
  · exact dropEndWhile_append_of_all _ hPad

lemma trim_append_of_blank_left {pad : List Char} (hPad : ∀ d ∈ pad, isBlank d = true)
    (text : List Char) : trim (pad ++ text) = trim text := by
  rw [trim, trim, trimStart, List.dropWhile_append_of_pos hPad, trimStart]

lemma exists_blanks_around (text : List Char) :
    ∃ front back, (∀ d ∈ front, isBlank d = true) ∧ (∀ d ∈ back, isBlank d = true) ∧
      text = front ++ trim text ++ back := by
  refine ⟨text.takeWhile isBlank, ((trimStart text).reverse.takeWhile isBlank).reverse,
    fun d hd => List.mem_takeWhile_imp hd,
    fun d hd => List.mem_takeWhile_imp (List.mem_reverse.1 hd), ?_⟩
  have hEnd : trim text ++ ((trimStart text).reverse.takeWhile isBlank).reverse
      = trimStart text := by
    rw [trim, trimEnd, dropEndWhile, ← List.reverse_append, List.takeWhile_append_dropWhile,
      List.reverse_reverse]
  rw [List.append_assoc, hEnd, trimStart, List.takeWhile_append_dropWhile]

lemma trimStart_trimEnd_of_trimStart {text : List Char} (h : trimStart text = text) :
    trimStart (trimEnd text) = trimEnd text := by
  cases hEnd : trimEnd text with
  | nil => rfl
  | cons c rest =>
    obtain ⟨tail, hTail⟩ : trimEnd text <+: text := dropEndWhile_isPrefix isBlank text
    rw [hEnd, List.cons_append] at hTail
    have hHead : isBlank c = false := by
      by_contra hBlank
      rw [Bool.not_eq_false] at hBlank
      rw [← hTail, trimStart, List.dropWhile_cons_of_pos hBlank] at h
      have := Text.length_dropWhile_le isBlank (rest ++ tail)
      rw [h, List.length_cons] at this
      omega
    rw [trimStart, List.dropWhile_cons_of_neg (by simp [hHead])]

lemma trim_cons_ne_nil {c : Char} {rest : List Char} (h : isBlank c = false) :
    trim (c :: rest) ≠ [] := by
  intro hTrim
  rw [trim, trimStart, List.dropWhile_cons_of_neg (by simp [h])] at hTrim
  have hBlank := List.rdropWhile_eq_nil_iff.1 hTrim c List.mem_cons_self
  rw [h] at hBlank
  cases hBlank

/-- A text is trimmed if trimming it changes nothing. -/
def Trimmed (text : List Char) : Prop :=
  trim text = text

instance (text : List Char) : Decidable (Trimmed text) :=
  inferInstanceAs (Decidable (trim text = text))

lemma trimmed_trim (text : List Char) : Trimmed (trim text) := by
  have hStart : trimStart (trimStart text) = trimStart text := by
    exact List.dropWhile_idempotent (p := isBlank) (l := text)
  rw [Trimmed, trim, trim, trimStart_trimEnd_of_trimStart hStart]
  exact dropEndWhile_idem isBlank (trimStart text)

lemma Trimmed.head {c : Char} {rest : List Char} (h : Trimmed (c :: rest)) :
    isBlank c = false := by
  by_contra hBlank
  rw [Bool.not_eq_false] at hBlank
  rw [Trimmed, trim, trimStart, List.dropWhile_cons_of_pos hBlank] at h
  have hEnd : (trimEnd (rest.dropWhile isBlank)).length ≤ (rest.dropWhile isBlank).length :=
    (dropEndWhile_isPrefix isBlank _).length_le
  have hStart := length_dropWhile_le isBlank rest
  rw [h, List.length_cons] at hEnd
  omega

lemma Trimmed.exists_last {text : List Char} (h : Trimmed text) (hText : text ≠ []) :
    ∃ init d, text = init ++ [d] ∧ isBlank d = false := by
  have hEnd : List.rdropWhile isBlank (trimStart text) = text := h
  have hLast : List.rdropWhile isBlank (trimStart text) ≠ [] := by rwa [hEnd]
  have hBlank := List.rdropWhile_last_not isBlank (trimStart text) hLast
  simp only [hEnd, Bool.not_eq_true] at hBlank
  exact ⟨text.dropLast, text.getLast hText, (List.dropLast_append_getLast hText).symm, hBlank⟩

lemma trimmed_of_ends {c d : Char} (inner : List Char) (hc : isBlank c = false)
    (hd : isBlank d = false) : Trimmed (c :: (inner ++ [d])) := by
  rw [Trimmed, trim, trimStart, List.dropWhile_cons_of_neg (by simp [hc]), trimEnd,
    ← List.cons_append, dropEndWhile_append_singleton _ hd]

lemma trimmed_of_forall {text : List Char} (h : ∀ c ∈ text, isBlank c = false) : Trimmed text := by
  have hNone : ∀ l : List Char, (∀ c ∈ l, isBlank c = false) → l.dropWhile isBlank = l := by
    intro l hl
    cases l with
    | nil => rfl
    | cons c rest => rw [List.dropWhile_cons_of_neg (by simp [hl c List.mem_cons_self])]
  rw [Trimmed, trim, trimStart, hNone text h, trimEnd, dropEndWhile,
    hNone _ fun c hc => h c (List.mem_reverse.1 hc), List.reverse_reverse]

lemma Trimmed.trim_append {text pad : List Char} (h : Trimmed text)
    (hPad : ∀ d ∈ pad, isBlank d = true) : trim (text ++ pad) = text := by
  rw [trim_append_of_blank text hPad, h]

end PolicyText.Text
