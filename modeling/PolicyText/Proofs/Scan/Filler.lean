import PolicyText.Proofs.Text.Trim
import PolicyText.Scan.Content

/-!
# Fillers and skipping

Between tokens a scanner passes over fillers, behind a token without wrapper over blanks only.
Every blank is a filler (`isFiller_of_isBlank`), so that it makes no difference for what follows
which of the two was passed over, and neither a comma nor a parenthesis is one.

Skipping is stated for a cursor whose text is put together from what is skipped and what is not
(`Cursor.skipWhile_append_cons`); a cursor that has skipped can skip again without moving.
-/

namespace PolicyText

/-! ## Classes of characters -/

lemma isBlank_of_punctuation :
    ∀ c ∈ '#' :: '*' :: contentPunctuation, Text.isBlank c = false := by
  decide

lemma isBlank_eq_false_of_isAlphanum {c : Char} (h : c.isAlphanum = true) :
    Text.isBlank c = false := by
  have hNat : c.toNat = c.val.toNat := rfl
  have hUpper : 'A'.val.toNat = 65 ∧ 'Z'.val.toNat = 90 := ⟨rfl, rfl⟩
  have hLower : 'a'.val.toNat = 97 ∧ 'z'.val.toNat = 122 := ⟨rfl, rfl⟩
  have hDigit : '0'.val.toNat = 48 ∧ '9'.val.toNat = 57 := ⟨rfl, rfl⟩
  have hCode : (decide ('A'.val ≤ c.val ∧ c.val ≤ 'Z'.val) ||
      decide ('a'.val ≤ c.val) && decide (c.val ≤ 'z'.val) ||
      decide ('0'.val ≤ c.val) && decide (c.val ≤ '9'.val)) = true := h
  simp only [Bool.or_eq_true, Bool.and_eq_true, decide_eq_true_eq, UInt32.le_iff_toNat_le] at hCode
  simp only [Text.isBlank, hNat, Bool.or_eq_false_iff, Bool.and_eq_false_iff,
    decide_eq_false_iff_not, beq_eq_false_iff_ne, ne_eq]
  omega

lemma isFiller_of_isBlank {c : Char} (h : Text.isBlank c = true) : isFiller c = true := by
  have hPunctuation : ∀ d ∈ '#' :: '*' :: contentPunctuation, c ≠ d := by
    rintro d hd rfl
    rw [isBlank_of_punctuation c hd] at h
    cases h
  have hAlphanum : c.isAlphanum ≠ true := by
    intro hc
    rw [isBlank_eq_false_of_isAlphanum hc] at h
    cases h
  simp only [List.mem_cons, forall_eq_or_imp] at hPunctuation
  obtain ⟨hHash, hStar, hRest⟩ := hPunctuation
  have hContent : c ∉ contentPunctuation := fun hc => hRest c hc rfl
  have hOpening : c ≠ '(' := hRest '(' (by decide)
  have hClosing : c ≠ ')' := hRest ')' (by decide)
  have hComma : c ≠ ',' := hRest ',' (by decide)
  simp [isFiller, CharClass.of, hHash, hStar, hOpening, hClosing, hComma, hAlphanum, hContent]

lemma isFiller_iff {c : Char} : isFiller c = true ↔ CharClass.of c = .filler := by
  simp [isFiller]

lemma isFiller_eq_false {c : Char} (h : CharClass.of c ≠ .filler) : isFiller c = false := by
  rw [← Bool.not_eq_true]
  exact fun hFiller => h (isFiller_iff.1 hFiller)

/-! ## Skipping -/

namespace Cursor

variable {p : Char → Bool}

lemma skipWhile_append_cons {run rest : List Char} {c : Char} (position : Nat)
    (hRun : ∀ d ∈ run, p d = true) (hc : p c = false) :
    (Cursor.mk position (run ++ c :: rest)).skipWhile p
      = ⟨position + run.length, c :: rest⟩ := by
  rw [skipWhile, Text.takeWhile_append_cons hRun hc, Text.dropWhile_append_cons hRun hc]

lemma skipWhile_cons_of_neg {rest : List Char} {c : Char} (position : Nat) (hc : p c = false) :
    (Cursor.mk position (c :: rest)).skipWhile p = ⟨position, c :: rest⟩ :=
  @skipWhile_append_cons p [] rest c position (by simp) hc

lemma skipWhile_cons_of_pos {rest : List Char} {c : Char} (position : Nat) (hc : p c = true) :
    (Cursor.mk position (c :: rest)).skipWhile p = (Cursor.mk (position + 1) rest).skipWhile p := by
  simp only [skipWhile, List.takeWhile_cons_of_pos hc, List.dropWhile_cons_of_pos hc,
    List.length_cons]
  congr 1
  omega

@[simp] lemma skipWhile_nil (p : Char → Bool) (position : Nat) :
    (Cursor.mk position []).skipWhile p = ⟨position, []⟩ :=
  rfl

lemma skipWhile_append_of_all {run : List Char} (position : Nat) (rest : List Char)
    (hRun : ∀ d ∈ run, p d = true) :
    (Cursor.mk position (run ++ rest)).skipWhile p
      = (Cursor.mk (position + run.length) rest).skipWhile p := by
  rw [skipWhile, List.takeWhile_append_of_pos hRun, List.dropWhile_append_of_pos hRun,
    List.length_append, skipWhile]
  simp only [Nat.add_assoc]

lemma skipWhile_skipWhile (p : Char → Bool) (c : Cursor) :
    (c.skipWhile p).skipWhile p = c.skipWhile p := by
  have hRun : ∀ d ∈ c.rest.takeWhile p, p d = true := fun d hd =>
    @List.mem_takeWhile_imp _ p c.rest d hd
  have hSkip := skipWhile_append_of_all c.position (c.rest.dropWhile p) hRun
  rw [List.takeWhile_append_dropWhile] at hSkip
  exact hSkip.symm

@[simp] lemma advance_mk_append (position : Nat) (front rest : List Char) :
    (Cursor.mk position (front ++ rest)).advance front.length
      = ⟨position + front.length, rest⟩ := by
  rw [advance, List.drop_left]

@[simp] lemma advance_one_cons (position : Nat) (c : Char) (rest : List Char) :
    (Cursor.mk position (c :: rest)).advance 1 = ⟨position + 1, rest⟩ :=
  rfl

end Cursor

end PolicyText
