import PolicyText.Proofs.Outcome
import PolicyText.Proofs.Scan.Arguments

/-!
# How arguments are read, as a judgement

`ReadsArguments` says of the loop over arguments what it does: which arguments it finds from a place
on, and where it ends.  There is one rule for each thing that can stand at the place.  Whatever is
true of all that the scanner finds is proved by induction on this judgement, whose cases have names
and whose places are again those of the text.

The loop follows the judgement (`readsArguments`), and where the judgement ends without a fault, the
scanner has found a closing parenthesis.
-/

namespace PolicyText

/-- An argument begins at a place, but cannot be scanned. -/
inductive StuckAt (c : Cursor) (error : ParseError) : Prop where
  | content (hContent : scanContent ',' c = .error error)
  | keyword (hKeyword : scanKeyword c = .error error)
  | options {opened : Cursor} (hKeyword : scanKeyword c = .ok (.options, opened))
    (hOptions : scanOptions Command.options.keyword opened = .error error)
  | reference {opened : Cursor} (hKeyword : scanKeyword c = .ok (.reference, opened))
    (hReference : scanReference Command.reference.keyword opened = .error error)

/-- The arguments of a command, whose keyword stands at `start`, as they are found from a place on,
and the place behind them or the fault at which they end. -/
inductive ReadsArguments :
    String → Nat → Cursor → Arguments → Except ParseError Cursor → Prop where
  | ended {keyword : String} {start position : Nat} :
    ReadsArguments keyword start ⟨position, []⟩ (.fault (.notCompleted keyword start))
      (.error (.notCompleted keyword start))
  | closing {keyword : String} {start position : Nat} {tail : List Char} :
    ReadsArguments keyword start ⟨position, ')' :: tail⟩ .closed
      (.ok (Cursor.skipFiller ⟨position + 1, tail⟩))
  | passed {keyword : String} {start position : Nat} {d : Char} {tail : List Char}
    {args : Arguments} {last : Except ParseError Cursor}
    (hClass : CharClass.of d = .delimiter ∨ CharClass.of d = .filler ∨ CharClass.of d = .opening)
    (hRest : ReadsArguments keyword start ⟨position + 1, tail⟩ args last) :
    ReadsArguments keyword start ⟨position, d :: tail⟩ args last
  | stuck {keyword : String} {start position : Nat} {d : Char} {tail : List Char}
    {error : ParseError} (hStuck : StuckAt ⟨position, d :: tail⟩ error) :
    ReadsArguments keyword start ⟨position, d :: tail⟩ (.fault error) (.error error)
  | content {keyword : String} {start position : Nat} {d : Char} {tail : List Char}
    {text : String} {next : Cursor} {args : Arguments} {last : Except ParseError Cursor}
    (hClass : CharClass.of d = .content)
    (hContent : scanContent ',' ⟨position, d :: tail⟩ = .ok (text, next))
    (hRest : ReadsArguments keyword start next args last) :
    ReadsArguments keyword start ⟨position, d :: tail⟩ (.content text args) last
  | options {keyword : String} {start position : Nat} {d : Char} {tail : List Char}
    {raw : RawOptions} {opened next : Cursor} {args : Arguments}
    {last : Except ParseError Cursor} (hClass : CharClass.of d = .sigil)
    (hKeyword : scanKeyword ⟨position, d :: tail⟩ = .ok (.options, opened))
    (hOptions : scanOptions Command.options.keyword opened = .ok (raw, next))
    (hRest : ReadsArguments keyword start next args last) :
    ReadsArguments keyword start ⟨position, d :: tail⟩ (.options raw args) last
  | reference {keyword : String} {start position : Nat} {d : Char} {tail : List Char}
    {entries : List String} {opened next : Cursor} {args : Arguments}
    {last : Except ParseError Cursor} (hClass : CharClass.of d = .sigil)
    (hKeyword : scanKeyword ⟨position, d :: tail⟩ = .ok (.reference, opened))
    (hReference : scanReference Command.reference.keyword opened = .ok (entries, next))
    (hRest : ReadsArguments keyword start next args last) :
    ReadsArguments keyword start ⟨position, d :: tail⟩ (.reference entries args) last
  | unclosed {keyword : String} {start position : Nat} {d : Char} {tail : List Char}
    {command : Command} {opened : Cursor} {inner : Arguments} {error : ParseError}
    (hClass : CharClass.of d = .sigil) (hOptions : command ≠ .options)
    (hReference : command ≠ .reference)
    (hKeyword : scanKeyword ⟨position, d :: tail⟩ = .ok (command, opened))
    (hInner : ReadsArguments command.keyword position (opened.advance 1) inner (.error error)) :
    ReadsArguments keyword start ⟨position, d :: tail⟩
      (.command position command inner (.fault error)) (.error error)
  | command {keyword : String} {start position : Nat} {d : Char} {tail : List Char}
    {command : Command} {opened next : Cursor} {inner args : Arguments}
    {last : Except ParseError Cursor} (hClass : CharClass.of d = .sigil)
    (hOptions : command ≠ .options) (hReference : command ≠ .reference)
    (hKeyword : scanKeyword ⟨position, d :: tail⟩ = .ok (command, opened))
    (hInner : ReadsArguments command.keyword position (opened.advance 1) inner (.ok next))
    (hRest : ReadsArguments keyword start next args last) :
    ReadsArguments keyword start ⟨position, d :: tail⟩ (.command position command inner args) last

lemma eq_closing_of_class {d : Char} (h : CharClass.of d = .closing) : d = ')' := by
  unfold CharClass.of at h
  split at h
  · cases h
  split at h
  · cases h
  split at h
  · assumption
  split at h
  · cases h
  split at h <;> cases h

lemma eq_sigil_of_class {d : Char} (h : CharClass.of d = .sigil) : d = '#' ∨ d = '*' := by
  unfold CharClass.of at h
  split at h
  · assumption
  split at h
  · cases h
  split at h
  · cases h
  split at h
  · cases h
  split at h <;> cases h

lemma length_of_readArguments {keyword : String} {start : Nat} {c next : Cursor}
    {args : Arguments} (h : readArguments keyword start c = (args, .ok next)) :
    next.rest.length < c.rest.length := by
  have hLast := congrArg Prod.snd h
  rw [readArguments, ScannedArguments.outcome] at hLast
  obtain ⟨⟨last, hLess⟩, -, rfl⟩ := Except.map_eq_ok.1 hLast
  exact hLess

/-- What the loop finds is what the judgement says, for a text that is no longer than a bound. -/
lemma readsArguments_of_length_le (bound : Nat) :
    ∀ (keyword : String) (start : Nat) (c : Cursor), c.rest.length ≤ bound →
      ReadsArguments keyword start c (readArguments keyword start c).1
        (readArguments keyword start c).2 := by
  induction bound with
  | zero =>
    rintro keyword start ⟨position, rest⟩ hBound
    obtain rfl : rest = [] := List.eq_nil_of_length_eq_zero (Nat.le_zero.1 hBound)
    rw [readArguments_nil]
    exact .ended
  | succ bound ih =>
    rintro keyword start ⟨position, rest⟩ hBound
    cases rest with
    | nil =>
      rw [readArguments_nil]
      exact .ended
    | cons d tail =>
      -- Whatever is read at this place ends further on, and there the hypothesis applies.
      have hNext (keyword : String) (start : Nat) (next : Cursor)
          (hLess : next.rest.length < (d :: tail).length) :=
        ih keyword start next (Nat.le_of_lt_succ (Nat.lt_of_lt_of_le hLess hBound))
      have hTail := hNext keyword start ⟨position + 1, tail⟩ (by simp)
      rw [readArguments_cons]
      split <;> rename_i hClass
      · rw [show d = ')' from eq_closing_of_class hClass]
        exact .closing
      · exact .passed (Or.inl hClass) hTail
      · exact .passed (Or.inr (Or.inl hClass)) hTail
      · exact .passed (Or.inr (Or.inr hClass)) hTail
      · split <;> rename_i hContent
        · exact .stuck (.content hContent)
        · exact .content hClass hContent (hNext _ _ _ (length_of_scanContent rfl
            (endsContent_of_content hClass) hContent))
      · split <;> rename_i hKeyword
        · exact .stuck (.keyword hKeyword)
        · have hOpened := (length_of_scanKeyword hKeyword).1
          split <;> rename_i hOptions
          · exact .stuck (.options hKeyword hOptions)
          · exact .options hClass hKeyword hOptions
              (hNext _ _ _ (Nat.lt_trans (length_of_scanOptions hOptions) hOpened))
        · have hOpened := (length_of_scanKeyword hKeyword).1
          split <;> rename_i hReference
          · exact .stuck (.reference hKeyword hReference)
          · exact .reference hClass hKeyword hReference
              (hNext _ _ _ (Nat.lt_trans (length_of_scanReference hReference) hOpened))
        · rename_i command opened hOptions hReference
          have hOpened : (opened.advance 1).rest.length < (d :: tail).length :=
            Nat.lt_of_le_of_lt (Cursor.length_rest_advance_le 1 opened)
              (length_of_scanKeyword hKeyword).1
          have hRead := hNext command.keyword position (opened.advance 1) hOpened
          split <;> rename_i hInner <;> rw [hInner] at hRead
          · exact .unclosed hClass hOptions hReference hKeyword hRead
          · exact .command hClass hOptions hReference hKeyword hRead
              (hNext _ _ _ (Nat.lt_trans (length_of_readArguments hInner) hOpened))

lemma readsArguments (keyword : String) (start : Nat) (c : Cursor) :
    ReadsArguments keyword start c (readArguments keyword start c).1
      (readArguments keyword start c).2 :=
  readsArguments_of_length_le c.rest.length keyword start c (Nat.le_refl _)

end PolicyText
