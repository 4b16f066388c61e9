import PolicyText.Proofs.Scan.Reads
import PolicyText.Proofs.Scan.Scanned

/-!
# Scanning goes forward

A scanner never leaves its text: where it ends, the text from which it started goes on with what the
scanner has read and then what is left, and the position has grown by the number of characters that
were read.  `Cursor.Leads` says this of two places.  Every scanner leads from the place at which it
is called to that at which it ends, and so does the loop over arguments (`ReadsArguments.leads`).
-/

namespace PolicyText

namespace Cursor

/-- A place stands in the same text as another one, at it or further on. -/
def Leads (c d : Cursor) : Prop :=
  ∃ run, c.rest = run ++ d.rest ∧ d.position = c.position + run.length

lemma Leads.refl (c : Cursor) : c.Leads c :=
  ⟨[], rfl, rfl⟩

lemma Leads.trans {c d e : Cursor} (hFirst : c.Leads d) (hSecond : d.Leads e) : c.Leads e := by
  obtain ⟨run, hRest, hPosition⟩ := hFirst
  obtain ⟨more, hMore, hEnd⟩ := hSecond
  refine ⟨run ++ more, by rw [hRest, hMore, List.append_assoc], ?_⟩
  rw [hEnd, hPosition, List.length_append, Nat.add_assoc]

lemma Leads.position_le {c d : Cursor} (h : c.Leads d) : c.position ≤ d.position := by
  obtain ⟨run, -, hPosition⟩ := h
  omega

lemma Leads.position_add {c d : Cursor} (h : c.Leads d) :
    d.position + d.rest.length = c.position + c.rest.length := by
  obtain ⟨run, hRest, hPosition⟩ := h
  rw [hRest, hPosition, List.length_append, Nat.add_assoc]

lemma leads_append (position : Nat) (run rest : List Char) :
    (Cursor.mk position (run ++ rest)).Leads ⟨position + run.length, rest⟩ :=
  ⟨run, rfl, rfl⟩

lemma leads_tail (position : Nat) (d : Char) (tail : List Char) :
    (Cursor.mk position (d :: tail)).Leads ⟨position + 1, tail⟩ :=
  leads_append position [d] tail

lemma leads_advance {n : Nat} {c : Cursor} (h : n ≤ c.rest.length) : c.Leads (c.advance n) := by
  refine ⟨c.rest.take n, (List.take_append_drop n c.rest).symm, ?_⟩
  rw [List.length_take, Nat.min_eq_left h, advance]

lemma leads_skipWhile (p : Char → Bool) (c : Cursor) : c.Leads (c.skipWhile p) :=
  ⟨c.rest.takeWhile p, List.takeWhile_append_dropWhile.symm, rfl⟩

lemma leads_skipFiller (c : Cursor) : c.Leads c.skipFiller :=
  leads_skipWhile isFiller c

end Cursor

/-! ## Content and keywords -/

lemma trailingQuotes_isPrefix (w : Wrapper) (after : List Char) :
    trailingQuotes w after <+: after := by
  cases w with
  | tripleQuote => exact List.takeWhile_prefix _
  | backtick => exact List.nil_prefix
  | quote => exact List.nil_prefix

/-- Wrapped content consists of the opening wrapper, the body without quotes behind the closing
wrapper, the closing wrapper and these quotes. -/
lemma leads_of_scanWrapped {w : Wrapper} {c next : Cursor} {text : String}
    (hw : Wrapper.of? c.rest = some w) (h : scanWrapped w c = .ok (text, next)) :
    c.Leads next := by
  unfold scanWrapped at h
  split at h
  · cases h
  rename_i body after hBody
  cases h
  refine Cursor.Leads.trans ?_ (Cursor.leads_skipFiller _)
  unfold wrappedBody? at hBody
  split at hBody
  · cases hBody
  rename_i inner found hFound
  cases hBody
  have hMark : w.mark ≠ [] := by cases w <;> decide
  obtain ⟨hSplit, -⟩ := splitAtMark?_eq_some hMark hFound
  have hQuotes : trailingQuotes w found ++ found.drop (trailingQuotes w found).length = found :=
    List.prefix_iff_eq_append.1 (trailingQuotes_isPrefix w found)
  refine ⟨w.mark ++ (inner ++ (w.mark ++ trailingQuotes w found)), ?_, ?_⟩
  · rw [Wrapper.eq_mark_append_of_of? hw]
    simp only [List.append_assoc, hQuotes, List.append_cancel_left_eq]
    exact hSplit
  · simp only [List.length_append]
    omega

lemma leads_of_scanContent {stop : Char} {c next : Cursor} {text : String}
    (h : scanContent stop c = .ok (text, next)) : c.Leads next := by
  unfold scanContent at h
  split at h
  · exact leads_of_scanWrapped ‹_› h
  · split at h
    · cases h
    · cases h
      exact Cursor.leads_skipWhile _ c

lemma leads_of_scanKeyword {c opened : Cursor} {command : Command}
    (h : scanKeyword c = .ok (command, opened)) :
    c.Leads opened ∧ c.position < opened.position ∧ opened.Leads (opened.advance 1) := by
  obtain ⟨pad, rest, -, hRest, rfl⟩ := keyword_of_scanKeyword h
  have hPos := command.keyword_length_pos
  rw [← String.length_toList] at hPos
  refine ⟨⟨command.keyword.toList ++ pad, ?_, ?_⟩, ?_, Cursor.leads_tail _ _ _⟩
  · rw [hRest, List.append_assoc]
  · rw [List.length_append, Nat.add_assoc]
  · show c.position < c.position + command.keyword.toList.length + pad.length
    omega

/-! ## Option lists and references -/

lemma leads_of_scanOptionRest {keyword key value : String} {opened : Nat} {c last : Cursor}
    (h : scanOptionRest keyword opened key c = .ok (value, last)) : c.Leads last := by
  unfold scanOptionRest at h
  split at h
  · rename_i hHead
    obtain ⟨tail, hTail⟩ := List.head?_eq_some_iff.1 hHead
    have hAdvance : c.Leads (c.advance 1) := Cursor.leads_advance (by simp [hTail])
    unfold scanOptionValue at h
    split at h
    · cases h
    · split at h
      · cases h
      · exact (hAdvance.trans (Cursor.leads_skipWhile _ _)).trans (leads_of_scanContent h)
  · split at h
    · cases h
      exact .refl c
    · cases h

lemma leads_of_scanOption {keyword : String} {opened : Nat} {c last : Cursor}
    {entry : String × String} (h : scanOption keyword opened c = .ok (entry, last)) :
    c.Leads last := by
  simp only [scanOption] at h
  split at h
  · cases h
  split at h
  · cases h
  split at h
  · cases h
  rename_i hRest
  split at h
  · cases h
  · cases h
    exact (Cursor.leads_skipWhile _ c).trans (leads_of_scanOptionRest hRest)

lemma leads_of_scanOptionEntries {keyword : String} {opened : Nat} {raw result : RawOptions}
    {c last : Cursor} (h : scanOptionEntries keyword opened raw c = .ok (result, last)) :
    c.Leads last := by
  fun_induction scanOptionEntries keyword opened raw c generalizing result last with
  | case1 => cases h
  | case2 raw c tail hRest =>
    cases h
    have hSkip := Cursor.leads_skipWhile separatesOptions c
    have hClose : (c.skipWhile separatesOptions).Leads
        ((c.skipWhile separatesOptions).advance 1) :=
      Cursor.leads_advance (by simp [hRest])
    exact (hSkip.trans hClose).trans (Cursor.leads_skipFiller _)
  | case3 => cases h
  | case4 raw c d tail hRest hClosing key value next hOption ih =>
    exact ((Cursor.leads_skipWhile _ c).trans (leads_of_scanOption hOption)).trans (ih h)

lemma leads_of_scanOptions {keyword : String} {c last : Cursor} {raw : RawOptions}
    (h : scanOptions keyword c = .ok (raw, last)) : c.Leads last := by
  unfold scanOptions at h
  split at h
  · rename_i hHead
    obtain ⟨tail, hTail⟩ := List.head?_eq_some_iff.1 hHead
    have hAdvance : c.Leads (c.advance 1) := Cursor.leads_advance (by simp [hTail])
    exact hAdvance.trans (leads_of_scanOptionEntries h)
  · cases h

lemma leads_of_scanEntries {keyword : String} {opened : Nat} {c last : Cursor}
    {entries : List String} (h : scanEntries keyword opened c = .ok (entries, last)) :
    c.Leads last := by
  fun_induction scanEntries keyword opened c generalizing entries last with
  | case1 => cases h
  | case2 c d tail hRest =>
    cases h
    have hClose : c.Leads (c.advance 1) := Cursor.leads_advance (by simp [hRest])
    exact hClose.trans (Cursor.leads_skipFiller _)
  | case3 c d tail hRest _ ih | case4 c d tail hRest _ ih | case5 c d tail hRest _ ih =>
    have hPass : c.Leads (c.advance 1) := Cursor.leads_advance (by simp [hRest])
    exact hPass.trans (ih h)
  | case6 => cases h
  | case7 => cases h
  | case8 => cases h
  | case9 c d tail hRest hClass text next hContent entries last hTail ih =>
    cases h
    exact (leads_of_scanContent hContent).trans (ih hTail)

lemma leads_of_scanReference {keyword : String} {c last : Cursor} {entries : List String}
    (h : scanReference keyword c = .ok (entries, last)) : c.Leads last := by
  unfold scanReference at h
  split at h
  · rename_i hHead
    obtain ⟨tail, hTail⟩ := List.head?_eq_some_iff.1 hHead
    have hAdvance : c.Leads (c.advance 1) := Cursor.leads_advance (by simp [hTail])
    split at h
    · cases h
    · rename_i hEntries
      split at h <;> cases h
      exact hAdvance.trans (leads_of_scanEntries hEntries)
  · cases h

/-! ## Arguments -/

/-- Arguments that are closed are followed by what is left. -/
lemma ReadsArguments.leads {keyword : String} {start : Nat} {c : Cursor} {args : Arguments}
    {last : Except ParseError Cursor} (h : ReadsArguments keyword start c args last) :
    ∀ d, last = .ok d → c.Leads d := by
  induction h with
  | ended => rintro d ⟨⟩
  | closing =>
    rintro d ⟨⟩
    exact (Cursor.leads_tail _ _ _).trans (Cursor.leads_skipFiller _)
  | passed hClass hRest ih => exact fun d hd => (Cursor.leads_tail _ _ _).trans (ih d hd)
  | stuck => rintro d ⟨⟩
  | content hClass hContent hRest ih =>
    exact fun d hd => (leads_of_scanContent hContent).trans (ih d hd)
  | options hClass hKeyword hOptions hRest ih =>
    intro d hd
    have hOpened := (leads_of_scanKeyword hKeyword).1
    exact (hOpened.trans (leads_of_scanOptions hOptions)).trans (ih d hd)
  | reference hClass hKeyword hReference hRest ih =>
    intro d hd
    have hOpened := (leads_of_scanKeyword hKeyword).1
    exact (hOpened.trans (leads_of_scanReference hReference)).trans (ih d hd)
  | unclosed => rintro d ⟨⟩
  | command hClass hOptions hReference hKeyword hInner hRest ihInner ih =>
    intro d hd
    obtain ⟨hOpened, -, hAdvance⟩ := leads_of_scanKeyword hKeyword
    exact ((hOpened.trans hAdvance).trans (ihInner _ rfl)).trans (ih d hd)

end PolicyText
