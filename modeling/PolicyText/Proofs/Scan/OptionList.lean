import PolicyText.Proofs.Scan.Separated
import PolicyText.Scan.Options

/-!
# Option lists as they are written

An entry of an option list is a key with a value behind an equals sign, or a key that can stand
alone (`OptionEntry.IsWritten`); blanks can stand around every part of it.  An entry is read back as
its key and its value (`scanOption_written`), and the entries of a list are set one after the other,
so that of two values of a key the later one holds (`scanOptions_written`).
-/

namespace PolicyText

/-! ## Entries -/

/-- Sets the values of keys, the first pair first. -/
def RawOptions.insertAll (raw : RawOptions) (pairs : List (String × String)) : RawOptions :=
  pairs.foldl (fun raw pair => raw.insert pair.1 pair.2) raw

/-- The options of pairs of keys and values, the later values of a key replacing the earlier ones.
-/
def RawOptions.ofPairs (pairs : List (String × String)) : RawOptions :=
  RawOptions.insertAll [] pairs

namespace RawOptions

lemma mem_insert {key value : String} {raw : RawOptions} {entry : String × String}
    (h : entry ∈ raw.insert key value) : entry = (key, value) ∨ entry ∈ raw := by
  induction raw with
  | nil => exact Or.inl (List.mem_singleton.1 h)
  | cons first rest ih =>
    obtain ⟨other, old⟩ := first
    rw [insert] at h
    split at h
    · obtain rfl | h := List.mem_cons.1 h
      · exact Or.inl rfl
      · exact Or.inr (List.mem_cons_of_mem _ h)
    · split at h
      · exact List.mem_cons.1 h
      · obtain rfl | h := List.mem_cons.1 h
        · exact Or.inr List.mem_cons_self
        · exact (ih h).imp_right (List.mem_cons_of_mem _)

lemma mem_insertAll {raw : RawOptions} {pairs : List (String × String)} {entry : String × String}
    (h : entry ∈ raw.insertAll pairs) : entry ∈ pairs ∨ entry ∈ raw := by
  induction pairs generalizing raw with
  | nil => exact Or.inr h
  | cons pair rest ih =>
    obtain hRest | hInsert := ih h
    · exact Or.inl (List.mem_cons_of_mem _ hRest)
    · obtain rfl | hRaw := mem_insert hInsert
      · exact Or.inl List.mem_cons_self
      · exact Or.inr hRaw

lemma mem_ofPairs {pairs : List (String × String)} {entry : String × String}
    (h : entry ∈ ofPairs pairs) : entry ∈ pairs :=
  (mem_insertAll h).resolve_right (by simp)

end RawOptions

/-- An entry of an option list as it can be written: a key, and a value unless the key stands
alone. -/
structure OptionEntry where
  key : List Char
  value : Option Token
  deriving DecidableEq

namespace OptionEntry

/-- The key of an entry and its value.  A key that stands alone means `true`. -/
def pair (entry : OptionEntry) : String × String :=
  (String.ofList entry.key,
    match entry.value with
    | none => "true"
    | some token => String.ofList token.text)

/-- The characters of an entry without any room. -/
def written (entry : OptionEntry) : List Char :=
  match entry.value with
  | none => entry.key
  | some token => entry.key ++ '=' :: token.written

/-- A text that can be a key. -/
structure IsKey (key : List Char) : Prop where
  trimmed : Text.Trimmed key
  ne_nil : key ≠ []
  no_stop : ∀ c ∈ key, endsKey c = false

/-- A text is an entry as it can be written. -/
inductive IsWritten : OptionEntry → List Char → Prop where
  | flag {key pad : List Char} (hKey : IsKey key)
    (hFlag : flagOptions.contains (String.ofList key) = true)
    (hPad : ∀ c ∈ pad, Text.isBlank c = true) :
    IsWritten ⟨key, none⟩ (key ++ pad)
  | value {key pad space written : List Char} {token : Token} (hKey : IsKey key)
    (hPad : ∀ c ∈ pad, Text.isBlank c = true) (hSpace : ∀ c ∈ space, Text.isBlank c = true)
    (hToken : token.IsPadded written) (hText : token.text ≠ []) :
    IsWritten ⟨key, some token⟩ (key ++ (pad ++ '=' :: (space ++ written)))

end OptionEntry

/-! ## Reading an entry -/

lemma not_endsKey_of_isBlank {c : Char} (h : Text.isBlank c = true) : (!endsKey c) = true := by
  have hEquals : c ≠ '=' := by rintro rfl; cases h
  have hComma : c ≠ ',' := by rintro rfl; cases h
  have hClosing : c ≠ ')' := by rintro rfl; cases h
  simp [endsKey, hEquals, hComma, hClosing]

lemma OptionEntry.IsKey.scan {key pad : List Char} {d : Char} (hKey : IsKey key)
    (hPad : ∀ c ∈ pad, Text.isBlank c = true) (hd : endsKey d = true) (position : Nat)
    (rest : List Char) :
    Text.trim ((key ++ (pad ++ d :: rest)).takeWhile fun c => !endsKey c) = key ∧
      (Cursor.mk position (key ++ (pad ++ d :: rest))).skipWhile (fun c => !endsKey c)
        = ⟨position + key.length + pad.length, d :: rest⟩ := by
  have hRun : ∀ c ∈ key ++ pad, (!endsKey c) = true := by
    intro c hc
    rcases List.mem_append.1 hc with hc | hc
    · rw [hKey.no_stop c hc, Bool.not_false]
    · exact not_endsKey_of_isBlank (hPad c hc)
  have hStop : (!endsKey d) = false := by rw [hd, Bool.not_true]
  rw [← List.append_assoc]
  constructor
  · rw [Text.takeWhile_append_cons hRun hStop, hKey.trimmed.trim_append hPad]
  · rw [Cursor.skipWhile_append_cons position hRun hStop, List.length_append, Nat.add_assoc]

/-- A value is read behind the blanks in front of it. -/
lemma scanOptionValue_written {token : Token} {space written : List Char} {d : Char}
    (keyword key : String) (opened position : Nat) (tail : List Char)
    (hSpace : ∀ c ∈ space, Text.isBlank c = true) (hToken : token.IsPadded written)
    (hd : d = ',' ∨ d = ')') :
    scanOptionValue keyword opened key ⟨position, space ++ (written ++ d :: tail)⟩
      = .ok (String.ofList token.text,
          ⟨position + space.length + written.length, d :: tail⟩) := by
  obtain ⟨first, rest, hWritten, hBlank, hEnds⟩ : ∃ first rest, written = first :: rest ∧
      Text.isBlank first = false ∧ endsContent ',' first = false := by
    obtain ⟨hSound, pad, -, rfl⟩ := hToken
    cases token with
    | bare text =>
      obtain ⟨first, hFirst, -⟩ := IsBare.head hSound
      obtain ⟨rest, rfl⟩ := List.head?_eq_some_iff.1 hFirst
      have hEnds := IsBare.endsContent hSound (List.mem_cons_self)
      rw [Bool.not_eq_true'] at hEnds
      exact ⟨first, rest ++ pad, rfl, (IsBare.trimmed hSound).head, hEnds⟩
    | wrapped wrapper text =>
      cases wrapper with
      | backtick => exact ⟨'\x60', _, rfl, by decide, by decide⟩
      | quote => exact ⟨'\x22', _, rfl, by decide, by decide⟩
      | tripleQuote => exact ⟨'\x22', _, rfl, by decide, by decide⟩
  have hSkip : (Cursor.mk position (space ++ (written ++ d :: tail))).skipWhile Text.isBlank
      = ⟨position + space.length, written ++ d :: tail⟩ := by
    rw [hWritten, List.cons_append]
    exact Cursor.skipWhile_append_cons position hSpace hBlank
  rw [scanOptionValue, hSkip]
  conv_lhs => rw [hWritten]
  simp only [List.cons_append, hEnds, Bool.false_eq_true, if_false]
  rw [← List.cons_append, ← hWritten]
  exact scanContent_padded _ tail hToken hd

/-- An entry is read back as its key and its value, up to the comma or parenthesis behind it. -/
lemma scanOption_written {entry : OptionEntry} {written : List Char} {d : Char}
    (keyword : String) (opened position : Nat) (tail : List Char) (hEntry : entry.IsWritten written)
    (hd : d = ',' ∨ d = ')') :
    scanOption keyword opened ⟨position, written ++ d :: tail⟩
      = .ok (entry.pair, ⟨position + written.length, d :: tail⟩) := by
  have hEndsKey : endsKey d = true := by rcases hd with rfl | rfl <;> rfl
  cases hEntry with
  | @flag key pad hKey hFlag hPad =>
    obtain ⟨hName, hNext⟩ := hKey.scan hPad hEndsKey position tail
    have hRest : scanOptionRest keyword opened (String.ofList key)
        ⟨position + key.length + pad.length, d :: tail⟩
        = .ok ("true", ⟨position + key.length + pad.length, d :: tail⟩) := by
      have hEquals : some d ≠ some '=' := by rcases hd with rfl | rfl <;> decide
      rw [scanOptionRest, List.head?_cons, if_neg hEquals, if_pos hFlag]
    simp only [scanOption, List.append_assoc, hName, hNext, hRest, List.isEmpty_cons,
      List.isEmpty_iff, hKey.ne_nil, Bool.false_eq_true, if_false]
    simp [OptionEntry.pair, Nat.add_assoc]
  | @value key pad space written token hKey hPad hSpace hToken hText =>
    obtain ⟨hName, hNext⟩ :=
      @hKey.scan _ pad '=' hPad rfl position (space ++ (written ++ d :: tail))
    have hRest : scanOptionRest keyword opened (String.ofList key)
        ⟨position + key.length + pad.length, '=' :: (space ++ (written ++ d :: tail))⟩
        = .ok (String.ofList token.text,
            ⟨position + key.length + pad.length + 1 + space.length + written.length,
              d :: tail⟩) := by
      rw [scanOptionRest]
      simp only [List.head?_cons, if_true, Cursor.advance_one_cons]
      exact scanOptionValue_written keyword (String.ofList key) opened _ tail hSpace hToken hd
    have hValue : (String.ofList token.text).isEmpty = false := by
      rw [String.isEmpty_eq_false_iff]
      simpa using hText
    simp only [scanOption, List.append_assoc, List.cons_append, hName, hNext, hRest,
      List.isEmpty_cons, List.isEmpty_iff, hKey.ne_nil, hValue, Bool.false_eq_true, if_false]
    simp only [OptionEntry.pair, List.length_append, List.length_cons]
    congr 3
    omega

/-! ## Reading a list -/

lemma scanOptionEntries_closing (keyword : String) (opened : Nat) (raw : RawOptions)
    (position : Nat) (tail : List Char) :
    scanOptionEntries keyword opened raw ⟨position, ')' :: tail⟩
      = .ok (raw, Cursor.skipFiller ⟨position + 1, tail⟩) := by
  rw [scanOptionEntries, Cursor.skipWhile_cons_of_neg position rfl]
  rfl

lemma passesOver_scanOptionEntries (keyword : String) (opened : Nat) (raw : RawOptions) :
    Cursor.PassesOver separatesOptions (scanOptionEntries keyword opened raw) := by
  intro position c rest hc
  rw [scanOptionEntries, scanOptionEntries, Cursor.skipWhile_cons_of_pos position hc]

lemma scanOptionEntries_entry {keyword key value : String} {opened position : Nat} {d : Char}
    {tail : List Char} {next : Cursor} (raw : RawOptions) (hSeparates : separatesOptions d = false)
    (hClosing : d ≠ ')')
    (hEntry : scanOption keyword opened ⟨position, d :: tail⟩ = .ok ((key, value), next)) :
    scanOptionEntries keyword opened raw ⟨position, d :: tail⟩
      = scanOptionEntries keyword opened (raw.insert key value) next := by
  rw [scanOptionEntries, Cursor.skipWhile_cons_of_neg position hSeparates]
  simp only [if_neg hClosing]
  split
  · rename_i hError
    rw [hEntry] at hError
    cases hError
  · rename_i hFound
    rw [hEntry] at hFound
    cases hFound
    rfl

lemma OptionEntry.IsWritten.exists_head {entry : OptionEntry} {written : List Char}
    (h : entry.IsWritten written) :
    ∃ d rest, written = d :: rest ∧ separatesOptions d = false ∧ d ≠ ')' := by
  obtain ⟨key, rest, hKey, rfl⟩ : ∃ key rest, IsKey key ∧ written = key ++ rest := by
    cases h with
    | flag hKey => exact ⟨_, _, hKey, rfl⟩
    | value hKey => exact ⟨_, _, hKey, rfl⟩
  obtain ⟨d, tail, rfl⟩ := List.exists_cons_of_ne_nil hKey.ne_nil
  have hStop := hKey.no_stop d (by simp)
  simp only [endsKey, Bool.or_eq_false_iff, beq_eq_false_iff_ne, ne_eq] at hStop
  obtain ⟨⟨-, hComma⟩, hClosing⟩ := hStop
  exact ⟨d, tail ++ rest, rfl, by simp [separatesOptions, hComma, hKey.trimmed.head], hClosing⟩

/-- The entries of a list are set in their order. -/
lemma scanOptionEntries_listed {place : ListPlace} {entries : List OptionEntry}
    {text : List Char} (hText : Listed separatesOptions OptionEntry.IsWritten place entries text)
    (keyword : String) (opened : Nat) (raw : RawOptions) (position : Nat) (tail : List Char) :
    scanOptionEntries keyword opened raw ⟨position, text ++ ')' :: tail⟩
      = .ok (raw.insertAll (entries.map OptionEntry.pair),
          Cursor.skipFiller ⟨position + text.length + 1, tail⟩) := by
  have hPass := passesOver_scanOptionEntries keyword opened
  induction hText generalizing position raw with
  | gap hGap => rw [(hPass raw).append hGap, scanOptionEntries_closing]; rfl
  | closing => exact scanOptionEntries_closing keyword opened raw position tail
  | comma hItems ih =>
    rw [List.cons_append, hPass raw position ',' _ rfl, ih, List.length_cons,
      Nat.add_right_comm position 1, ← Nat.add_assoc]
  | @item gap written text entry entries hGap hItem hItems ih =>
    obtain ⟨stop, after, hStop, hIsStop⟩ := hItems.exists_stop tail
    obtain ⟨d, rest, hWritten, hSeparates, hClosing⟩ := hItem.exists_head
    have hEntry := scanOption_written keyword opened (position + gap.length) after hItem
      hIsStop
    rw [hWritten, List.cons_append] at hEntry
    rw [List.append_assoc, List.append_assoc, (hPass raw).append hGap, hStop, hWritten,
      List.cons_append, scanOptionEntries_entry raw hSeparates hClosing hEntry, ← hStop, ih,
      ← hWritten]
    simp only [RawOptions.insertAll, List.map_cons, List.foldl_cons, List.length_append,
      Nat.add_assoc]
    rfl

lemma scanOptions_written {entries : List OptionEntry} {text : List Char} (keyword : String)
    (position : Nat) (tail : List Char)
    (hText : Listed separatesOptions OptionEntry.IsWritten .front entries text) :
    scanOptions keyword ⟨position, '(' :: (text ++ ')' :: tail)⟩
      = .ok (RawOptions.ofPairs (entries.map OptionEntry.pair),
          Cursor.skipFiller ⟨position + text.length + 2, tail⟩) := by
  have hEntries := scanOptionEntries_listed hText keyword position [] (position + 1) tail
  have hPlace : position + 1 + text.length + 1 = position + text.length + 2 := by omega
  rw [hPlace] at hEntries
  simp only [scanOptions, List.head?_cons, if_true, Cursor.advance_one_cons, hEntries,
    RawOptions.ofPairs]

end PolicyText
