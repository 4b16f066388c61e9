import PolicyText.Proofs.Text.Segments
import PolicyText.Version

/-!
# The characters of a version

A semantic version is a text of letters, digits, hyphens, dots and plus signs, and not an empty one
(`Version.isVersionChar_of_mem`, `Version.toList_ne_nil`).
-/

namespace PolicyText.Version

/-- The characters of which versions are made. -/
def isVersionChar (c : Char) : Bool :=
  isIdentifierChar c || c == '.' || c == '+'

lemma numberRest?_spec {text rest : List Char} (h : numberRest? text = some rest) :
    ∃ digits, digits ≠ [] ∧ (∀ c ∈ digits, c.isDigit = true) ∧ text = digits ++ rest := by
  simp only [numberRest?] at h
  split at h
  · cases h
  · rename_i hSome
    split at h
    · cases h
    · split at h
      · cases h
      · cases h
        refine ⟨text.takeWhile Char.isDigit, ?_, ?_, List.takeWhile_append_dropWhile.symm⟩
        · rwa [Ne, ← List.isEmpty_iff]
        · exact List.all_eq_true.1 List.all_takeWhile

lemma dotRest?_spec {text rest : List Char} (h : dotRest? text = some rest) :
    text = '.' :: rest := by
  unfold dotRest? at h
  split at h
  · cases h
    rfl
  · cases h

lemma isVersionChar_of_isDigit {c : Char} (h : c.isDigit = true) : isVersionChar c = true := by
  simp [isVersionChar, isIdentifierChar, Char.isAlphanum, h]

lemma isVersionChar_of_segments {text : List Char} {p : List Char → Bool}
    (hText : (Text.segments '.' text).all p = true)
    (hp : ∀ segment, p segment = true → isBuildIdentifier segment = true) {c : Char}
    (hc : c ∈ text) : isVersionChar c = true := by
  obtain rfl | ⟨segment, hSegment, hc⟩ := Text.mem_segments '.' hc
  · rfl
  · have hIdentifier := hp segment (List.all_eq_true.1 hText segment hSegment)
    rw [isBuildIdentifier, Bool.and_eq_true] at hIdentifier
    rw [isVersionChar, List.all_eq_true.1 hIdentifier.2 c hc, Bool.true_or, Bool.true_or]

lemma isVersionChar_of_acceptsBuild {text : List Char} (h : acceptsBuild text = true) {c : Char}
    (hc : c ∈ text) : isVersionChar c = true := by
  unfold acceptsBuild at h
  split at h
  · cases hc
  · obtain rfl | hc := List.mem_cons.1 hc
    · rfl
    · exact isVersionChar_of_segments h (fun _ hSegment => hSegment) hc
  · cases h

lemma isVersionChar_of_acceptsSuffix {text : List Char} (h : acceptsSuffix text = true) {c : Char}
    (hc : c ∈ text) : isVersionChar c = true := by
  unfold acceptsSuffix at h
  split at h
  · rename_i rest
    rw [Bool.and_eq_true] at h
    obtain rfl | hc := List.mem_cons.1 hc
    · rfl
    · rw [← List.takeWhile_append_dropWhile (p := (· != '+')) (l := rest), List.mem_append] at hc
      obtain hPreRelease | hBuild := hc
      · refine isVersionChar_of_segments h.1 (fun segment hSegment => ?_) hPreRelease
        rw [isPreReleaseIdentifier, Bool.and_eq_true] at hSegment
        exact hSegment.1
      · exact isVersionChar_of_acceptsBuild h.2 hBuild
  · exact isVersionChar_of_acceptsBuild h hc

/-- A text that is read as numbers and dots begins with a digit and goes on with characters of
versions. -/
lemma core_spec {text rest : List Char}
    (h : (numberRest? text >>= dotRest? >>= numberRest? >>= dotRest? >>= numberRest?)
      = some rest) :
    ∃ front, front ≠ [] ∧ (∀ c ∈ front, isVersionChar c = true) ∧ text = front ++ rest := by
  simp only [bind, Option.bind_eq_some_iff] at h
  obtain ⟨r4, ⟨r3, ⟨r2, ⟨r1, hMajor, hDot1⟩, hMinor⟩, hDot2⟩, hPatch⟩ := h
  obtain ⟨major, hMajorNil, hMajorDigits, rfl⟩ := numberRest?_spec hMajor
  obtain rfl := dotRest?_spec hDot1
  obtain ⟨minor, -, hMinorDigits, rfl⟩ := numberRest?_spec hMinor
  obtain rfl := dotRest?_spec hDot2
  obtain ⟨patch, -, hPatchDigits, rfl⟩ := numberRest?_spec hPatch
  refine ⟨major ++ '.' :: (minor ++ '.' :: patch), by simp, ?_, by simp⟩
  intro c hc
  simp only [List.mem_append, List.mem_cons] at hc
  obtain hc | rfl | hc | rfl | hc := hc
  · exact isVersionChar_of_isDigit (hMajorDigits c hc)
  · rfl
  · exact isVersionChar_of_isDigit (hMinorDigits c hc)
  · rfl
  · exact isVersionChar_of_isDigit (hPatchDigits c hc)

lemma isVersionChar_of_mem (v : Version) {c : Char} (hc : c ∈ v.text.toList) :
    isVersionChar c = true := by
  have h : acceptsChars v.text.toList = true := v.accepted
  unfold acceptsChars at h
  split at h
  · rename_i rest hCore
    obtain ⟨front, -, hFront, hText⟩ := core_spec hCore
    rw [hText, List.mem_append] at hc
    obtain hc | hc := hc
    · exact hFront c hc
    · exact isVersionChar_of_acceptsSuffix h hc
  · cases h

lemma toList_ne_nil (v : Version) : v.text.toList ≠ [] := by
  have h : acceptsChars v.text.toList = true := v.accepted
  unfold acceptsChars at h
  split at h
  · rename_i rest hCore
    obtain ⟨front, hFront, -, hText⟩ := core_spec hCore
    rw [hText]
    simp [hFront]
  · cases h

end PolicyText.Version
