import Mathlib.Tactic.Lemma

/-!
# Successful steps

A computation that can fail succeeds exactly if every step of it does.  These are the cases of that
for the computations of the readers, which are sequences of steps (`Except.bind_eq_ok`), changes of
their results (`Except.map_eq_ok`) and steps that are repeated along a list
(`Except.mem_of_mapM_eq_ok`).  If it fails, it does so with the error of the first step that fails
(`Except.bind_eq_error`).
-/

namespace Except

variable {ε α β : Type} {first : Except ε α} {result : β}

lemma exists_eq_ok {outcome : Except ε α} (h : outcome.isOk = true) : ∃ a, outcome = .ok a := by
  cases outcome with
  | error e => cases h
  | ok a => exact ⟨a, rfl⟩

/-- Whether a computation fails with a given error. -/
def failsWith [DecidableEq ε] (e : ε) : Except ε α → Bool
  | .error found => found = e
  | .ok _ => false

lemma eq_error_of_failsWith [DecidableEq ε] {outcome : Except ε α} {e : ε}
    (h : outcome.failsWith e = true) : outcome = .error e := by
  cases outcome with
  | error found => exact congrArg Except.error (of_decide_eq_true h)
  | ok a => cases h

lemma ok_bind (a : α) (next : α → Except ε β) : (.ok a : Except ε α) >>= next = next a :=
  rfl

lemma bind_eq_ok {next : α → Except ε β} :
    first >>= next = .ok result ↔ ∃ a, first = .ok a ∧ next a = .ok result := by
  constructor
  · intro h
    cases first with
    | error e => cases h
    | ok a => exact ⟨a, rfl, h⟩
  · rintro ⟨a, rfl, h⟩
    exact h

lemma map_eq_ok {change : α → β} :
    first.map change = .ok result ↔ ∃ a, first = .ok a ∧ change a = result := by
  constructor
  · intro h
    cases first with
    | error e => cases h
    | ok a => exact ⟨a, rfl, Except.ok.inj h⟩
  · rintro ⟨a, rfl, rfl⟩
    rfl

lemma bind_eq_error {next : α → Except ε β} {e : ε} :
    first >>= next = .error e ↔ first = .error e ∨ ∃ a, first = .ok a ∧ next a = .error e := by
  constructor
  · intro h
    cases first with
    | error fault => exact Or.inl (congrArg Except.error (Except.error.inj h))
    | ok a => exact Or.inr ⟨a, rfl, h⟩
  · rintro (rfl | ⟨a, rfl, h⟩)
    · rfl
    · exact h

lemma map_bind {γ : Type} {change : α → β} {next : β → Except ε γ} :
    first.map change >>= next = first >>= fun a => next (change a) := by
  cases first <;> rfl

lemma bind_map {γ : Type} {next : α → Except ε β} {change : β → γ} :
    (first >>= next).map change = first >>= fun a => (next a).map change := by
  cases first <;> rfl

lemma map_eq_error {change : α → β} {e : ε} :
    first.map change = .error e ↔ first = .error e := by
  constructor
  · intro h
    cases first with
    | error fault => exact congrArg Except.error (Except.error.inj h)
    | ok a => cases h
  · rintro rfl
    rfl

lemma mem_of_mapM_eq_ok {f : α → Except ε β} {items : List α} {results : List β}
    (h : items.mapM f = .ok results) :
    results.length = items.length ∧ ∀ b ∈ results, ∃ a ∈ items, f a = .ok b := by
  induction items generalizing results with
  | nil =>
    cases h
    exact ⟨rfl, List.forall_mem_nil _⟩
  | cons item rest ih =>
    rw [List.mapM_cons] at h
    obtain ⟨first, hFirst, h⟩ := bind_eq_ok.1 h
    obtain ⟨others, hOthers, h⟩ := bind_eq_ok.1 h
    cases h
    obtain ⟨hLength, hMem⟩ := ih hOthers
    refine ⟨by rw [List.length_cons, List.length_cons, hLength], ?_⟩
    intro b hb
    obtain rfl | hb := List.mem_cons.1 hb
    · exact ⟨item, List.mem_cons_self, hFirst⟩
    · obtain ⟨a, ha, hEq⟩ := hMem b hb
      exact ⟨a, List.mem_cons_of_mem _ ha, hEq⟩

lemma exists_mapM_eq_ok {f : α → Except ε β} {items : List α}
    (h : ∀ a ∈ items, ∃ b, f a = .ok b) : ∃ results, items.mapM f = .ok results := by
  induction items with
  | nil => exact ⟨[], rfl⟩
  | cons item rest ih =>
    obtain ⟨first, hFirst⟩ := h item List.mem_cons_self
    obtain ⟨others, hOthers⟩ := ih fun a ha => h a (List.mem_cons_of_mem _ ha)
    refine ⟨first :: others, ?_⟩
    rw [List.mapM_cons, hFirst, hOthers]
    rfl

lemma mapM_map_eq_ok {γ : Type} {f : α → Except ε β} {item : γ → α} {made : γ → β}
    (h : ∀ c, f (item c) = .ok (made c)) (items : List γ) :
    (items.map item).mapM f = .ok (items.map made) := by
  induction items with
  | nil => rfl
  | cons c items ih =>
    rw [List.map_cons, List.mapM_cons, h, ih]
    rfl

end Except
