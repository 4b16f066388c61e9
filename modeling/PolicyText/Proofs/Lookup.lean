import Mathlib.Data.List.Nodup
import Mathlib.Tactic.Lemma

/-!
# Looking up names

In a list of pairs no two of which have the same name every value is found under its name
(`List.lookup_of_mem`), and a name that is not there is not found (`List.lookup_of_not_mem`).  What
is found stands in the list (`List.mem_of_lookup`).
-/

namespace List

variable {α : Type} {pairs : List (String × α)}

lemma lookup_of_mem (hNames : (pairs.map Prod.fst).Nodup) {pair : String × α} (h : pair ∈ pairs) :
    pairs.lookup pair.1 = some pair.2 := by
  induction pairs with
  | nil => cases h
  | cons first rest ih =>
    rw [map_cons, nodup_cons] at hNames
    obtain ⟨hFirst, hRest⟩ := hNames
    obtain rfl | hMem := mem_cons.1 h
    · rw [lookup_cons, beq_self_eq_true]
    · have hOther : (pair.1 == first.1) = false := by
        rw [beq_eq_false_iff_ne]
        exact fun hEq => hFirst (hEq ▸ mem_map_of_mem hMem)
      rw [lookup_cons, hOther]
      exact ih hRest hMem

lemma lookup_of_not_mem {name : String} (h : name ∉ pairs.map Prod.fst) :
    pairs.lookup name = none := by
  refine lookup_eq_none_iff.2 fun pair hPair => ?_
  rw [bne_iff_ne]
  rintro rfl
  exact h (mem_map.2 ⟨pair, hPair, rfl⟩)

lemma mem_of_lookup {name : String} {a : α} (h : pairs.lookup name = some a) :
    (name, a) ∈ pairs := by
  obtain ⟨front, back, rfl, -⟩ := lookup_eq_some_iff.1 h
  exact mem_append_right front mem_cons_self

end List
